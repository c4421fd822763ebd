/-
The list of commands of a remote console (`engine/server/server.cpp`).

A client that logs in gets the commands that it may use, a few in each tick
(`UpdateClientRconCommands`), and the changes of their access levels
(`ConchainCommandAccessUpdate`).  `told` is what a client makes of the messages.

The messages of a change are not always right: the client is told wrongly about a command when one
of the two levels is the level of the client, when the command is the next one to be sent to it, or
when its name is written in another case; and a client that is not logged in, or logs in at another
level, is told about commands twice.  As long as nothing of this happens, the client knows the
commands that it may use (`rconCommands_in_sync`).
-/
import Mathlib.Data.Multiset.AddSub
import Mathlib.Data.Multiset.Filter
import Mathlib.Logic.Function.Basic
import DDNet.Server.Authed

namespace DDNet

namespace CServer

/-- `MAX_RCONCMD_SEND`. -/
def maxRconcmdSend : ℕ := 16

/-- The messages about the remote console. -/
inductive RconMsg
  /-- `NETMSG_RCON_AUTH_STATUS` with 1, or `protocol7::NETMSG_RCON_AUTH_ON`. -/
  | authOn
  /-- `NETMSG_RCON_AUTH_STATUS` with 0, or `protocol7::NETMSG_RCON_AUTH_OFF`. -/
  | authOff
  /-- `NETMSG_RCON_CMD_GROUP_START` -/
  | groupStart (num : ℕ)
  /-- `NETMSG_RCON_CMD_GROUP_END` -/
  | groupEnd
  /-- `NETMSG_RCON_CMD_ADD` -/
  | cmdAdd (name help params : List UInt8)
  /-- `NETMSG_RCON_CMD_REM` -/
  | cmdRem (name : List UInt8)
deriving DecidableEq

/-- What `CClient` has about the remote console; `cmdToSend` is the place of
`m_pRconCmdToSend` in the list of the commands, and `sent` has the messages that the client got,
the last one first. -/
structure RconClient where
  empty : Bool
  authed : Authed
  cmdToSend : Option ℕ
  sent : List RconMsg
deriving DecidableEq

namespace RconClient

/-- `SendMsg` to the client. -/
def send (client : RconClient) (msg : RconMsg) : RconClient := { client with sent := msg :: client.sent }

/-- `SendRconCmdAdd`. -/
def sendRconCmdAdd (client : RconClient) (info : CCommand) : RconClient :=
  client.send (.cmdAdd info.name info.help info.params)

/-- `SendRconCmdRem`. -/
def sendRconCmdRem (client : RconClient) (info : CCommand) : RconClient := client.send (.cmdRem info.name)

/-- `GetConsoleAccessLevel`. -/
def consoleAccessLevel (client : RconClient) : ℤ :=
  if client.authed = .admin then accessLevelAdmin
  else if client.authed = .mod then accessLevelMod
  else accessLevelHelper

/-- `NumRconCommands`. -/
def numRconCommands (client : RconClient) (console : CommandList) : ℕ :=
  (console.cmds.filter (CCommand.isInfo client.consoleAccessLevel cfgflagServer)).length

/-- The loop of `UpdateClientRconCommands`, with the number of commands that it may still send. -/
def sendLoop (console : CommandList) : ℕ → RconClient → RconClient
  | 0, client => client
  | n + 1, client =>
      match client.cmdToSend with
      | none => client
      | some info =>
          match console.cmds[info]? with
          | none => client
          | some command =>
              let client := client.sendRconCmdAdd command
              match console.nextCommandInfo info client.consoleAccessLevel cfgflagServer with
              | some next => sendLoop console n { client with cmdToSend := some next }
              | none => { client with cmdToSend := none }.send .groupEnd

/-- `NETMSG_RCON_AUTH` with the password of a key of the level `authLevel`. -/
def login (client : RconClient) (console : CommandList) (authLevel : AuthLevel) (sendRconCmds : Bool) :
    RconClient :=
  if client.authed = authLevel.authed then
    client
  else
    let client := { client.send .authOn with authed := authLevel.authed }
    if sendRconCmds then
      let client := { client with
        cmdToSend := console.firstCommandInfo authLevel.authed.accessLevel cfgflagServer }
      let client := client.send (.groupStart (client.numRconCommands console))
      if client.cmdToSend = none then client.send .groupEnd else client
    else
      client

/-- `LogoutClient`. -/
def logout (client : RconClient) : RconClient :=
  { client.send .authOff with cmdToSend := none, authed := .no }

/-- `NewClientCallback`: another client has the slot. -/
def join : RconClient := ⟨false, .no, none, []⟩

/-- `DelClientCallback`. -/
def drop (client : RconClient) : RconClient :=
  { client with empty := true, authed := .no, cmdToSend := none }

/-- The name comes before the command that is to be sent next. -/
def isBefore (client : RconClient) (console : CommandList) (name : List UInt8) : Bool :=
  match client.cmdToSend.bind (console.cmds[·]?) with
  | some next => strComp name next.name == .lt
  | none => true

/-- What `ConchainCommandAccessUpdate` does for a client when the access level of `info` has
changed from `oldLevel`; `name` is the name of the command as it is written. -/
def accessUpdate (client : RconClient) (console : CommandList) (name : List UInt8) (info : CCommand)
    (oldLevel : ℤ) : RconClient :=
  let level := client.authed.accessLevel
  if client.empty || info.accessLevel > level && level < oldLevel ||
      info.accessLevel < level && level > oldLevel || !client.isBefore console name then
    client
  else if oldLevel < info.accessLevel then
    client.sendRconCmdAdd info
  else
    client.sendRconCmdRem info

end RconClient

/-- The console and the clients. -/
structure RconServer where
  console : CommandList
  clients : ClientId → RconClient

/-- What can happen to the lists of commands. -/
inductive RconOp
  /-- `access_level` with the name of a command and a level. -/
  | access (name : List UInt8) (level : ℤ)
  /-- `UpdateClientRconCommands` in a tick. -/
  | update (tick : ℕ)
  | login (client : ClientId) (authLevel : AuthLevel) (sendRconCmds : Bool)
  | logout (client : ClientId)
  | join (client : ClientId)
  | drop (client : ClientId)

namespace RconServer

/-- Change one client. -/
def modify (server : RconServer) (client : ClientId) (f : RconClient → RconClient) : RconServer :=
  { server with clients := Function.update server.clients client (f (server.clients client)) }

/-- `UpdateClientRconCommands`. -/
def updateClientRconCommands (server : RconServer) (tick : ℕ) : RconServer :=
  server.modify ⟨tick % maxClients, Nat.mod_lt _ (by norm_num [maxClients])⟩ fun client =>
    if !client.empty && client.authed != .no then client.sendLoop server.console maxRconcmdSend else client

/-- `ConchainCommandAccessUpdate` around `ConCommandAccess`. -/
def commandAccessUpdate (server : RconServer) (name : List UInt8) (level : ℤ) : RconServer :=
  match server.console.findCommand name cfgflagServer with
  | none => server
  | some i =>
      match server.console.cmds[i]? with
      | none => server
      | some old =>
          let info := old.setAccessLevel level
          let console := server.console.setAccessLevel i level
          if old.accessLevel ≠ info.accessLevel then
            { console := console
              clients := fun c => (server.clients c).accessUpdate console name info old.accessLevel }
          else
            { server with console := console }

/-- One operation.  Only clients that are there send packets. -/
def step (server : RconServer) : RconOp → RconServer
  | .access name level => server.commandAccessUpdate name level
  | .update tick => server.updateClientRconCommands tick
  | .login c authLevel sendRconCmds => server.modify c fun client =>
      if client.empty then client else client.login server.console authLevel sendRconCmds
  | .logout c => server.modify c fun client => if client.empty then client else client.logout
  | .join c => server.modify c fun _ => RconClient.join
  | .drop c => server.modify c RconClient.drop

/-- Some operations. -/
def run : List RconOp → RconServer → RconServer
  | [], server => server
  | op :: ops, server => run ops (server.step op)

end RconServer

/-! ### What a client is told -/

/-- The commands that a client has been told about after some messages (the last one first): it
adds and removes commands, and drops them all when it is logged out. -/
def told : List RconMsg → Multiset (List UInt8)
  | [] => 0
  | .authOff :: _ => 0
  | .cmdAdd name _ _ :: msgs => name ::ₘ told msgs
  | .cmdRem name :: msgs => (told msgs).erase name
  | _ :: msgs => told msgs

/-- The client has been sent the beginning of a list since it logged in. -/
def listStarted : List RconMsg → Bool
  | [] => false
  | .authOff :: _ => false
  | .groupStart _ :: _ => true
  | _ :: msgs => listStarted msgs

/-- The names of the commands in a list that a client with an access level may use. -/
def accessible (level : ℤ) (cmds : List CCommand) : Multiset (List UInt8) :=
  ((cmds.filter (CCommand.isInfo level cfgflagServer)).map CCommand.name : List (List UInt8))

/-! ### The accessible commands -/

lemma accessible_append (level : ℤ) (as bs : List CCommand) :
    accessible level (as ++ bs) = accessible level as + accessible level bs := by
  rw [accessible, List.filter_append, List.map_append]
  rfl

/-- Commands that the client may not use do not count. -/
lemma accessible_take_of_none {level : ℤ} {cmds : List CCommand} {i n : ℕ} (hin : i ≤ n)
    (h : ∀ k command, i ≤ k → k < n → cmds[k]? = some command →
      command.isInfo level cfgflagServer = false) :
    accessible level (cmds.take n) = accessible level (cmds.take i) := by
  have hsplit : cmds.take n = cmds.take i ++ (cmds.take n).drop i := by
    conv_lhs => rw [← List.take_append_drop i (cmds.take n), List.take_take, min_eq_left hin]
  have hnone : accessible level ((cmds.take n).drop i) = 0 := by
    rw [accessible, List.filter_eq_nil_iff.2]
    · rfl
    · intro command hcommand
      obtain ⟨k, hk⟩ := List.mem_iff_getElem?.1 hcommand
      rw [List.getElem?_drop] at hk
      rw [List.getElem?_take] at hk
      split_ifs at hk with hlt
      rw [h (i + k) command (Nat.le_add_right _ _) hlt hk]
      exact Bool.false_ne_true
  rw [hsplit, accessible_append, hnone, add_zero]

/-- The commands up to the next one that is found. -/
lemma accessible_take_findFrom (level : ℤ) (cmds : List CCommand) (i : ℕ) (hi : i ≤ cmds.length) :
    accessible level (cmds.take ((findFrom cmds (CCommand.isInfo level cfgflagServer) i).getD cmds.length)) =
      accessible level (cmds.take i) := by
  cases hfind : findFrom cmds (CCommand.isInfo level cfgflagServer) i with
  | some n =>
    obtain ⟨hin, -, hnone⟩ := findFrom_some hfind
    exact accessible_take_of_none hin hnone
  | none =>
    exact accessible_take_of_none hi fun k command hik _ hk => findFrom_none hfind k command hik hk

lemma accessible_take_succ {level : ℤ} {cmds : List CCommand} {i : ℕ} {command : CCommand}
    (hi : cmds[i]? = some command) (hinfo : command.isInfo level cfgflagServer = true) :
    accessible level (cmds.take (i + 1)) = command.name ::ₘ accessible level (cmds.take i) := by
  have hone : accessible level [command] = {command.name} := by
    rw [accessible, List.filter_cons_of_pos hinfo]
    rfl
  rw [List.take_add_one, hi, Option.toList_some, accessible_append, hone, add_comm]
  rfl

/-- A change of the level of one command. -/
lemma accessible_modify {cmds : List CCommand} {i n : ℕ} {command : CCommand} (hi : cmds[i]? = some command)
    (hflag : command.hasFlag cfgflagServer = true) (hin : i < n) (level newLevel : ℤ) :
    ∃ rest, accessible level (cmds.take n) =
        (if level ≤ command.accessLevel then {command.name} else 0) + rest ∧
      accessible level ((cmds.modify i (·.setAccessLevel newLevel)).take n) =
        (if level ≤ (command.setAccessLevel newLevel).accessLevel then {command.name} else 0) + rest := by
  have hone : ∀ other : CCommand, other.hasFlag cfgflagServer = true →
      accessible level [other] = if level ≤ other.accessLevel then {other.name} else 0 := by
    intro other hother
    rw [accessible]
    by_cases hle : level ≤ other.accessLevel
    · rw [List.filter_cons_of_pos (by simp [CCommand.isInfo, hother, hle]), if_pos hle]
      rfl
    · rw [List.filter_cons_of_neg (by simp [CCommand.isInfo, hle]), if_neg hle]
      rfl
  obtain ⟨hlt, rfl⟩ := List.getElem?_eq_some_iff.1 hi
  have hlt' : i < (cmds.take n).length := by
    rw [List.length_take]
    omega
  have hsplit : cmds.take n = (cmds.take n).take i ++ cmds[i] :: (cmds.take n).drop (i + 1) := by
    conv_lhs => rw [← List.take_append_drop i (cmds.take n), List.drop_eq_getElem_cons hlt',
      List.getElem_take]
  have hsplit' : (cmds.modify i (·.setAccessLevel newLevel)).take n = (cmds.take n).take i ++
      cmds[i].setAccessLevel newLevel :: (cmds.take n).drop (i + 1) := by
    rw [List.take_modify, List.modify_eq_take_cons_drop hlt', List.getElem_take]
  have hsum : ∀ other : CCommand, other.hasFlag cfgflagServer = true →
      accessible level ((cmds.take n).take i ++ other :: (cmds.take n).drop (i + 1)) =
        (if level ≤ other.accessLevel then {other.name} else 0) +
          (accessible level ((cmds.take n).take i) + accessible level ((cmds.take n).drop (i + 1))) := by
    intro other hother
    rw [← List.singleton_append, accessible_append, accessible_append, hone other hother]
    abel
  exact ⟨_, (congrArg _ hsplit).trans (hsum _ hflag), (congrArg _ hsplit').trans (hsum _ hflag)⟩

/-! ### What a client knows -/

/-- What is true of a client at all times, as long as nothing bad happens: the commands that it has
been told about are those that it may use, up to the next one that it will be sent. -/
structure Synced (console : CommandList) (client : RconClient) : Prop where
  gone : client.empty = true → client.authed = .no
  out : client.empty = false → client.authed = .no →
    told client.sent = 0 ∧ listStarted client.sent = false ∧ client.cmdToSend = none
  unlisted : client.authed ≠ .no → listStarted client.sent = false → client.cmdToSend = none
  next : client.authed ≠ .no → ∀ i, client.cmdToSend = some i → ∃ command,
    console.cmds[i]? = some command ∧ command.isInfo client.authed.accessLevel cfgflagServer = true
  list : client.authed ≠ .no → listStarted client.sent = true →
    told client.sent = accessible client.authed.accessLevel
      (console.cmds.take (client.cmdToSend.getD console.cmds.length))

variable {console : CommandList} {client : RconClient}

lemma consoleAccessLevel_eq (h : client.authed ≠ .no) :
    client.consoleAccessLevel = client.authed.accessLevel := by
  rw [RconClient.consoleAccessLevel, Authed.accessLevel]
  cases hauthed : client.authed with
  | no => exact absurd hauthed h
  | helper => rfl
  | mod => rfl
  | admin => rfl

lemma sendLoop_synced (n : ℕ) (h : Synced console client) (hauthed : client.authed ≠ .no) :
    Synced console (client.sendLoop console n) := by
  induction n generalizing client with
  | zero => exact h
  | succ n ih =>
    rw [RconClient.sendLoop]
    cases hnext : client.cmdToSend with
    | none => exact h
    | some i =>
      obtain ⟨command, hi, hinfo⟩ := h.next hauthed i hnext
      have hlen : i + 1 ≤ console.cmds.length := (List.getElem?_eq_some_iff.1 hi).1
      have hstarted : listStarted client.sent = true := by
        by_contra hlist
        rw [Bool.not_eq_true] at hlist
        rw [h.unlisted hauthed hlist] at hnext
        exact Option.some_ne_none i hnext.symm
      have hlist := h.list hauthed hstarted
      rw [hnext, Option.getD_some] at hlist
      have htold : command.name ::ₘ told client.sent = accessible client.authed.accessLevel (console.cmds.take
          ((console.nextCommandInfo i client.authed.accessLevel cfgflagServer).getD console.cmds.length)) := by
        rw [CommandList.nextCommandInfo, accessible_take_findFrom _ _ _ hlen,
          accessible_take_succ hi hinfo, hlist]
      have hlevel : (client.sendRconCmdAdd command).consoleAccessLevel = client.authed.accessLevel :=
        consoleAccessLevel_eq hauthed
      simp only [hi]
      rw [hlevel]
      cases hfind : console.nextCommandInfo i client.authed.accessLevel cfgflagServer with
      | some j =>
        rw [hfind] at htold
        refine ih ⟨fun hempty => absurd (h.gone hempty) hauthed, fun _ hno => absurd hno hauthed, ?_, ?_, ?_⟩ hauthed
        · intro _ hlist
          exact absurd (hstarted.symm.trans hlist) Bool.noConfusion
        · rintro - k hk
          obtain rfl : j = k := Option.some_injective _ hk
          exact (findFrom_some hfind).2.1
        · exact fun _ _ => htold
      | none =>
        rw [hfind] at htold
        refine ⟨fun hempty => absurd (h.gone hempty) hauthed, fun _ hno => absurd hno hauthed, ?_, ?_, ?_⟩
        · exact fun _ _ => rfl
        · rintro - k hk
          exact absurd hk.symm (Option.some_ne_none k)
        · exact fun _ _ => htold

lemma login_synced (h : Synced console client) (hempty : client.empty = false) (authLevel : AuthLevel)
    (sendRconCmds : Bool) (hout : client.authed = .no ∨ client.authed = authLevel.authed) :
    Synced console (client.login console authLevel sendRconCmds) := by
  simp only [RconClient.login]
  by_cases heq : client.authed = authLevel.authed
  · rw [if_pos heq]
    exact h
  · obtain ⟨htold, hstarted, hnone⟩ := h.out hempty (hout.resolve_right heq)
    have hne := authLevel.authed_ne_no
    have hgone : ∀ {P : Prop}, client.empty = true → P := fun ht => absurd (hempty.symm.trans ht) Bool.noConfusion
    rw [if_neg heq]
    cases sendRconCmds with
    | false =>
      rw [if_neg Bool.false_ne_true]
      refine ⟨fun ht => hgone ht, fun _ hno => absurd hno hne, fun _ _ => hnone, ?_, ?_⟩
      · intro _ i hi
        exact absurd (hi.symm.trans hnone) (Option.some_ne_none i)
      · intro _ hlist
        exact absurd (hstarted.symm.trans hlist) Bool.noConfusion
    | true =>
      rw [if_pos rfl]
      have hlist : told client.sent = accessible authLevel.authed.accessLevel (console.cmds.take
          ((console.firstCommandInfo authLevel.authed.accessLevel cfgflagServer).getD console.cmds.length)) := by
        rw [CommandList.firstCommandInfo, accessible_take_findFrom _ _ _ (Nat.zero_le _), htold]
        rfl
      have hnext : ∀ i, console.firstCommandInfo authLevel.authed.accessLevel cfgflagServer = some i →
          ∃ command, console.cmds[i]? = some command ∧
            command.isInfo authLevel.authed.accessLevel cfgflagServer = true := fun i hi =>
        (findFrom_some hi).2.1
      split_ifs
      · exact ⟨fun ht => hgone ht, fun _ hno => absurd hno hne, fun _ hlist => absurd hlist.symm Bool.noConfusion,
          fun _ => hnext, fun _ _ => hlist⟩
      · exact ⟨fun ht => hgone ht, fun _ hno => absurd hno hne, fun _ hlist => absurd hlist.symm Bool.noConfusion,
          fun _ => hnext, fun _ _ => hlist⟩

lemma logout_synced (hempty : client.empty = false) : Synced console client.logout :=
  ⟨fun ht => absurd (hempty.symm.trans ht) Bool.noConfusion, fun _ _ => ⟨rfl, rfl, rfl⟩,
    fun hno => absurd rfl hno, fun hno => absurd rfl hno, fun hno => absurd rfl hno⟩

lemma join_synced : Synced console RconClient.join :=
  ⟨Bool.noConfusion, fun _ _ => ⟨rfl, rfl, rfl⟩, fun hno => absurd rfl hno, fun hno => absurd rfl hno,
    fun hno => absurd rfl hno⟩

lemma drop_synced : Synced console client.drop :=
  ⟨fun _ => rfl, Bool.noConfusion, fun hno => absurd rfl hno, fun hno => absurd rfl hno,
    fun hno => absurd rfl hno⟩

/-! ### A change of the level of a command -/

/-- The change gives the command to the clients with this access level, or takes it away. -/
def Crosses (level oldLevel newLevel : ℤ) : Prop :=
  oldLevel < level ∧ level ≤ newLevel ∨ newLevel < level ∧ level ≤ oldLevel

/-- The change of the command `i` from `oldLevel` to the level of `info` is reported rightly to the
client; `name` is the name of the command as it is written. -/
structure ReportOk (console : CommandList) (client : RconClient) (name : List UInt8) (i : ℕ)
    (info : CCommand) (oldLevel : ℤ) : Prop where
  /-- No level is the one of the clients that are not logged in. -/
  out : client.authed = .no → oldLevel ≠ accessLevelUser ∧ info.accessLevel ≠ accessLevelUser
  /-- The level of the client is not the lower one of the two levels. -/
  boundary : client.authed ≠ .no → listStarted client.sent = true →
    client.isBefore console name = true → min oldLevel info.accessLevel ≠ client.authed.accessLevel
  /-- If it matters, the name as it is written compares as the name of the command does. -/
  written : client.authed ≠ .no → listStarted client.sent = true →
    Crosses client.authed.accessLevel oldLevel info.accessLevel →
      client.isBefore console name = client.isBefore console info.name
  /-- The command is not taken from the client when it is the next one to be sent. -/
  next : client.authed ≠ .no → client.cmdToSend = some i → client.authed.accessLevel ≤ info.accessLevel

/-- What comes before the next command in the order of the names comes before it in the list. -/
lemma isBefore_iff (h : Synced console client) (hauthed : client.authed ≠ .no) {i : ℕ} {command : CCommand}
    (hi : console.cmds[i]? = some command) (hflag : command.hasFlag cfgflagServer = true) :
    client.isBefore console command.name = true ↔ i < client.cmdToSend.getD console.cmds.length := by
  have hilen := (List.getElem?_eq_some_iff.1 hi).1
  rw [RconClient.isBefore]
  cases hnext : client.cmdToSend with
  | none => exact iff_of_true rfl hilen
  | some k =>
    obtain ⟨next, hk, hinfo⟩ := h.next hauthed k hnext
    rw [CCommand.isInfo, Bool.and_eq_true] at hinfo
    obtain ⟨hklen, hk'⟩ := List.getElem?_eq_some_iff.1 hk
    obtain ⟨_, hi'⟩ := List.getElem?_eq_some_iff.1 hi
    have hpair := List.pairwise_iff_getElem.1 console.sorted
    rw [Option.bind_some, Option.getD_some, hk]
    simp only [beq_iff_eq]
    constructor
    · intro hlt
      by_contra hle
      rcases Nat.lt_or_eq_of_le (Nat.not_lt.1 hle) with hki | rfl
      · have hgt := hpair k i hklen hilen hki (hk' ▸ hinfo.1) (hi' ▸ hflag)
        rw [hk', hi'] at hgt
        rw [strComp_swap, hgt] at hlt
        exact Ordering.noConfusion hlt
      · obtain rfl : next = command := Option.some_injective _ (hk.symm.trans hi)
        rw [strComp_self] at hlt
        exact Ordering.noConfusion hlt
    · intro hlt
      have hlt' := hpair i k hilen hklen hlt (hi' ▸ hflag) (hk' ▸ hinfo.1)
      rwa [hk', hi'] at hlt'

/-- The message for a change: it is sent if the level of the client lies between the two levels. -/
lemma accessUpdate_eq (hempty : client.empty = false) (name : List UInt8) {info : CCommand} {oldLevel : ℤ} :
    client.accessUpdate console name info oldLevel =
      if client.isBefore console name = true ∧ min oldLevel info.accessLevel ≤ client.authed.accessLevel ∧
          client.authed.accessLevel ≤ max oldLevel info.accessLevel then
        if oldLevel < info.accessLevel then client.sendRconCmdAdd info else client.sendRconCmdRem info
      else client := by
  have hskip : (client.empty || info.accessLevel > client.authed.accessLevel &&
      client.authed.accessLevel < oldLevel || info.accessLevel < client.authed.accessLevel &&
      client.authed.accessLevel > oldLevel || !client.isBefore console name) = true ↔
      ¬(client.isBefore console name = true ∧ min oldLevel info.accessLevel ≤ client.authed.accessLevel ∧
        client.authed.accessLevel ≤ max oldLevel info.accessLevel) := by
    simp only [hempty, Bool.false_or, Bool.or_eq_true, Bool.and_eq_true, decide_eq_true_eq,
      Bool.not_eq_true']
    cases client.isBefore console name with
    | false => simp
    | true =>
      simp only [Bool.true_eq_false, or_false, true_and]
      omega
  rw [RconClient.accessUpdate]
  by_cases hsent : client.isBefore console name = true ∧
      min oldLevel info.accessLevel ≤ client.authed.accessLevel ∧
        client.authed.accessLevel ≤ max oldLevel info.accessLevel
  · rw [if_pos hsent]
    exact if_neg fun h => hskip.1 h hsent
  · rw [if_neg hsent]
    exact if_pos (hskip.2 hsent)

lemma isBefore_setAccessLevel (i : ℕ) (level : ℤ) (name : List UInt8) :
    client.isBefore (console.setAccessLevel i level) name = client.isBefore console name := by
  rw [RconClient.isBefore, RconClient.isBefore]
  cases client.cmdToSend with
  | none => rfl
  | some k =>
    rw [Option.bind_some, Option.bind_some]
    show (match (console.cmds.modify i _)[k]? with | some next => _ | none => _) = _
    rw [List.getElem?_modify]
    cases console.cmds[k]? with
    | none => rfl
    | some next =>
      show (strComp name (if i = k then _ else _ : CCommand).name == Ordering.lt) = _
      split_ifs <;> rfl

/-- A message about a command leaves everything but the messages as it is. -/
lemma Synced.of_sent {console' : CommandList} {client' : RconClient} (h : Synced console client)
    (hauthed : client.authed ≠ .no) (hempty : client'.empty = client.empty)
    (hauthed' : client'.authed = client.authed) (hnext : client'.cmdToSend = client.cmdToSend)
    (hstarted : listStarted client'.sent = listStarted client.sent)
    (hinfo : ∀ i, client.cmdToSend = some i → ∃ command, console'.cmds[i]? = some command ∧
      command.isInfo client.authed.accessLevel cfgflagServer = true)
    (hlist : listStarted client.sent = true → told client'.sent = accessible client.authed.accessLevel
      (console'.cmds.take (client.cmdToSend.getD console'.cmds.length))) :
    Synced console' client' := by
  refine ⟨fun ht => ?_, fun _ hno => ?_, fun _ hs => ?_, fun _ i hi => ?_, fun _ hs => ?_⟩
  · exact absurd (h.gone (hempty ▸ ht)) hauthed
  · exact absurd (hauthed' ▸ hno) hauthed
  · rw [hnext]
    exact h.unlisted hauthed (hstarted ▸ hs)
  · rw [hauthed']
    exact hinfo i (hnext ▸ hi)
  · rw [hauthed', hnext]
    exact hlist (hstarted ▸ hs)

/-- What the client has been told about after the message for a change. -/
lemma accessUpdate_told (h : Synced console client) (hempty : client.empty = false)
    (hauthed : client.authed ≠ .no) (hstarted : listStarted client.sent = true) {i : ℕ} {old : CCommand}
    (hi : console.cmds[i]? = some old) (hflag : old.hasFlag cfgflagServer = true) {name : List UInt8}
    {newLevel : ℤ} (hok : ReportOk console client name i (old.setAccessLevel newLevel) old.accessLevel) :
    told (client.accessUpdate (console.setAccessLevel i newLevel) name (old.setAccessLevel newLevel)
        old.accessLevel).sent =
      accessible client.authed.accessLevel ((console.setAccessLevel i newLevel).cmds.take
        (client.cmdToSend.getD console.cmds.length)) := by
  have hlist := h.list hauthed hstarted
  have hbefore := isBefore_iff h hauthed hi hflag
  have hboundary := hok.boundary hauthed hstarted
  have hwritten := hok.written hauthed hstarted
  rw [accessUpdate_eq hempty, isBefore_setAccessLevel]
  set info := old.setAccessLevel newLevel
  set level := client.authed.accessLevel
  set pos := client.cmdToSend.getD console.cmds.length
  by_cases hpos : i < pos
  · obtain ⟨rest, hold, hnew⟩ := accessible_modify hi hflag hpos level newLevel
    have hcmd : client.isBefore console info.name = true := hbefore.2 hpos
    show _ = accessible level ((console.cmds.modify i _).take pos)
    rw [hnew]
    rw [hold] at hlist
    by_cases hname : client.isBefore console name = true
    · have hmin := hboundary hname
      by_cases hsent : min old.accessLevel info.accessLevel ≤ level ∧ level ≤ max old.accessLevel info.accessLevel
      · rw [if_pos ⟨hname, hsent⟩]
        by_cases hlt : old.accessLevel < info.accessLevel
        · -- the command is new to the client
          rw [if_neg (by omega), zero_add] at hlist
          rw [if_pos hlt, if_pos (show level ≤ info.accessLevel by omega)]
          show old.name ::ₘ told client.sent = _
          rw [hlist]
          rfl
        · -- the command is taken from the client
          rw [if_pos (by omega)] at hlist
          rw [if_neg hlt, if_neg (show ¬level ≤ info.accessLevel by omega), zero_add]
          show (told client.sent).erase old.name = _
          rw [hlist]
          exact Multiset.erase_cons_head _ _
      · rw [if_neg fun hcond => hsent hcond.2, hlist]
        by_cases hle : level ≤ old.accessLevel
        · rw [if_pos hle, if_pos (show level ≤ info.accessLevel by omega)]
        · rw [if_neg hle, if_neg (show ¬level ≤ info.accessLevel by omega)]
    · have hcross : ¬Crosses level old.accessLevel info.accessLevel := fun hcross =>
        hname ((hwritten hcross).trans hcmd)
      rw [Crosses, not_or, not_and_or, not_and_or] at hcross
      rw [if_neg fun hcond => hname hcond.1, hlist]
      by_cases hle : level ≤ old.accessLevel
      · rw [if_pos hle, if_pos (show level ≤ info.accessLevel by omega)]
      · rw [if_neg hle, if_neg (show ¬level ≤ info.accessLevel by omega)]
  · -- the client will be sent the command later, if it may use it then
    have hkeep : (console.setAccessLevel i newLevel).cmds.take pos = console.cmds.take pos := by
      show (console.cmds.modify i _).take pos = _
      rw [List.take_modify]
      exact List.modify_eq_self (by rw [List.length_take]; omega)
    have hcmd : ¬client.isBefore console info.name = true := fun hcmd => hpos (hbefore.1 hcmd)
    have hunsent : ¬(client.isBefore console name = true ∧ min old.accessLevel info.accessLevel ≤ level ∧
        level ≤ max old.accessLevel info.accessLevel) := by
      rintro ⟨hname, hle, hge⟩
      have hmin := hboundary hname
      refine hcmd ((hwritten ?_).symm.trans hname)
      rw [Crosses]
      omega
    rw [if_neg hunsent, hkeep, hlist]

lemma accessUpdate_synced (h : Synced console client) {i : ℕ} {old : CCommand}
    (hi : console.cmds[i]? = some old) (hflag : old.hasFlag cfgflagServer = true) (name : List UInt8)
    (newLevel : ℤ)
    (hok : client.empty = false →
      ReportOk console client name i (old.setAccessLevel newLevel) old.accessLevel) :
    Synced (console.setAccessLevel i newLevel) (client.accessUpdate (console.setAccessLevel i newLevel) name
      (old.setAccessLevel newLevel) old.accessLevel) := by
  set info := old.setAccessLevel newLevel with hinfo
  set console' := console.setAccessLevel i newLevel with hconsole'
  have hlen : console'.cmds.length = console.cmds.length := by
    show (console.cmds.modify i _).length = _
    rw [List.length_modify]
  cases hempty : client.empty with
  | true =>
    have hno := h.gone hempty
    have hskip : client.accessUpdate console' name info old.accessLevel = client := by
      rw [RconClient.accessUpdate, hempty]
      rfl
    rw [hskip]
    exact ⟨h.gone, fun hf => absurd (hempty.symm.trans hf) Bool.noConfusion, fun hne => absurd hno hne,
      fun hne => absurd hno hne, fun hne => absurd hno hne⟩
  | false =>
    have hok := hok hempty
    by_cases hauthed : client.authed = .no
    · rw [accessUpdate_eq hempty]
      obtain ⟨hold, hnew⟩ := hok.out hauthed
      have hold' := (console.levels old (List.mem_of_getElem? hi)).2
      have hnew' : info.accessLevel ≤ accessLevelUser := (CommandList.setAccessLevel_bounds old newLevel).2
      have hlevel : client.authed.accessLevel = accessLevelUser := by
        rw [hauthed]
        rfl
      rw [if_neg (by rw [hlevel]; omega)]
      exact ⟨h.gone, h.out, fun hne => absurd hauthed hne, fun hne => absurd hauthed hne,
        fun hne => absurd hauthed hne⟩
    · have hnext : ∀ k, client.cmdToSend = some k → ∃ command, console'.cmds[k]? = some command ∧
          command.isInfo client.authed.accessLevel cfgflagServer = true := by
        intro k hk
        obtain ⟨command, hk', hcommand⟩ := h.next hauthed k hk
        have hget : console'.cmds[k]? = some (if i = k then command.setAccessLevel newLevel else command) := by
          show (console.cmds.modify i _)[k]? = _
          rw [List.getElem?_modify, hk']
          rfl
        refine ⟨_, hget, ?_⟩
        split_ifs with hik
        · subst hik
          obtain rfl : old = command := Option.some_injective _ (hi.symm.trans hk')
          have hle := hok.next hauthed hk
          rw [CCommand.isInfo, Bool.and_eq_true] at hcommand ⊢
          exact ⟨hcommand.1, decide_eq_true hle⟩
        · exact hcommand
      refine h.of_sent hauthed ?_ ?_ ?_ ?_ hnext fun hstarted => ?_
      · rw [RconClient.accessUpdate]
        split_ifs <;> rfl
      · rw [RconClient.accessUpdate]
        split_ifs <;> rfl
      · rw [RconClient.accessUpdate]
        split_ifs <;> rfl
      · rw [RconClient.accessUpdate]
        split_ifs <;> rfl
      · rw [hlen]
        exact accessUpdate_told h hempty hauthed hstarted hi hflag hok

/-! ### Runs -/

instance (level oldLevel newLevel : ℤ) : Decidable (Crosses level oldLevel newLevel) :=
  inferInstanceAs (Decidable (_ ∨ _))

instance (console : CommandList) (client : RconClient) (name : List UInt8) (i : ℕ) (info : CCommand)
    (oldLevel : ℤ) : Decidable (ReportOk console client name i info oldLevel) :=
  decidable_of_iff
    ((client.authed = .no → oldLevel ≠ accessLevelUser ∧ info.accessLevel ≠ accessLevelUser) ∧
      (client.authed ≠ .no → listStarted client.sent = true → client.isBefore console name = true →
        min oldLevel info.accessLevel ≠ client.authed.accessLevel) ∧
      (client.authed ≠ .no → listStarted client.sent = true →
        Crosses client.authed.accessLevel oldLevel info.accessLevel →
          client.isBefore console name = client.isBefore console info.name) ∧
      (client.authed ≠ .no → client.cmdToSend = some i → client.authed.accessLevel ≤ info.accessLevel))
    ⟨fun h => ⟨h.1, h.2.1, h.2.2.1, h.2.2.2⟩, fun h => ⟨h.out, h.boundary, h.written, h.next⟩⟩

/-- The change of the level of a command is reported rightly to all clients, and a client does not
log in at another level without being logged out. -/
def OpOk (server : RconServer) : RconOp → Prop
  | .access name level =>
      match server.console.findCommand name cfgflagServer with
      | none => True
      | some i =>
          match server.console.cmds[i]? with
          | none => True
          | some old =>
              old.accessLevel ≠ (old.setAccessLevel level).accessLevel →
                ∀ c, (server.clients c).empty = false →
                  ReportOk server.console (server.clients c) name i (old.setAccessLevel level) old.accessLevel
  | .login c authLevel _ =>
      (server.clients c).authed = .no ∨ (server.clients c).authed = authLevel.authed
  | _ => True

/-- Every operation is such, in the state in which it takes place. -/
def RunOk : List RconOp → RconServer → Prop
  | [], _ => True
  | op :: ops, server => OpOk server op ∧ RunOk ops (server.step op)

/-- A server without clients. -/
def RconServer.init (console : CommandList) : RconServer := ⟨console, fun _ => ⟨true, .no, none, []⟩⟩

lemma modify_synced {server : RconServer} (h : ∀ c, Synced server.console (server.clients c)) (c : ClientId)
    {f : RconClient → RconClient} (hf : Synced server.console (f (server.clients c))) :
    ∀ d, Synced (server.modify c f).console ((server.modify c f).clients d) := by
  intro d
  show Synced server.console (Function.update server.clients c (f (server.clients c)) d)
  by_cases hd : d = c
  · subst hd
    rw [Function.update_self]
    exact hf
  · rw [Function.update_of_ne hd]
    exact h d

lemma findCommand_hasFlag {console : CommandList} {name : List UInt8} {flagMask i : ℕ} {command : CCommand}
    (hfind : console.findCommand name flagMask = some i) (hi : console.cmds[i]? = some command) :
    command.hasFlag flagMask = true := by
  obtain ⟨-, ⟨found, hfound, hflag⟩, -⟩ := findFrom_some hfind
  obtain rfl : found = command := Option.some_injective _ (hfound.symm.trans hi)
  rw [Bool.and_eq_true] at hflag
  exact hflag.1

/-- Setting the level that a command has changes nothing. -/
lemma setAccessLevel_same {i : ℕ} {old : CCommand} {level : ℤ} (hi : console.cmds[i]? = some old)
    (hsame : old.accessLevel = (old.setAccessLevel level).accessLevel) :
    (console.setAccessLevel i level).cmds = console.cmds := by
  have hold : old.setAccessLevel level = old := by
    cases old with
    | mk name params help flags accessLevel =>
      rw [CCommand.setAccessLevel, CCommand.mk.injEq]
      exact ⟨rfl, rfl, rfl, rfl, hsame.symm⟩
  refine List.ext_getElem? fun k => ?_
  show (console.cmds.modify i _)[k]? = _
  rw [List.getElem?_modify]
  by_cases hik : i = k
  · subst hik
    rw [hi]
    simp [hold]
  · cases console.cmds[k]? <;> simp [hik]

lemma access_synced {server : RconServer} (h : ∀ c, Synced server.console (server.clients c))
    {name : List UInt8} {level : ℤ} (hok : OpOk server (.access name level)) (c : ClientId) :
    Synced (server.commandAccessUpdate name level).console
      ((server.commandAccessUpdate name level).clients c) := by
  rw [OpOk] at hok
  rw [RconServer.commandAccessUpdate]
  cases hfind : server.console.findCommand name cfgflagServer with
  | none => exact h c
  | some i =>
    rw [hfind] at hok
    dsimp only at hok ⊢
    cases hi : server.console.cmds[i]? with
    | none => exact h c
    | some old =>
      rw [hi] at hok
      dsimp only at hok ⊢
      by_cases hne : old.accessLevel ≠ (old.setAccessLevel level).accessLevel
      · rw [if_pos hne]
        exact accessUpdate_synced (h c) hi (findCommand_hasFlag hfind hi) name level (hok hne c)
      · rw [if_neg hne]
        have hcmds := setAccessLevel_same hi (not_not.1 hne)
        obtain ⟨hgone, hout, hunlisted, hnext, hlist⟩ := h c
        refine ⟨hgone, hout, hunlisted, ?_, ?_⟩
        · rw [hcmds]
          exact hnext
        · rw [hcmds]
          exact hlist

lemma step_synced {server : RconServer} (h : ∀ c, Synced server.console (server.clients c)) {op : RconOp}
    (hok : OpOk server op) : ∀ c, Synced (server.step op).console ((server.step op).clients c) := by
  cases op with
  | access name level => exact access_synced h hok
  | update tick =>
    refine modify_synced h _ ?_
    split_ifs with hcond
    · rw [Bool.and_eq_true, bne_iff_ne] at hcond
      exact sendLoop_synced _ (h _) hcond.2
    · exact h _
  | login c authLevel sendRconCmds =>
    refine modify_synced h c ?_
    cases hempty : (server.clients c).empty with
    | true => exact h c
    | false => exact login_synced (h c) hempty authLevel sendRconCmds hok
  | logout c =>
    refine modify_synced h c ?_
    cases hempty : (server.clients c).empty with
    | true => exact h c
    | false => exact logout_synced hempty
  | join c => exact modify_synced h c join_synced
  | drop c => exact modify_synced h c drop_synced

lemma run_synced (ops : List RconOp) {server : RconServer}
    (h : ∀ c, Synced server.console (server.clients c)) (hok : RunOk ops server) :
    ∀ c, Synced (RconServer.run ops server).console ((RconServer.run ops server).clients c) := by
  induction ops generalizing server with
  | nil => exact h
  | cons op ops ih => exact ih (step_synced h hok.1) hok.2

lemma init_synced (console : CommandList) (c : ClientId) :
    Synced (RconServer.init console).console ((RconServer.init console).clients c) :=
  ⟨fun _ => rfl, Bool.noConfusion, fun hno => absurd rfl hno, fun hno => absurd rfl hno,
    fun hno => absurd rfl hno⟩

/-- No two commands of the server have the same name. -/
lemma accessible_nodup (level : ℤ) (console : CommandList) : (accessible level console.cmds).Nodup := by
  rw [accessible, Multiset.coe_nodup, List.Nodup, List.pairwise_map, List.pairwise_filter]
  refine console.sorted.imp fun {a b} hab ha hb heq => ?_
  rw [CCommand.isInfo, Bool.and_eq_true] at ha hb
  have hlt := hab ha.1 hb.1
  rw [heq, strComp_self] at hlt
  exact Ordering.noConfusion hlt

/-- The client knows the commands that it may use, each of them once. -/
def InSync (console : CommandList) (client : RconClient) : Prop :=
  client.authed ≠ .no → listStarted client.sent = true → client.cmdToSend = none →
    (told client.sent).Nodup ∧ told client.sent = accessible client.authed.accessLevel console.cmds

/-- As long as all changes are reported rightly and nobody logs in again at another level, every client
whose list has been sent knows the commands that it may use. -/
theorem rconCommands_in_sync (console : CommandList) (ops : List RconOp)
    (hok : RunOk ops (RconServer.init console)) (c : ClientId) :
    InSync (RconServer.run ops (RconServer.init console)).console
      ((RconServer.run ops (RconServer.init console)).clients c) := by
  intro hauthed hstarted hnext
  have hlist := (run_synced ops (init_synced console) hok c).list hauthed hstarted
  rw [hnext, Option.getD_none, List.take_length] at hlist
  rw [hlist]
  exact ⟨accessible_nodup _ _, rfl⟩

/-- A server with the two commands `a` and `b`. -/
def twoCommands : CommandList where
  cmds := [⟨[97], [], [], cfgflagServer, 0⟩, ⟨[98], [], [], cfgflagServer, 0⟩]
  sorted := by
    rw [ServerSorted, List.pairwise_pair]
    exact fun _ _ => rfl
  levels := by decide

/-- A moderator is told about a command that it may use from now on. -/
theorem mod_is_told :
    RunOk [.join 0, .login 0 .mod true, .access [98] 1] (RconServer.init twoCommands) ∧ InSync
      (RconServer.run [.join 0, .login 0 .mod true, .access [98] 1] (RconServer.init twoCommands)).console
      ((RconServer.run [.join 0, .login 0 .mod true, .access [98] 1]
        (RconServer.init twoCommands)).clients 0) := by
  have hok : RunOk [.join 0, .login 0 .mod true, .access [98] 1] (RconServer.init twoCommands) := by
    refine ⟨trivial, .inl rfl, fun _ => ?_, trivial⟩
    decide
  exact ⟨hok, rconCommands_in_sync _ _ hok 0⟩

/-- The change from 1 to 2 tells a moderator a second time about a command. -/
theorem mod_is_told_twice : ¬∀ (console : CommandList) (ops : List RconOp) (c : ClientId),
    InSync (RconServer.run ops (RconServer.init console)).console
      ((RconServer.run ops (RconServer.init console)).clients c) := by
  intro h
  have hsync := h twoCommands [.join 0, .login 0 .mod true, .access [98] 1, .access [98] 2] 0
  have hnodup := (hsync (by decide) (by decide) (by decide)).1
  revert hnodup
  decide

end CServer

end DDNet
