/-
The names of the clients (`CServer::SetClientNameImpl`, `engine/server/server.cpp`).

A client gets a name with its start info and may change it later.  A name that is empty, starts with `/` or looks like the
name of another client gets a number in front, `(1)`, `(2)` and so on.  There are fewer other clients than numbers with two
digits, which are never cut off, so that one of the first numbers is free (`setClientNameImpl_isSome`).  The names of the
clients that have sent their start info stay acceptable and distinct (`run_named`); until then a client has no name, or
after a change of the map its old one.
-/
import DDNet.Base.Confusables
import DDNet.Server.Authed

namespace DDNet

open Utf8 Lib.Json

/-- `MAX_NAME_LENGTH`. -/
def maxNameLength : ℕ := 16

/-- The states of `CServer::CClient`. -/
inductive ClientState
  | empty
  | preauth
  | auth
  | connecting
  | ready
  | ingame
  | redirected
deriving DecidableEq

/-- The states from `STATE_READY` on. -/
def ClientState.atLeastReady : ClientState → Bool
  | ready | ingame | redirected => true
  | _ => false

/-- `CServer::CClient`. -/
structure CClient where
  state : ClientState
  name : List UInt8
deriving DecidableEq

/-- The clients of the server and the players of the game. -/
structure NameServer where
  clients : ClientId → CClient
  /-- `m_apPlayers`, with `m_IsReady` of each player. -/
  players : ClientId → Option Bool

/-- `str_utf8_trim_right`: where the string is cut, if the blanks at its end start in front of it. -/
def strUtf8TrimRight (str : List UInt8) : List UInt8 :=
  match str with
  | [] => []
  | b :: str' =>
    let r := strUtf8Decode (b :: str')
    let rest := strUtf8TrimRight r.2
    -- the end is at this code point if it is a blank and only blanks follow
    if strUtf8Isspace r.1 && rest.isEmpty then [] else (b :: str').take ((b :: str').length - r.2.length) ++ rest
termination_by str.length
decreasing_by exact strUtf8Decode_length b str'

/-- `str_format` with `"(%d)%s"` into a buffer of `MAX_NAME_LENGTH` bytes. -/
def numberedName (i : ℕ) (name : List UInt8) : List UInt8 :=
  strCopy maxNameLength (40 :: (decimal i ++ 41 :: name))

namespace NameServer

variable (table : Confusables)

/-- The server before the first client. -/
def init : NameServer := ⟨fun _ => ⟨.empty, []⟩, fun _ => none⟩

/-- `IsClientNameAvailable`. -/
def isClientNameAvailable (server : NameServer) (clientId : ClientId) (nameRequest : List UInt8) : Bool :=
  -- check for empty names
  if nameRequest = [] then false
  -- check for names starting with /, as they can be abused to make people write chat commands
  else if nameRequest.head? = some 47 then false
  -- make sure that two clients don't have the same name
  else (List.finRange maxClients).all fun i =>
    !(i ≠ clientId && (server.clients i).state.atLeastReady &&
      table.strUtf8CompConfusable nameRequest (server.clients i).name = 0)

/-- The loop that numbers the name, from `i` on, with at most `fuel` rounds. -/
def autoRename (server : NameServer) (clientId : ClientId) (name : List UInt8) : ℕ → ℕ → Option (List UInt8)
  | 0, _ => none
  | fuel + 1, i =>
    if server.isClientNameAvailable table clientId (numberedName i name) then some (numberedName i name)
    else autoRename server clientId name fuel (i + 1)

/-- `Drop`, which calls `DelClientCallback`. -/
def delClient (server : NameServer) (clientId : ClientId) : NameServer where
  clients := Function.update server.clients clientId ⟨.empty, []⟩
  players := if (server.clients clientId).state.atLeastReady then Function.update server.players clientId none
    else server.players

/-- The name of a client changes. -/
def setName (server : NameServer) (clientId : ClientId) (name : List UInt8) : NameServer :=
  { server with clients := Function.update server.clients clientId { server.clients clientId with name := name } }

/-- `SetClientNameImpl`, with what `IsBanned` says about the name; `none` if the loop does not end in time. -/
def setClientNameImpl (fuel : ℕ) (server : NameServer) (clientId : ClientId) (nameRequest : List UInt8)
    (banned set : Bool) : Option (NameServer × Bool) :=
  if !(server.clients clientId).state.atLeastReady then some (server, false)
  else if banned then
    some (if (server.clients clientId).state = .ready && set then server.delClient clientId else server, false)
  else
    -- trim the name
    let trimmedName := strUtf8TrimRight (strCopy maxNameLength (strUtf8SkipWhitespaces nameRequest))
    let nameTry := if server.isClientNameAvailable table clientId trimmedName then some trimmedName
      else server.autoRename table clientId trimmedName fuel 1
    nameTry.map fun nameTry =>
      let changed := (server.clients clientId).name ≠ nameTry
      (if set && changed then server.setName clientId nameTry else server, changed)

/-- `SetClientClanImpl`, as far as the client is kicked for it. -/
def setClientClan (server : NameServer) (clientId : ClientId) (banned : Bool) : NameServer :=
  if banned && (server.clients clientId).state = .ready then server.delClient clientId else server

/-- The state of a client changes. -/
def setState (server : NameServer) (clientId : ClientId) (state : ClientState) : NameServer :=
  { server with clients := Function.update server.clients clientId { server.clients clientId with state := state } }

/-- `OnStartInfoNetMessage`. -/
def onStartInfo (fuel : ℕ) (server : NameServer) (clientId : ClientId) (name : List UInt8)
    (nameBanned clanBanned : Bool) : Option NameServer :=
  -- only a client that is ready has a player, and the message is handled once
  if (server.clients clientId).state.atLeastReady && server.players clientId = some false then
    (server.setClientNameImpl table fuel clientId name nameBanned true).map fun (server, _) =>
      -- trying to set client name can delete the player object, check if it still exists
      if server.players clientId = none then server
      else
        let server := server.setClientClan clientId clanBanned
        -- trying to set client clan can delete the player object, check if it still exists
        if server.players clientId = none then server
        else { server with players := Function.update server.players clientId (some true) }
  else some server

/-- `OnChangeInfoNetMessage`, where `spam` is what `ProcessSpamProtection` says. -/
def onChangeInfo (fuel : ℕ) (server : NameServer) (clientId : ClientId) (name : List UInt8)
    (nameBanned spam clanBanned : Bool) : Option NameServer :=
  if (server.clients clientId).state = .ingame then
    (server.setClientNameImpl table fuel clientId name nameBanned false).bind fun (_, would) =>
      if would && !spam then
        (server.setClientNameImpl table fuel clientId name nameBanned true).map fun (server, _) =>
          server.setClientClan clientId clanBanned
      else some (server.setClientClan clientId clanBanned)
  else some server

/-- The map changes. -/
def changeMap (server : NameServer) : NameServer where
  clients i := match (server.clients i).state with
    | .empty | .preauth | .auth => server.clients i
    | _ => { server.clients i with state := .connecting }
  players _ := none

/-- What happens to the server. -/
inductive Op
  /-- `NewClientCallback`. -/
  | newClient (clientId : ClientId)
  /-- `NewClientNoAuthCallback`. -/
  | newClientNoAuth (clientId : ClientId)
  /-- `DelClientCallback`, also of the old slot of a client that comes back. -/
  | delClient (clientId : ClientId)
  /-- `NETMSG_CLIENTVER`. -/
  | clientver (clientId : ClientId)
  /-- `NETMSG_INFO`, with the right version and password. -/
  | info (clientId : ClientId)
  /-- `NETMSG_READY`. -/
  | ready (clientId : ClientId)
  | startInfo (clientId : ClientId) (name : List UInt8) (nameBanned clanBanned : Bool)
  /-- `NETMSG_ENTERGAME`. -/
  | entergame (clientId : ClientId)
  | changeInfo (clientId : ClientId) (name : List UInt8) (nameBanned spam clanBanned : Bool)
  /-- `RedirectClient`. -/
  | redirect (clientId : ClientId)
  | changeMap

/-- One operation. -/
def step (fuel : ℕ) (server : NameServer) : Op → Option NameServer
  | .newClient clientId =>
    some { server with clients := Function.update server.clients clientId ⟨.preauth, []⟩ }
  | .newClientNoAuth clientId =>
    some { server with clients := Function.update server.clients clientId ⟨.connecting, []⟩ }
  | .delClient clientId => some (server.delClient clientId)
  | .clientver clientId =>
    some (if (server.clients clientId).state = .preauth then server.setState clientId .auth else server)
  | .info clientId =>
    some (if (server.clients clientId).state = .preauth ∨ (server.clients clientId).state = .auth then
      server.setState clientId .connecting else server)
  | .ready clientId =>
    some (if (server.clients clientId).state = .connecting then
      -- `OnClientConnected` makes a new player
      { server.setState clientId .ready with players := Function.update server.players clientId (some false) }
    else server)
  | .startInfo clientId name nameBanned clanBanned => server.onStartInfo table fuel clientId name nameBanned clanBanned
  | .entergame clientId =>
    some (if (server.clients clientId).state = .ready ∧ server.players clientId = some true then
      server.setState clientId .ingame else server)
  | .changeInfo clientId name nameBanned spam clanBanned =>
    server.onChangeInfo table fuel clientId name nameBanned spam clanBanned
  | .redirect clientId => some (server.setState clientId .redirected)
  | .changeMap => some server.changeMap

/-- A run; `none` if a name is not found in time. -/
def run (fuel : ℕ) : NameServer → List Op → Option NameServer
  | server, [] => some server
  | server, op :: ops => (server.step table fuel op).bind fun server => run fuel server ops

/-! ### Names that are acceptable -/

/-- The client has a name: it is in the game, or ready and its start info has been handled. -/
def HasName (server : NameServer) (i : ClientId) : Prop :=
  (server.clients i).state = .ingame ∨ (server.clients i).state = .ready ∧ server.players i = some true

/-- The names of the clients that satisfy `p` are not empty, do not start with `/` and do not look alike. -/
structure NamesOk (server : NameServer) (p : ClientId → Prop) : Prop where
  nonempty : ∀ i, p i → (server.clients i).name ≠ []
  noSlash : ∀ i, p i → (server.clients i).name.head? ≠ some 47
  distinct : ∀ i j, i ≠ j → p i → p j →
    table.strUtf8CompConfusable (server.clients i).name (server.clients j).name ≠ 0

variable {table}

lemma isClientNameAvailable_iff {server : NameServer} {clientId : ClientId} {name : List UInt8} :
    server.isClientNameAvailable table clientId name = true ↔
      name ≠ [] ∧ name.head? ≠ some 47 ∧ ∀ i, i ≠ clientId → (server.clients i).state.atLeastReady = true →
        table.skeleton name ≠ table.skeleton (server.clients i).name := by
  rw [isClientNameAvailable]
  split_ifs with hempty hslash
  · simp [hempty]
  · simp [hslash]
  · rw [List.all_eq_true]
    refine ⟨fun h => ⟨hempty, hslash, fun i hi hready => ?_⟩, fun h i _ => ?_⟩
    · have hall := h i (List.mem_finRange i)
      simpa [hi, hready, Confusables.strUtf8CompConfusable_eq_zero] using hall
    · by_cases hi : i = clientId
      · simp [hi]
      · cases hready : (server.clients i).state.atLeastReady with
        | false => simp
        | true => simpa [hi, Confusables.strUtf8CompConfusable_eq_zero] using h.2.2 i hi hready

/-! ### Numbered names -/

/-- A number with at most twelve digits is not cut off. -/
lemma numberedName_eq {i : ℕ} (hi : (decimal i).length ≤ 12) (name : List UInt8) :
    ∃ name', numberedName i name = 40 :: (decimal i ++ 41 :: name') := by
  obtain ⟨name', -, hcopy⟩ := @strCopy_ascii (40 :: decimal i) (name.take (13 - (decimal i).length)) 41 maxNameLength
    (by decide) (by
      rw [List.length_append, List.length_cons, List.length_cons, List.length_take, maxNameLength]
      omega)
  refine ⟨name', ?_⟩
  simp only [List.cons_append] at hcopy
  have htake : ∀ rest : List UInt8, (40 :: (decimal i ++ 41 :: rest)).take (maxNameLength - 1) =
      40 :: (decimal i ++ 41 :: rest.take (13 - (decimal i).length)) := by
    intro rest
    rw [maxNameLength, List.take_succ_cons, List.take_append, List.take_of_length_le (by omega),
      show 14 - (decimal i).length = 13 - (decimal i).length + 1 by omega, List.take_succ_cons]
  rw [numberedName, ← hcopy, strCopy, strCopy, htake, htake, List.take_take, Nat.min_self]

lemma length_decimal_le {i : ℕ} (hi : i ≤ maxClients) : (decimal i).length ≤ 12 := by
  rw [maxClients] at hi
  by_cases hlt : i < 10
  · rw [decimal_of_lt hlt, List.length_singleton]
    omega
  · rw [decimal_of_le (not_lt.1 hlt), decimal_of_lt (by omega)]
    simp

/-- Numbered names do not look alike. -/
lemma numberedName_unique {i j : ℕ} (hi : 0 < i ∧ i ≤ maxClients) (hj : 0 < j ∧ j ≤ maxClients)
    {name name' : List UInt8} (h : table.skeleton (numberedName i name) = table.skeleton (numberedName j name')) : i = j := by
  obtain ⟨rest, hrest⟩ := numberedName_eq (length_decimal_le hi.2) name
  obtain ⟨rest', hrest'⟩ := numberedName_eq (length_decimal_le hj.2) name'
  rw [hrest, hrest'] at h
  exact table.number_unique hi.1 hj.1 h

/-- Every other client takes at most one of the numbers up to `MAX_CLIENTS`, so that one of them is free. -/
lemma exists_numberedName (server : NameServer) (clientId : ClientId) (name : List UInt8) :
    ∃ i, 1 ≤ i ∧ i < 1 + maxClients ∧ server.isClientNameAvailable table clientId (numberedName i name) = true := by
  by_contra hnone
  have htaken : ∀ k : ClientId, ∃ i, i ≠ clientId ∧
      table.skeleton (numberedName (k.val + 1) name) = table.skeleton (server.clients i).name := by
    intro k
    by_contra hfree
    obtain ⟨rest, hrest⟩ := numberedName_eq (length_decimal_le (i := k.val + 1) k.isLt) name
    refine hnone ⟨k.val + 1, by omega, by omega, isClientNameAvailable_iff.2 ⟨?_, ?_, ?_⟩⟩
    · rw [hrest]
      exact List.cons_ne_nil _ _
    · rw [hrest]
      exact fun h => absurd (Option.some.inj h) (by decide)
    · exact fun i hi _ heq => hfree ⟨i, hi, heq⟩
  choose taker htaker using htaken
  have hinjective : Function.Injective taker := by
    intro k l hkl
    have hsame := (htaker k).2.trans ((congrArg (fun i => table.skeleton (server.clients i).name) hkl).trans
      (htaker l).2.symm)
    have hnumber := numberedName_unique ⟨Nat.succ_pos _, k.isLt⟩ ⟨Nat.succ_pos _, l.isLt⟩ hsame
    exact Fin.ext (Nat.succ.inj hnumber)
  obtain ⟨k, hk⟩ := (Finite.injective_iff_surjective.1 hinjective) clientId
  exact (htaker k).1 hk

lemma autoRename_some {server : NameServer} {clientId : ClientId} {name : List UInt8} {fuel i : ℕ}
    (h : ∃ k, i ≤ k ∧ k < i + fuel ∧ server.isClientNameAvailable table clientId (numberedName k name) = true) :
    ∃ nameTry, server.autoRename table clientId name fuel i = some nameTry ∧
      server.isClientNameAvailable table clientId nameTry = true := by
  induction fuel generalizing i with
  | zero =>
    obtain ⟨k, hle, hlt, -⟩ := h
    omega
  | succ fuel ih =>
    rw [autoRename]
    by_cases havailable : server.isClientNameAvailable table clientId (numberedName i name) = true
    · rw [if_pos havailable]
      exact ⟨_, rfl, havailable⟩
    · rw [if_neg havailable]
      obtain ⟨k, hle, hlt, hk⟩ := h
      refine ih ⟨k, ?_, by omega, hk⟩
      have hne : k ≠ i := by
        rintro rfl
        exact havailable hk
      omega

/-- What `SetClientNameImpl` does: nothing, it kicks the client, or it sets a name that is available. -/
lemma setClientNameImpl_spec {fuel : ℕ} (hfuel : maxClients ≤ fuel) (server : NameServer) (clientId : ClientId)
    (nameRequest : List UInt8) (banned set : Bool) :
    ∃ server' changed, server.setClientNameImpl table fuel clientId nameRequest banned set = some (server', changed) ∧
      (server' = server ∧ (set = false ∨ banned = true ∧ (server.clients clientId).state ≠ .ready ∨
          (server.clients clientId).state.atLeastReady = false) ∨
        server' = server.delClient clientId ∧ (server.clients clientId).state = .ready ∨
        ∃ name, server' = server.setName clientId name ∧
          server.isClientNameAvailable table clientId name = true) := by
  rw [setClientNameImpl]
  by_cases hready : (server.clients clientId).state.atLeastReady = true
  swap
  · rw [Bool.not_eq_true] at hready
    rw [hready]
    exact ⟨server, false, rfl, .inl ⟨rfl, .inr (.inr rfl)⟩⟩
  rw [hready, Bool.not_true, if_neg Bool.false_ne_true]
  cases banned with
  | true =>
    rw [if_pos rfl]
    by_cases hkick : (decide ((server.clients clientId).state = .ready) && set) = true
    · rw [if_pos hkick]
      rw [Bool.and_eq_true, decide_eq_true_iff] at hkick
      exact ⟨_, false, rfl, .inr (.inl ⟨rfl, hkick.1⟩)⟩
    · rw [if_neg hkick]
      rw [Bool.and_eq_true, decide_eq_true_iff, not_and_or, Bool.not_eq_true] at hkick
      exact ⟨server, false, rfl, .inl ⟨rfl, hkick.elim (fun h => .inr (.inl ⟨rfl, h⟩)) .inl⟩⟩
  | false =>
    rw [if_neg Bool.false_ne_true]
    dsimp only
    generalize strUtf8TrimRight (strCopy maxNameLength (strUtf8SkipWhitespaces nameRequest)) = trimmedName
    -- the name that is tried last is available
    have hname : ∃ name, (if server.isClientNameAvailable table clientId trimmedName = true then some trimmedName
        else server.autoRename table clientId trimmedName fuel 1) = some name ∧
          server.isClientNameAvailable table clientId name = true := by
      split_ifs with havailable
      · exact ⟨_, rfl, havailable⟩
      · obtain ⟨i, hpos, hlt, hi⟩ := exists_numberedName server clientId trimmedName
        exact autoRename_some ⟨i, hpos, by omega, hi⟩
    obtain ⟨name, hsome, havailable⟩ := hname
    rw [hsome, Option.map_some]
    refine ⟨_, _, rfl, ?_⟩
    cases set with
    | false => exact .inl ⟨rfl, .inl rfl⟩
    | true =>
      refine .inr (.inr ⟨name, ?_, havailable⟩)
      by_cases hsame : (server.clients clientId).name = name
      · -- the name is the old one
        rw [setName, ← hsame]
        simp
      · simp [hsame]

/-! ### Runs -/

/-- The clients in the game have sent their start info, and the names are in order. -/
structure Inv (table : Confusables) (server : NameServer) : Prop where
  ingame : ∀ i, (server.clients i).state = .ingame → server.players i = some true
  names : server.NamesOk table server.HasName

/-- No other client gets a name, and none changes. -/
lemma Inv.of_le {server server' : NameServer} (h : server.Inv table)
    (hingame : ∀ i, (server'.clients i).state = .ingame → server'.players i = some true)
    (hle : ∀ i, server'.HasName i → server.HasName i ∧ (server'.clients i).name = (server.clients i).name) :
    server'.Inv table := by
  refine ⟨hingame, ⟨fun i hi => ?_, fun i hi => ?_, fun i j hij hi hj => ?_⟩⟩
  · obtain ⟨hi, hname⟩ := hle i hi
    rw [hname]
    exact h.names.nonempty i hi
  · obtain ⟨hi, hname⟩ := hle i hi
    rw [hname]
    exact h.names.noSlash i hi
  · obtain ⟨hi, hnamei⟩ := hle i hi
    obtain ⟨hj, hnamej⟩ := hle j hj
    rw [hnamei, hnamej]
    exact h.names.distinct i j hij hi hj

lemma HasName.atLeastReady {server : NameServer} {i : ClientId} (h : server.HasName i) :
    (server.clients i).state.atLeastReady = true := by
  obtain h | ⟨h, -⟩ := h <;> rw [h] <;> rfl

/-- Only one client changes, and if it has a name then one that was available. -/
lemma Inv.of_available {server server' : NameServer} (h : server.Inv table) (clientId : ClientId)
    (hother : ∀ i, i ≠ clientId → server'.clients i = server.clients i ∧ server'.players i = server.players i)
    (hingame : (server'.clients clientId).state = .ingame → server'.players clientId = some true)
    (havailable : server'.HasName clientId →
      server.isClientNameAvailable table clientId (server'.clients clientId).name = true) : server'.Inv table := by
  have hhas : ∀ i, i ≠ clientId → server'.HasName i → server.HasName i := by
    intro i hi hname
    rw [HasName, (hother i hi).1, (hother i hi).2] at hname
    exact hname
  have hdistinct : ∀ i, i ≠ clientId → server'.HasName i → server'.HasName clientId →
      table.skeleton (server'.clients clientId).name ≠ table.skeleton (server'.clients i).name := by
    intro i hi hname hclient
    rw [(hother i hi).1]
    exact (isClientNameAvailable_iff.1 (havailable hclient)).2.2 i hi (hhas i hi hname).atLeastReady
  refine ⟨fun i hi => ?_, ⟨fun i hi => ?_, fun i hi => ?_, fun i j hij hi hj => ?_⟩⟩
  · by_cases hic : i = clientId
    · subst hic
      exact hingame hi
    · rw [(hother i hic).1] at hi
      rw [(hother i hic).2]
      exact h.ingame i hi
  · by_cases hic : i = clientId
    · subst hic
      exact (isClientNameAvailable_iff.1 (havailable hi)).1
    · rw [(hother i hic).1]
      exact h.names.nonempty i (hhas i hic hi)
  · by_cases hic : i = clientId
    · subst hic
      exact (isClientNameAvailable_iff.1 (havailable hi)).2.1
    · rw [(hother i hic).1]
      exact h.names.noSlash i (hhas i hic hi)
  · rw [ne_eq, Confusables.strUtf8CompConfusable_eq_zero]
    by_cases hic : i = clientId
    · subst hic
      exact hdistinct j (Ne.symm hij) hj hi
    by_cases hjc : j = clientId
    · subst hjc
      exact (hdistinct i hic hi hj).symm
    · rw [(hother i hic).1, (hother j hjc).1]
      intro heq
      exact h.names.distinct i j hij (hhas i hic hi) (hhas j hjc hj)
        ((Confusables.strUtf8CompConfusable_eq_zero table).2 heq)

lemma init_inv : init.Inv table := by
  refine ⟨fun i hi => absurd hi (by simp [init]), ⟨fun i hi => ?_, fun i hi => ?_, fun i j _ hi => ?_⟩⟩ <;>
    exact absurd hi.atLeastReady (by simp [init, ClientState.atLeastReady])

lemma delClient_of_ne (server : NameServer) {clientId i : ClientId} (hi : i ≠ clientId) :
    (server.delClient clientId).clients i = server.clients i ∧
      (server.delClient clientId).players i = server.players i := by
  rw [delClient]
  dsimp only
  split_ifs
  · exact ⟨Function.update_of_ne hi _ _, Function.update_of_ne hi _ _⟩
  · exact ⟨Function.update_of_ne hi _ _, rfl⟩

/-- The player of a client that is dropped is deleted. -/
lemma delClient_player {server : NameServer} {clientId : ClientId}
    (h : (server.clients clientId).state.atLeastReady = true) : (server.delClient clientId).players clientId = none := by
  rw [delClient]
  dsimp only
  rw [h, if_pos rfl, Function.update_self]

lemma setState_of_ne (server : NameServer) {clientId i : ClientId} (hi : i ≠ clientId) (state : ClientState) :
    (server.setState clientId state).clients i = server.clients i ∧
      (server.setState clientId state).players i = server.players i :=
  ⟨Function.update_of_ne hi _ _, rfl⟩

/-- A client without a name. -/
lemma Inv.of_unnamed {server server' : NameServer} (h : server.Inv table) (clientId : ClientId)
    (hother : ∀ i, i ≠ clientId → server'.clients i = server.clients i ∧ server'.players i = server.players i)
    (hingame : (server'.clients clientId).state ≠ .ingame)
    (hready : (server'.clients clientId).state = .ready → server'.players clientId ≠ some true) : server'.Inv table := by
  refine h.of_available clientId hother (fun h => absurd h hingame) ?_
  rintro (hstate | ⟨hstate, hplayer⟩)
  · exact absurd hstate hingame
  · exact absurd hplayer (hready hstate)

lemma Inv.delClient {server : NameServer} (h : server.Inv table) (clientId : ClientId) :
    (server.delClient clientId).Inv table := by
  have hclient : (server.delClient clientId).clients clientId = ⟨.empty, []⟩ := Function.update_self _ _ _
  refine h.of_unnamed clientId (fun i hi => server.delClient_of_ne hi) ?_ ?_ <;> rw [hclient]
  · exact ClientState.noConfusion
  · exact fun h => ClientState.noConfusion h

lemma Inv.setState {server : NameServer} (h : server.Inv table) (clientId : ClientId) {state : ClientState}
    (hstate : state ≠ .ingame ∧ state ≠ .ready) : (server.setState clientId state).Inv table := by
  have hclient : ((server.setState clientId state).clients clientId).state = state := by
    rw [NameServer.setState]
    dsimp only
    rw [Function.update_self]
  refine h.of_unnamed clientId (fun i hi => server.setState_of_ne hi state) ?_ ?_ <;> rw [hclient]
  · exact hstate.1
  · exact fun h => absurd h hstate.2

/-- A client that is asked for its name again after it got one. -/
lemma Inv.setClientClan {server : NameServer} (h : server.Inv table) (clientId : ClientId) (banned : Bool) :
    (server.setClientClan clientId banned).Inv table := by
  rw [NameServer.setClientClan]
  split_ifs
  · exact h.delClient clientId
  · exact h

lemma Inv.setName {server : NameServer} (h : server.Inv table) (clientId : ClientId) {name : List UInt8}
    (havailable : server.isClientNameAvailable table clientId name = true) : (server.setName clientId name).Inv table := by
  have hclient : (server.setName clientId name).clients clientId =
      { server.clients clientId with name := name } := Function.update_self _ _ _
  refine h.of_available clientId (fun i hi => ⟨Function.update_of_ne hi _ _, rfl⟩) (fun hingame => ?_) fun _ => ?_
  · rw [hclient] at hingame
    exact h.ingame clientId hingame
  · rw [hclient]
    exact havailable

lemma Inv.onChangeInfo {server : NameServer} (h : server.Inv table) {fuel : ℕ} (hfuel : maxClients ≤ fuel)
    (clientId : ClientId) (name : List UInt8) (nameBanned spam clanBanned : Bool) :
    ∃ server', server.onChangeInfo table fuel clientId name nameBanned spam clanBanned = some server' ∧
      server'.Inv table := by
  rw [NameServer.onChangeInfo]
  split_ifs with hingame
  swap
  · exact ⟨server, rfl, h⟩
  obtain ⟨tried, would, htried, -⟩ := setClientNameImpl_spec hfuel server clientId name nameBanned false
  rw [htried, Option.bind_some]
  dsimp only
  split_ifs
  · obtain ⟨server', changed, hset, hcase⟩ := setClientNameImpl_spec hfuel server clientId name nameBanned true
    rw [hset, Option.map_some]
    refine ⟨_, rfl, Inv.setClientClan ?_ clientId clanBanned⟩
    obtain ⟨rfl, -⟩ | ⟨rfl, -⟩ | ⟨nameTry, rfl, havailable⟩ := hcase
    · exact h
    · exact h.delClient clientId
    · exact h.setName clientId havailable
  · exact ⟨_, rfl, h.setClientClan clientId clanBanned⟩

lemma available_setName {server : NameServer} {clientId : ClientId} {name : List UInt8}
    (h : server.isClientNameAvailable table clientId name = true) :
    (server.setName clientId name).isClientNameAvailable table clientId name = true := by
  obtain ⟨hne, hslash, hdistinct⟩ := isClientNameAvailable_iff.1 h
  refine isClientNameAvailable_iff.2 ⟨hne, hslash, fun i hi => ?_⟩
  have hclient : (server.setName clientId name).clients i = server.clients i := Function.update_of_ne hi _ _
  rw [hclient]
  exact hdistinct i hi

/-- The player becomes ready if the clan is not banned, or the client has no player any more. -/
lemma Inv.becomeReady {server : NameServer} (h : server.Inv table) {clientId : ClientId}
    (hingame : (server.clients clientId).state ≠ .ingame)
    (havailable : (server.clients clientId).state = .ready →
      server.isClientNameAvailable table clientId (server.clients clientId).name = true) (clanBanned : Bool) :
    (if server.players clientId = none then server
      else if (server.setClientClan clientId clanBanned).players clientId = none then
        server.setClientClan clientId clanBanned
      else { server.setClientClan clientId clanBanned with
        players := Function.update (server.setClientClan clientId clanBanned).players clientId (some true) }).Inv
      table := by
  by_cases hnone : server.players clientId = none
  · rw [if_pos hnone]
    exact h
  rw [if_neg hnone]
  by_cases hkicked : (clanBanned && decide ((server.clients clientId).state = .ready)) = true
  · rw [NameServer.setClientClan, if_pos hkicked]
    have hstate : (server.clients clientId).state = .ready := by simpa using (Bool.and_eq_true_iff.1 hkicked).2
    rw [if_pos (delClient_player (by rw [hstate]; rfl))]
    exact h.delClient clientId
  · rw [NameServer.setClientClan, if_neg hkicked, if_neg hnone]
    refine h.of_available clientId (fun i hi => ⟨rfl, Function.update_of_ne hi _ _⟩) (fun h => absurd h hingame) ?_
    rintro (hstate | ⟨hstate, -⟩)
    · exact absurd hstate hingame
    · exact havailable hstate

/-- After the start info of a client, the client has a name. -/
lemma Inv.onStartInfo {server : NameServer} (h : server.Inv table) {fuel : ℕ} (hfuel : maxClients ≤ fuel)
    (clientId : ClientId) (name : List UInt8) (nameBanned clanBanned : Bool) :
    ∃ server', server.onStartInfo table fuel clientId name nameBanned clanBanned = some server' ∧
      server'.Inv table := by
  rw [NameServer.onStartInfo]
  split_ifs with hfirst
  swap
  · exact ⟨server, rfl, h⟩
  rw [Bool.and_eq_true, decide_eq_true_iff] at hfirst
  obtain ⟨hready, hplayer⟩ := hfirst
  have hingame : (server.clients clientId).state ≠ .ingame := by
    intro hingame
    exact absurd (hplayer.symm.trans (h.ingame clientId hingame)) (by decide)
  obtain ⟨server', changed, hset, hcase⟩ := setClientNameImpl_spec hfuel server clientId name nameBanned true
  rw [hset, Option.map_some]
  refine ⟨_, rfl, ?_⟩
  obtain ⟨rfl, hnone⟩ | ⟨rfl, -⟩ | ⟨nameTry, rfl, havailable⟩ := hcase
  · refine h.becomeReady hingame (fun hstate => ?_) clanBanned
    obtain hset | ⟨-, hne⟩ | hnotReady := hnone
    · exact absurd hset (by decide)
    · exact absurd hstate hne
    · exact absurd (hready.symm.trans hnotReady) (by decide)
  · dsimp only
    rw [if_pos (delClient_player hready)]
    exact h.delClient clientId
  · have hclient : (server.setName clientId nameTry).clients clientId =
        { server.clients clientId with name := nameTry } := Function.update_self _ _ _
    refine (h.setName clientId havailable).becomeReady ?_ (fun _ => ?_) clanBanned <;> rw [hclient]
    · exact hingame
    · exact available_setName havailable

lemma step_inv {server : NameServer} (h : server.Inv table) {fuel : ℕ} (hfuel : maxClients ≤ fuel) (op : Op) :
    ∃ server', server.step table fuel op = some server' ∧ server'.Inv table := by
  have hnew : ∀ clientId state, state ≠ .ingame ∧ state ≠ .ready → ({ server with
      clients := Function.update server.clients clientId ⟨state, []⟩ } : NameServer).Inv table := by
    intro clientId state hstate
    have hclient : Function.update server.clients clientId ⟨state, []⟩ clientId = ⟨state, []⟩ :=
      Function.update_self _ _ _
    refine h.of_unnamed clientId (fun i hi => ⟨Function.update_of_ne hi _ _, rfl⟩) ?_ ?_ <;> dsimp only <;> rw [hclient]
    · exact hstate.1
    · exact fun hready => absurd hready hstate.2
  cases op with
  | newClient clientId => exact ⟨_, rfl, hnew clientId .preauth (by decide)⟩
  | newClientNoAuth clientId => exact ⟨_, rfl, hnew clientId .connecting (by decide)⟩
  | delClient clientId => exact ⟨_, rfl, h.delClient clientId⟩
  | clientver clientId =>
    refine ⟨_, rfl, ?_⟩
    split_ifs
    · exact h.setState clientId (by decide)
    · exact h
  | info clientId =>
    refine ⟨_, rfl, ?_⟩
    split_ifs
    · exact h.setState clientId (by decide)
    · exact h
  | ready clientId =>
    refine ⟨_, rfl, ?_⟩
    split_ifs
    · refine h.of_unnamed clientId
        (fun i hi => ⟨(server.setState_of_ne hi .ready).1, Function.update_of_ne hi _ _⟩) ?_ ?_
      · simp [NameServer.setState]
      · simp
    · exact h
  | startInfo clientId name nameBanned clanBanned => exact h.onStartInfo hfuel clientId name nameBanned clanBanned
  | entergame clientId =>
    refine ⟨_, rfl, ?_⟩
    split_ifs with hready
    · have hclient : (server.setState clientId .ingame).clients clientId =
          { server.clients clientId with state := .ingame } := Function.update_self _ _ _
      refine h.of_le (fun i hi => ?_) fun i hi => ?_
      · by_cases hic : i = clientId
        · exact hic ▸ hready.2
        · rw [(server.setState_of_ne hic .ingame).1] at hi
          exact h.ingame i hi
      · by_cases hic : i = clientId
        · subst hic
          exact ⟨.inr hready, by rw [hclient]⟩
        · rw [HasName, (server.setState_of_ne hic .ingame).1, (server.setState_of_ne hic .ingame).2] at hi
          exact ⟨hi, by rw [(server.setState_of_ne hic .ingame).1]⟩
    · exact h
  | changeInfo clientId name nameBanned spam clanBanned =>
    exact h.onChangeInfo hfuel clientId name nameBanned spam clanBanned
  | redirect clientId => exact ⟨_, rfl, h.setState clientId (by decide)⟩
  | changeMap =>
    have hstate : ∀ i, (server.changeMap.clients i).state.atLeastReady = false := by
      intro i
      rw [NameServer.changeMap]
      cases hcase : (server.clients i).state <;> simp [hcase, ClientState.atLeastReady]
    refine ⟨_, rfl, h.of_le (fun i hi => ?_) fun i hi => ?_⟩
    · exact absurd (hstate i) (by rw [hi]; decide)
    · exact absurd hi.atLeastReady (by rw [hstate i]; decide)

lemma run_inv {server : NameServer} (h : server.Inv table) {fuel : ℕ} (hfuel : maxClients ≤ fuel) (ops : List Op) :
    ∃ server', server.run table fuel ops = some server' ∧ server'.Inv table := by
  induction ops generalizing server with
  | nil => exact ⟨server, rfl, h⟩
  | cons op ops ih =>
    obtain ⟨next, hnext, hinv⟩ := step_inv h hfuel op
    rw [run, hnext, Option.bind_some]
    exact ih hinv

/-- `SetClientNameImpl` ends after at most as many numbers as there are slots, and in every run the names of the clients
that are in the game, or ready with their start info handled, are in order. -/
theorem run_named (table : Confusables) {fuel : ℕ} (hfuel : maxClients ≤ fuel) :
    (∀ (server : NameServer) clientId nameRequest banned set,
      (server.setClientNameImpl table fuel clientId nameRequest banned set).isSome = true) ∧
      ∀ ops, ∃ server, init.run table fuel ops = some server ∧ server.NamesOk table server.HasName := by
  constructor
  · intro server clientId nameRequest banned set
    obtain ⟨server', changed, hset, -⟩ := setClientNameImpl_spec hfuel server clientId nameRequest banned set
    rw [hset]
    rfl
  · intro ops
    obtain ⟨server, hrun, hinv⟩ := run_inv init_inv hfuel ops
    exact ⟨server, hrun, hinv.names⟩

/-- The part of the table for ASCII. -/
def asciiConfusables : Confusables where
  decomp c :=
    if 0 ≤ c ∧ c ≤ 32 ∨ c = 127 then some []
    else if c = 34 then some [39, 39]
    else if c = 37 then some [186, 47, 8320]
    else if c = 48 then some [79]
    else if c = 49 ∨ c = 73 ∨ c = 108 ∨ c = 124 then some [105]
    else if c = 96 then some [39]
    else if c = 109 then some [114, 110]
    else none
  decomp_ne_zero c s h d hd := by
    split_ifs at h <;> obtain rfl := Option.some.inj h <;> revert d <;> decide
  decomp_paren := by decide
  decomp_digit c hlow hhigh := by
    interval_cases c <;> rfl

/-- Two clients with names that look alike: the second one is numbered. -/
def twoJoin : List Op :=
  [.newClient 0, .info 0, .ready 0, .startInfo 0 [108, 111, 108] false false, .entergame 0,
    .newClient 1, .info 1, .ready 1, .startInfo 1 [73, 111, 49] false false, .entergame 1]

theorem twoJoin_named : ∃ server, init.run asciiConfusables maxClients twoJoin = some server ∧
    server.NamesOk asciiConfusables server.HasName :=
  (run_named asciiConfusables le_rfl).2 twoJoin

/-- A client that is ready has no name before its start info. -/
theorem not_named_ready : ∃ server,
    init.run asciiConfusables maxClients [.newClient 0, .info 0, .ready 0] = some server ∧
      ¬ server.NamesOk asciiConfusables fun i =>
        (server.clients i).state = .ready ∨ (server.clients i).state = .ingame := by
  refine ⟨_, rfl, fun h => h.nonempty 0 (.inl ?_) ?_⟩
  · rfl
  · rfl

end NameServer

end DDNet
