/-
Commands that are executed later (`m_StoreCommands`, `CConsole::StoreCommands`).

While `m_StoreCommands` is set, the commands with `CFGFLAG_STORE` are put into a queue, each with a copy of its arguments,
and `StoreCommands(false)` calls their callbacks.  The copy has no victim, a pointer to the stroke direction is moved as
if it pointed into the copied text, and the queue does not look at `CMDFLAG_TEST` any more; apart from that, the calls are
those of the immediate execution (`Console.sameCalls_iff`).
-/
import DDNet.Shared.ConsoleRender

namespace DDNet

/-! ### The queue -/

/-- What an entry of the queue finds in memory where nothing has been copied: `m_Victim`, and the text at the address that
`operator=` computes for an argument that is not in `m_aStringStorage`. -/
structure Leftover where
  victim : ℤ
  text : List UInt8

/-- `m_pCommand[0] == '+'`; the name that is typed starts in the same way. -/
def CCommand.isStroke (command : CCommand) : Bool := command.name.head? == some 43

/-- `CResult::operator=`.  The first argument of a stroke command is in `m_apStrokeStr`. -/
def CResult.copy (leftover : Leftover) (command : CCommand) (result : CResult) : CResult where
  clientId := result.clientId
  args := if command.isStroke then leftover.text :: result.args.tail else result.args
  victim := leftover.victim

/-- The console with its queue. -/
structure QueueState (W : Type) where
  world : W
  storeCommands : Bool
  queue : List (CCommand × CResult)

namespace Console

variable {W : Type} (console : Console W) (leftover : ℕ → Leftover)

/-- The console that puts commands into the queue. -/
def queued : Console (QueueState W) where
  settings s := { console.settings s.world with storeCommands := s.storeCommands }
  callback command result s := { s with world := console.callback command result s.world }
  store command result s :=
    { s with queue := s.queue ++ [(command, result.copy (leftover s.queue.length) command)] }
  unknownCommand str s := { s with world := console.unknownCommand str s.world }
  isColor := console.isColor
  validFloat := console.validFloat

/-- The loop of `StoreCommands` over the queue. -/
def runQueue : List (CCommand × CResult) → QueueState W → QueueState W × List (Call (QueueState W))
  | [], s => (s, [])
  | (command, result) :: entries, s =>
    let (s', calls) := runQueue entries ((console.queued leftover).callback command result s)
    (s', ⟨s, command, result⟩ :: calls)

/-- `StoreCommands`. -/
def setStoreCommands (store : Bool) (s : QueueState W) : QueueState W × List (Call (QueueState W)) :=
  if store then ({ s with storeCommands := store }, [])
  else
    let (s', calls) := console.runQueue leftover s.queue s
    ({ s' with queue := [], storeCommands := store }, calls)

/-- A call of `ExecuteLineStroked`. -/
structure LineCall where
  stroke : Bool
  str : List UInt8
  clientId : ℤ
  interpretSemicolons : Bool

/-- The parts of the line. -/
def LineCall.parts (line : LineCall) : List (List UInt8 × List UInt8) :=
  match strStartswith line.str (ofChars ['m', 'c', ';']) with
  | some rest => lineParts true rest
  | none => lineParts line.interpretSemicolons line.str

/-- Lines, one after the other. -/
def executeLines : List LineCall → W → W × List (Call W)
  | [], w => (w, [])
  | line :: lines, w =>
    let (w', calls) := console.executeLineStroked line.stroke line.str line.clientId line.interpretSemicolons w
    let (w'', calls') := executeLines lines w'
    (w'', calls ++ calls')

/-- The calls when the lines are executed at once. -/
def immediateCalls (lines : List LineCall) (w : W) : List (Call (QueueState W)) :=
  ((console.queued leftover).executeLines lines ⟨w, false, []⟩).2

/-- The calls when the lines are executed while `m_StoreCommands` is set, and of `StoreCommands(false)`. -/
def deferredCalls (lines : List LineCall) (w : W) : List (Call (QueueState W)) :=
  let (s, calls) := (console.queued leftover).executeLines lines ⟨w, true, []⟩
  calls ++ (console.setStoreCommands leftover false s).2

end Console

/-- What a callback is called with; only a command with a parameter `v` has a victim. -/
def seen (entry : CCommand × CResult) : CCommand × ℤ × List (List UInt8) × Option ℤ :=
  (entry.1, entry.2.clientId, entry.2.args, if 118 ∈ params entry.1.params then some entry.2.victim else none)

/-- The command of a call and its result. -/
def Call.entry {W : Type} (call : Call W) : CCommand × CResult := (call.command, call.result)

namespace Console

variable {W : Type} (console : Console W)

/-- Whatever is in memory, the callbacks are called with the same arguments in the same order. -/
def SameCalls (lines : List LineCall) (w : W) : Prop :=
  ∀ leftover, (console.deferredCalls leftover lines w).map (seen ∘ Call.entry) =
    (console.immediateCalls leftover lines w).map (seen ∘ Call.entry)

/-- All commands of the parts can be put into the queue. -/
def OnlyStores (settings : ConsoleSettings) (clientId : ℤ) (parts : List (List UInt8 × List UInt8)) : Prop :=
  ∀ part ∈ parts, (parseStart part.1).1 ≠ [] →
    ∃ command, findCommand settings clientId (parseStart part.1).1 = some command ∧
      command.hasFlag cfgflagStore = true

/-- The callbacks do not change what `ExecuteLineStroked` reads. -/
def KeepsSettings : Prop :=
  ∀ command result w, console.settings (console.callback command result w) = console.settings w

/-! ### Commands that are accepted -/

/-- The command of a part, if the client may execute it and the arguments are in order. -/
def accepted (settings : ConsoleSettings) (stroke : Bool) (clientId : ℤ) (part : List UInt8) :
    Option (CCommand × CResult) :=
  let (name, argsStart) := parseStart part
  match findCommand settings clientId name with
  | none => none
  | some command =>
    if clientId = clientIdGame ∧ command.hasFlag cfgflagGame = false then none
    else if clientId = clientIdNoGame ∧ command.hasFlag cfgflagGame = true then none
    else if settings.accessLevel ≤ command.accessLevel ∧ (stroke || name.head? == some 43) = true then
      match parseArgs console.validFloat (console.isColor command) command.params argsStart
        ⟨clientId, strokeArgs stroke name, victimNone⟩ with
      | .error _ => none
      | .ok result => some (command, result)
    else none

/-- The commands of the parts that are accepted; a part without a command ends the line. -/
def acceptedParts (settings : ConsoleSettings) (stroke : Bool) (clientId : ℤ) :
    List (List UInt8 × List UInt8) → List (CCommand × CResult)
  | [] => []
  | (part, _) :: parts =>
    if (parseStart part).1 = [] then []
    else (console.accepted settings stroke clientId part).toList ++ acceptedParts settings stroke clientId parts

/-- The commands of all lines that are accepted. -/
def acceptedLines (settings : ConsoleSettings) (lines : List LineCall) : List (CCommand × CResult) :=
  lines.flatMap fun line => console.acceptedParts settings line.stroke line.clientId line.parts

/-- The command has no victim and no stroke direction, and it is allowed also where test commands are not. -/
structure Plain (settings : ConsoleSettings) (command : CCommand) : Prop where
  victim : 118 ∉ params command.params
  stroke : command.isStroke = false
  test : (command.hasFlag cmdflagTest && !settings.svTestingCommands) = false

end Console

/-! ### The arguments of an accepted command -/

lemma toLower_eq_plus {c : UInt8} : toLower c = 43 ↔ c = 43 := by
  rw [toLower]
  split_ifs with hupper
  · rw [Bool.and_eq_true, decide_eq_true_iff, decide_eq_true_iff] at hupper
    obtain ⟨hlower, hupper⟩ := hupper
    rw [UInt8.le_iff_toNat_le] at hlower hupper
    have hsum : (c + 32).toNat = c.toNat + 32 := by
      rw [UInt8.toNat_add]
      exact Nat.mod_eq_of_lt (Nat.lt_of_le_of_lt (Nat.add_le_add_right hupper _) (by decide))
    constructor
    · intro h
      rw [h] at hsum
      exact absurd (hsum.trans_ge (Nat.add_le_add_right hlower 32)) (by decide)
    · rintro rfl
      exact absurd hlower (by decide)
  · exact Iff.rfl

/-- The name of a command that is found starts with `+` if and only if the name that is typed does. -/
lemma isStroke_of_findCommand {settings : ConsoleSettings} {clientId : ℤ} {name : List UInt8} {command : CCommand}
    (h : Console.findCommand settings clientId name = some command) : command.isStroke = (name.head? == some 43) := by
  obtain ⟨i, hi, hcommand⟩ := Option.bind_eq_some_iff.1 h
  obtain ⟨-, ⟨found, hfound, hp⟩, -⟩ := findFrom_some hi
  obtain rfl := Option.some.inj (hfound.symm.trans hcommand)
  rw [Bool.and_eq_true, beq_iff_eq, strCompNocase, strComp_eq_iff] at hp
  have hhead : found.name.head?.map toLower = name.head?.map toLower := by
    rw [← List.head?_map, ← List.head?_map, hp.2]
  rw [CCommand.isStroke, Bool.eq_iff_iff, beq_iff_eq, beq_iff_eq]
  have hplus : ∀ head : Option UInt8, head = some 43 ↔ head.map toLower = some 43 := by
    rintro (_ | c)
    · simp
    · rw [Option.map_some, Option.some_inj, Option.some_inj, toLower_eq_plus]
  rw [hplus, hhead, ← hplus]

/-- The victim is none, one of the special ones, or a client id. -/
def CResult.VictimOk (result : CResult) : Prop := victimNone ≤ result.victim ∧ result.victim < numVictims

lemma CResult.setVictim_ok (result : CResult) (victim : ℤ) : (result.setVictim victim).VictimOk := by
  show victimNone ≤ clamp _ _ _ ∧ clamp _ _ _ < (numVictims : ℤ)
  rw [clamp, victimNone, numVictims]
  split_ifs <;> omega

lemma CResult.setVictimStr_ok (result : CResult) (victim : List UInt8) : (result.setVictimStr victim).VictimOk := by
  rw [CResult.setVictimStr]
  split_ifs
  · exact (by decide : victimNone ≤ victimMe ∧ victimMe < (numVictims : ℤ))
  · exact (by decide : victimNone ≤ victimAll ∧ victimAll < (numVictims : ℤ))
  · show victimNone ≤ clamp _ _ _ ∧ clamp _ _ _ < (numVictims : ℤ)
    rw [clamp, victimNone, numVictims]
    split_ifs <;> omega

lemma CResult.setVictimStr_eq (result : CResult) (victim : List UInt8) :
    (result.setVictimStr victim).args = result.args ∧ (result.setVictimStr victim).clientId = result.clientId := by
  rw [CResult.setVictimStr]
  split_ifs <;> exact ⟨rfl, rfl⟩

/-- Parsing adds arguments behind those that are there, and sets a victim for a parameter `v` only. -/
structure CResult.Extends (result result' : CResult) (v : Bool) : Prop where
  args : result.args <+: result'.args
  victim : v = false → result'.victim = result.victim
  victimOk : result.VictimOk → result'.VictimOk
  clientId : result'.clientId = result.clientId

lemma parseArg_extends {validFloat : List UInt8 → Bool} {isColor : Bool} {command : UInt8} {str : List UInt8}
    {result result' : CResult} {rest : Option (List UInt8)}
    (h : parseArg validFloat isColor command str result = .ok (result', rest)) :
    result.Extends result' (command == 118) := by
  have hadd : ∀ arg, result.Extends (result.addArgument arg) (command == 118) := fun arg =>
    ⟨List.prefix_append _ _, fun _ => rfl, id, rfl⟩
  have hvictim : command = 118 → ∀ arg,
      result.Extends ((result.addArgument arg).setVictimStr arg) (command == 118) := by
    intro hv arg
    obtain ⟨hargs, hclientId⟩ := (result.addArgument arg).setVictimStr_eq arg
    refine ⟨?_, fun hfalse => absurd hfalse (by simp [hv]), fun _ => CResult.setVictimStr_ok _ _, hclientId⟩
    rw [hargs]
    exact List.prefix_append _ _
  rw [parseArg] at h
  by_cases hquote : str.head? = some quote
  · rw [if_pos hquote] at h
    cases hread : readQuoted str.tail with
    | none => rw [hread] at h; exact absurd h (by simp)
    | some x =>
      rw [hread] at h
      obtain ⟨rfl, -⟩ := Prod.mk.inj (Except.ok.inj h)
      exact hadd _
  rw [if_neg hquote] at h
  by_cases hall : command = 114
  · rw [if_pos hall] at h
    obtain ⟨rfl, -⟩ := Prod.mk.inj (Except.ok.inj h)
    exact hadd _
  rw [if_neg hall] at h
  dsimp only at h
  split_ifs at h
  all_goals obtain ⟨rfl, -⟩ := Prod.mk.inj (Except.ok.inj h)
  all_goals first
    | exact hadd _
    | exact hvictim ‹_› _

lemma CResult.Extends.trans {result result' result'' : CResult} {v v' : Bool} (h : result.Extends result' v)
    (h' : result'.Extends result'' v') : result.Extends result'' (v || v') := by
  refine ⟨h.args.trans h'.args, fun hfalse => ?_, h'.victimOk ∘ h.victimOk, h'.clientId.trans h.clientId⟩
  obtain ⟨hv, hv'⟩ := Bool.or_eq_false_iff.1 hfalse
  exact (h'.victim hv').trans (h.victim hv)

lemma parseParams_extends {validFloat : List UInt8 → Bool} {isColor optional : Bool} {commands str : List UInt8}
    {result result' : CResult} (h : parseParams validFloat isColor optional commands str result = .ok result') :
    result.Extends result' (decide (118 ∈ commands)) := by
  induction commands generalizing optional str result with
  | nil =>
    obtain rfl := Except.ok.inj h
    exact ⟨List.prefix_refl _, fun _ => rfl, id, rfl⟩
  | cons command commands ih =>
    have hmem : decide (118 ∈ command :: commands) = (command == 118 || decide (118 ∈ commands)) := by
      rw [Bool.eq_iff_iff, Bool.or_eq_true, decide_eq_true_iff, decide_eq_true_iff, beq_iff_eq, List.mem_cons,
        eq_comm]
    rw [parseParams] at h
    by_cases hoptional : command = 63
    · rw [if_pos hoptional] at h
      have hrest := ih h
      rw [hmem, hoptional]
      exact ⟨hrest.args, hrest.victim, hrest.victimOk, hrest.clientId⟩
    rw [if_neg hoptional] at h
    dsimp only at h
    by_cases hstr : strSkipWhitespaces str = []
    · rw [if_pos hstr] at h
      split_ifs at h with hopt hv
      · obtain rfl := Except.ok.inj h
        exact ⟨List.prefix_refl _, fun hfalse => absurd hv (by simpa using hfalse),
          fun _ => result.setVictim_ok _, rfl⟩
      · obtain rfl := Except.ok.inj h
        exact ⟨List.prefix_refl _, fun _ => rfl, id, rfl⟩
    rw [if_neg hstr] at h
    rcases harg : parseArg validFloat isColor command (strSkipWhitespaces str) result with _ | ⟨parsed, _ | rest⟩ <;>
      rw [harg] at h
    · exact absurd h (by simp)
    · obtain rfl := Except.ok.inj h
      have hfirst := parseArg_extends harg
      rw [hmem]
      refine ⟨hfirst.args, fun hfalse => hfirst.victim ?_, hfirst.victimOk, hfirst.clientId⟩
      exact (Bool.or_eq_false_iff.1 hfalse).1
    · rw [hmem]
      exact (parseArg_extends harg).trans (ih h)

namespace Console

variable {W : Type} {console : Console W} {settings : ConsoleSettings} {stroke : Bool} {clientId : ℤ}

/-- What is accepted. -/
structure Accepts (entry : CCommand × CResult) : Prop where
  victim : 118 ∉ params entry.1.params → entry.2.victim = victimNone
  victimOk : entry.2.VictimOk
  stroke : entry.1.isStroke = true → entry.2.args.head? = some [48] ∨ entry.2.args.head? = some [49]

lemma accepts_of_accepted {part : List UInt8} {entry : CCommand × CResult}
    (h : console.accepted settings stroke clientId part = some entry) : Accepts entry := by
  rw [accepted] at h
  dsimp only at h
  cases hfind : findCommand settings clientId (parseStart part).1 with
  | none => rw [hfind] at h; exact absurd h (by simp)
  | some command =>
    rw [hfind] at h
    dsimp only at h
    split_ifs at h
    cases hparse : parseArgs console.validFloat (console.isColor command) command.params (parseStart part).2
      ⟨clientId, strokeArgs stroke (parseStart part).1, victimNone⟩ with
    | error error => rw [hparse] at h; exact absurd h (by simp)
    | ok result =>
      rw [hparse] at h
      obtain rfl := Option.some.inj h
      have hextends := parseParams_extends hparse
      have hnone : victimNone ≤ victimNone ∧ victimNone < (numVictims : ℤ) := by decide
      refine ⟨fun hv => ?_, hextends.victimOk hnone, fun hstroke => ?_⟩
      · exact hextends.victim (by simpa using hv)
      · obtain ⟨rest, hargs⟩ := hextends.args
        rw [isStroke_of_findCommand hfind] at hstroke
        rw [← hargs, strokeArgs, if_pos hstroke]
        cases stroke
        · exact .inl rfl
        · exact .inr rfl

/-! ### Execution -/

/-- One round of the loop, for a command that can be put into the queue. -/
lemma executePart_eq_accepted {part : List UInt8} {w : W} (hname : (parseStart part).1 ≠ [])
    (hstores : ∃ command, findCommand (console.settings w) clientId (parseStart part).1 = some command ∧
      command.hasFlag cfgflagStore = true) (str : List UInt8) :
    console.executePart stroke clientId part str w =
      match console.accepted (console.settings w) stroke clientId part with
      | none => (w, [], true)
      | some (command, result) =>
        if (console.settings w).storeCommands then (console.store command result w, [], true)
        else if command.hasFlag cmdflagTest && !(console.settings w).svTestingCommands then (w, [], false)
        else ((console.runCalls command (victims clientId result) w).1,
          (console.runCalls command (victims clientId result) w).2, true) := by
  obtain ⟨command, hfind, hstore⟩ := hstores
  rw [executePart, accepted]
  dsimp only
  rw [if_neg hname, hfind]
  dsimp only
  rw [← strokeArgs]
  by_cases hgame : clientId = clientIdGame ∧ command.hasFlag cfgflagGame = false
  · rw [if_pos hgame, if_pos hgame]
  rw [if_neg hgame, if_neg hgame]
  by_cases hnoGame : clientId = clientIdNoGame ∧ command.hasFlag cfgflagGame = true
  · rw [if_pos hnoGame, if_pos hnoGame]
  rw [if_neg hnoGame, if_neg hnoGame]
  by_cases haccess : (console.settings w).accessLevel ≤ command.accessLevel
  swap
  · rw [if_neg haccess, if_neg (haccess ∘ And.left)]
  rw [if_pos haccess]
  by_cases hstroke : (stroke || (parseStart part).1.head? == some 43) = true
  swap
  · rw [if_neg hstroke, if_neg (hstroke ∘ And.right)]
  rw [if_pos hstroke, if_pos (And.intro haccess hstroke)]
  cases parseArgs console.validFloat (console.isColor command) command.params (parseStart part).2
    ⟨clientId, strokeArgs stroke (parseStart part).1, victimNone⟩ with
  | error error => rfl
  | ok result =>
    dsimp only
    rw [hstore, Bool.and_true]

/-- The queue does not change what is accepted. -/
lemma accepted_queued (leftover : ℕ → Leftover) (s : QueueState W) (part : List UInt8) :
    (console.queued leftover).accepted ((console.queued leftover).settings s) stroke clientId part =
      console.accepted (console.settings s.world) stroke clientId part := rfl

lemma executeLineStroked_eq (console : Console W) (line : LineCall) (w : W) :
    console.executeLineStroked line.stroke line.str line.clientId line.interpretSemicolons w =
      console.executeParts line.stroke line.clientId line.parts w := by
  rw [executeLineStroked, LineCall.parts]
  cases strStartswith line.str (ofChars ['m', 'c', ';']) <;> rfl

/-! ### The queue -/

variable {leftover : ℕ → Leftover}

/-- The entries that are put into the queue behind `n` others. -/
def copies (leftover : ℕ → Leftover) : ℕ → List (CCommand × CResult) → List (CCommand × CResult)
  | _, [] => []
  | n, (command, result) :: entries =>
    (command, result.copy (leftover n) command) :: copies leftover (n + 1) entries

lemma copies_append (n : ℕ) (entries entries' : List (CCommand × CResult)) :
    copies leftover n (entries ++ entries') =
      copies leftover n entries ++ copies leftover (n + entries.length) entries' := by
  induction entries generalizing n with
  | nil => rfl
  | cons entry entries ih =>
    obtain ⟨command, result⟩ := entry
    rw [List.cons_append, copies, ih, copies, List.cons_append, List.length_cons, Nat.add_right_comm, Nat.add_assoc]

lemma length_copies (n : ℕ) (entries : List (CCommand × CResult)) :
    (copies leftover n entries).length = entries.length := by
  induction entries generalizing n with
  | nil => rfl
  | cons entry entries ih => rw [copies, List.length_cons, ih, List.length_cons]

/-- The entries are put into the queue. -/
def deferAll (leftover : ℕ → Leftover) (s : QueueState W) (entries : List (CCommand × CResult)) : QueueState W :=
  { s with queue := s.queue ++ copies leftover s.queue.length entries }

lemma deferAll_append (s : QueueState W) (entries entries' : List (CCommand × CResult)) :
    deferAll leftover (deferAll leftover s entries) entries' = deferAll leftover s (entries ++ entries') := by
  simp only [deferAll, copies_append, List.length_append, length_copies, List.append_assoc]

lemma deferAll_nil (s : QueueState W) : deferAll leftover s [] = s := by
  simp [deferAll, copies]

/-- While `m_StoreCommands` is set, a line puts its commands into the queue. -/
lemma executeParts_store {s : QueueState W} (hstore : s.storeCommands = true)
    {parts : List (List UInt8 × List UInt8)} (hparts : OnlyStores (console.settings s.world) clientId parts) :
    (console.queued leftover).executeParts stroke clientId parts s =
      (deferAll leftover s (console.acceptedParts (console.settings s.world) stroke clientId parts), []) := by
  induction parts generalizing s with
  | nil => rw [acceptedParts, deferAll_nil, executeParts]
  | cons x parts ih =>
    obtain ⟨part, str⟩ := x
    have hrest : OnlyStores (console.settings s.world) clientId parts :=
      fun y hy => hparts y (List.mem_cons_of_mem _ hy)
    rw [executeParts, acceptedParts]
    by_cases hname : (parseStart part).1 = []
    · rw [if_pos hname, deferAll_nil, executePart]
      dsimp only
      rw [if_pos hname]
      rfl
    have hfind : ∃ command, findCommand ((console.queued leftover).settings s) clientId (parseStart part).1 =
        some command ∧ command.hasFlag cfgflagStore = true := hparts (part, str) List.mem_cons_self hname
    rw [if_neg hname, executePart_eq_accepted hname hfind str, accepted_queued]
    cases console.accepted (console.settings s.world) stroke clientId part with
    | none =>
      dsimp only
      rw [if_pos rfl, ih hstore hrest]
      rfl
    | some entry =>
      obtain ⟨command, result⟩ := entry
      have hsettings : ((console.queued leftover).settings s).storeCommands = true := hstore
      dsimp only
      rw [if_pos hsettings]
      dsimp only
      rw [if_pos rfl]
      have hnext : (console.queued leftover).store command result s = deferAll leftover s [(command, result)] := rfl
      rw [hnext, ih (s := deferAll leftover s [(command, result)]) hstore hrest]
      dsimp only
      rw [deferAll_append]
      rfl

lemma executeLines_store {s : QueueState W} (hstore : s.storeCommands = true) {lines : List LineCall}
    (hlines : ∀ line ∈ lines, OnlyStores (console.settings s.world) line.clientId line.parts) :
    (console.queued leftover).executeLines lines s =
      (deferAll leftover s (console.acceptedLines (console.settings s.world) lines), []) := by
  induction lines generalizing s with
  | nil =>
    rw [executeLines, acceptedLines, List.flatMap_nil, deferAll_nil]
  | cons line lines ih =>
    rw [executeLines, executeLineStroked_eq, executeParts_store hstore (hlines line List.mem_cons_self)]
    dsimp only
    rw [ih (s := deferAll leftover s _) hstore fun line' hline' => hlines line' (List.mem_cons_of_mem _ hline')]
    dsimp only
    rw [List.nil_append, deferAll_append]
    rfl

lemma runQueue_entry (entries : List (CCommand × CResult)) (s : QueueState W) :
    (console.runQueue leftover entries s).2.map Call.entry = entries := by
  induction entries generalizing s with
  | nil => rfl
  | cons entry entries ih =>
    obtain ⟨command, result⟩ := entry
    rw [runQueue, List.map_cons, ih]
    rfl

/-- The deferred calls are those of the copies. -/
lemma deferredCalls_entry {lines : List LineCall} {w : W}
    (hlines : ∀ line ∈ lines, OnlyStores (console.settings w) line.clientId line.parts) :
    (console.deferredCalls leftover lines w).map Call.entry =
      copies leftover 0 (console.acceptedLines (console.settings w) lines) := by
  rw [deferredCalls, executeLines_store (s := ⟨w, true, []⟩) rfl hlines]
  dsimp only
  rw [setStoreCommands, if_neg Bool.false_ne_true, List.nil_append]
  exact runQueue_entry _ _

/-! ### Immediate calls -/

/-- The calls of the parts that are executed at once. -/
def calledParts (console : Console W) (settings : ConsoleSettings) (stroke : Bool) (clientId : ℤ) :
    List (List UInt8 × List UInt8) → List (CCommand × CResult)
  | [] => []
  | (part, _) :: parts =>
    if (parseStart part).1 = [] then []
    else
      match console.accepted settings stroke clientId part with
      | none => calledParts console settings stroke clientId parts
      | some (command, result) =>
        if command.hasFlag cmdflagTest && !settings.svTestingCommands then []
        else (victims clientId result).map (command, ·) ++ calledParts console settings stroke clientId parts

/-- The calls of lines that are executed at once. -/
def calledLines (console : Console W) (settings : ConsoleSettings) (lines : List LineCall) : List (CCommand × CResult) :=
  lines.flatMap fun line => console.calledParts settings line.stroke line.clientId line.parts

/-- The settings are the same, and commands are executed at once. -/
structure Immediate (console : Console W) (settings : ConsoleSettings) (s : QueueState W) : Prop where
  store : s.storeCommands = false
  settings : console.settings s.world = settings

lemma runCalls_entry (hkeeps : console.KeepsSettings) (command : CCommand) (results : List CResult)
    {s : QueueState W} (h : Immediate console settings s) :
    Immediate console settings ((console.queued leftover).runCalls command results s).1 ∧
      ((console.queued leftover).runCalls command results s).2.map Call.entry = results.map (command, ·) := by
  induction results generalizing s with
  | nil => exact ⟨h, rfl⟩
  | cons result results ih =>
    have hnext : Immediate console settings ((console.queued leftover).callback command result s) :=
      ⟨h.store, (hkeeps command result s.world).trans h.settings⟩
    obtain ⟨hlast, hcalls⟩ := ih hnext
    rw [runCalls, List.map_cons, List.map_cons, hcalls]
    exact ⟨hlast, rfl⟩

lemma executeParts_call (hkeeps : console.KeepsSettings) {s : QueueState W} (h : Immediate console settings s)
    {parts : List (List UInt8 × List UInt8)} (hparts : OnlyStores settings clientId parts) :
    Immediate console settings ((console.queued leftover).executeParts stroke clientId parts s).1 ∧
      ((console.queued leftover).executeParts stroke clientId parts s).2.map Call.entry =
        console.calledParts settings stroke clientId parts := by
  induction parts generalizing s with
  | nil => exact ⟨h, rfl⟩
  | cons x parts ih =>
    obtain ⟨part, str⟩ := x
    have hrest : OnlyStores settings clientId parts := fun y hy => hparts y (List.mem_cons_of_mem _ hy)
    rw [executeParts, calledParts]
    by_cases hname : (parseStart part).1 = []
    · rw [if_pos hname, executePart]
      dsimp only
      rw [if_pos hname]
      exact ⟨h, rfl⟩
    have hfind : ∃ command, findCommand ((console.queued leftover).settings s) clientId (parseStart part).1 =
        some command ∧ command.hasFlag cfgflagStore = true := by
      have hfound := hparts (part, str) List.mem_cons_self hname
      rw [← h.settings] at hfound
      exact hfound
    rw [if_neg hname, executePart_eq_accepted hname hfind str, accepted_queued, h.settings]
    cases console.accepted settings stroke clientId part with
    | none => exact ih h hrest
    | some entry =>
      obtain ⟨command, result⟩ := entry
      have hstore : ¬ ((console.queued leftover).settings s).storeCommands = true := by
        show ¬ s.storeCommands = true
        rw [h.store]
        exact Bool.false_ne_true
      have htest : ((console.queued leftover).settings s).svTestingCommands = settings.svTestingCommands := by
        rw [← h.settings]
        rfl
      dsimp only
      rw [if_neg hstore, htest]
      by_cases hdisabled : (command.hasFlag cmdflagTest && !settings.svTestingCommands) = true
      · rw [if_pos hdisabled, if_pos hdisabled]
        exact ⟨h, rfl⟩
      rw [if_neg hdisabled, if_neg hdisabled]
      obtain ⟨hcalled, hcalls⟩ := @runCalls_entry _ _ _ leftover hkeeps command (victims clientId result) s h
      obtain ⟨hlast, hlater⟩ := ih hcalled hrest
      dsimp only
      rw [if_pos rfl]
      dsimp only
      rw [List.map_append, hcalls, hlater]
      exact ⟨hlast, rfl⟩

lemma executeLines_call (hkeeps : console.KeepsSettings) {s : QueueState W} (h : Immediate console settings s)
    {lines : List LineCall} (hlines : ∀ line ∈ lines, OnlyStores settings line.clientId line.parts) :
    ((console.queued leftover).executeLines lines s).2.map Call.entry = console.calledLines settings lines := by
  induction lines generalizing s with
  | nil => rfl
  | cons line lines ih =>
    obtain ⟨hnext, hcalls⟩ := @executeParts_call _ _ _ line.stroke _ leftover hkeeps s h _
      (hlines line List.mem_cons_self)
    have hlater := ih hnext fun line' hline' => hlines line' (List.mem_cons_of_mem _ hline')
    rw [executeLines, executeLineStroked_eq]
    dsimp only
    rw [List.map_append, hcalls, hlater]
    rfl

lemma immediateCalls_entry (hkeeps : console.KeepsSettings) {lines : List LineCall} {w : W}
    (hlines : ∀ line ∈ lines, OnlyStores (console.settings w) line.clientId line.parts) :
    (console.immediateCalls leftover lines w).map Call.entry = console.calledLines (console.settings w) lines :=
  executeLines_call hkeeps ⟨rfl, rfl⟩ hlines

/-! ### Deferred and immediate calls -/

lemma mem_victims {result called : CResult} (h : called ∈ victims clientId result) :
    called.args = result.args ∧ (result.VictimOk → called.VictimOk) := by
  rw [victims] at h
  split_ifs at h with hme hall hall
  · obtain ⟨i, -, rfl⟩ := List.mem_map.1 h
    exact ⟨rfl, fun _ => CResult.setVictim_ok _ _⟩
  · obtain rfl := List.mem_singleton.1 h
    exact ⟨rfl, fun _ => CResult.setVictim_ok _ _⟩
  · obtain ⟨i, -, rfl⟩ := List.mem_map.1 h
    exact ⟨rfl, fun _ => CResult.setVictim_ok _ _⟩
  · obtain rfl := List.mem_singleton.1 h
    exact ⟨rfl, id⟩

/-- A part ends the line, is not accepted, or is accepted. -/
lemma parts_cases (console : Console W) (settings : ConsoleSettings) (stroke : Bool) (clientId : ℤ)
    (x : List UInt8 × List UInt8) (parts : List (List UInt8 × List UInt8)) :
    (console.acceptedParts settings stroke clientId (x :: parts) = [] ∧
        console.calledParts settings stroke clientId (x :: parts) = []) ∨
      (console.acceptedParts settings stroke clientId (x :: parts) =
          console.acceptedParts settings stroke clientId parts ∧
        console.calledParts settings stroke clientId (x :: parts) =
          console.calledParts settings stroke clientId parts) ∨
      ∃ entry, Accepts entry ∧
        console.acceptedParts settings stroke clientId (x :: parts) =
          entry :: console.acceptedParts settings stroke clientId parts ∧
        console.calledParts settings stroke clientId (x :: parts) =
          if entry.1.hasFlag cmdflagTest && !settings.svTestingCommands then []
          else (victims clientId entry.2).map (entry.1, ·) ++ console.calledParts settings stroke clientId parts := by
  obtain ⟨part, str⟩ := x
  rw [acceptedParts, calledParts]
  by_cases hname : (parseStart part).1 = []
  · rw [if_pos hname, if_pos hname]
    exact .inl ⟨rfl, rfl⟩
  rw [if_neg hname, if_neg hname]
  cases haccepted : console.accepted settings stroke clientId part with
  | none => exact .inr (.inl ⟨rfl, rfl⟩)
  | some entry => exact .inr (.inr ⟨entry, accepts_of_accepted haccepted, rfl, rfl⟩)

lemma accepts_of_mem {parts : List (List UInt8 × List UInt8)} {entry : CCommand × CResult}
    (h : entry ∈ console.acceptedParts settings stroke clientId parts) : Accepts entry := by
  induction parts with
  | nil => exact absurd h List.not_mem_nil
  | cons x parts ih =>
    rcases parts_cases console settings stroke clientId x parts with ⟨heq, -⟩ | ⟨heq, -⟩ | ⟨first, haccepts, heq, -⟩
    · rw [heq] at h
      exact absurd h List.not_mem_nil
    · rw [heq] at h
      exact ih h
    · rw [heq] at h
      obtain rfl | h := List.mem_cons.1 h
      · exact haccepts
      · exact ih h

/-- What is called has been accepted. -/
lemma mem_calledParts {parts : List (List UInt8 × List UInt8)} {call : CCommand × CResult}
    (h : call ∈ console.calledParts settings stroke clientId parts) :
    ∃ result, (call.1, result) ∈ console.acceptedParts settings stroke clientId parts ∧
      call.2 ∈ victims clientId result := by
  induction parts with
  | nil => exact absurd h List.not_mem_nil
  | cons x parts ih =>
    rcases parts_cases console settings stroke clientId x parts with
      ⟨-, hcalled⟩ | ⟨heq, hcalled⟩ | ⟨entry, -, heq, hcalled⟩
    · rw [hcalled] at h
      exact absurd h List.not_mem_nil
    · rw [hcalled] at h
      rw [heq]
      exact ih h
    · rw [hcalled] at h
      rw [heq]
      split_ifs at h
      · exact absurd h List.not_mem_nil
      · obtain h | h := List.mem_append.1 h
        · obtain ⟨called, hcalled, rfl⟩ := List.mem_map.1 h
          exact ⟨entry.2, List.mem_cons_self, hcalled⟩
        · obtain ⟨later, hlater, hvictims⟩ := ih h
          exact ⟨later, List.mem_cons_of_mem _ hlater, hvictims⟩

/-- Commands without a victim that are allowed are called once. -/
lemma calledParts_of_plain {parts : List (List UInt8 × List UInt8)}
    (h : ∀ entry ∈ console.acceptedParts settings stroke clientId parts, Plain settings entry.1) :
    console.calledParts settings stroke clientId parts = console.acceptedParts settings stroke clientId parts := by
  induction parts with
  | nil => rfl
  | cons x parts ih =>
    rcases parts_cases console settings stroke clientId x parts with
      ⟨heq, hcalled⟩ | ⟨heq, hcalled⟩ | ⟨entry, haccepts, heq, hcalled⟩
    · rw [heq, hcalled]
    · rw [heq] at h
      rw [heq, hcalled, ih h]
    · rw [heq] at h
      have hplain : Plain settings entry.1 := h entry List.mem_cons_self
      have hnone : entry.2.victim = victimNone := haccepts.victim hplain.victim
      rw [heq, hcalled, hplain.test, if_neg Bool.false_ne_true, victims_of_none hnone,
        ih fun later hlater => h later (List.mem_cons_of_mem _ hlater)]
      rfl

/-- A test command that is not allowed is not called, nor is what follows it. -/
lemma length_calledParts {parts : List (List UInt8 × List UInt8)}
    (h : ∀ entry ∈ console.acceptedParts settings stroke clientId parts, 118 ∉ params entry.1.params) :
    (console.calledParts settings stroke clientId parts).length ≤
        (console.acceptedParts settings stroke clientId parts).length ∧
      ((∃ entry ∈ console.acceptedParts settings stroke clientId parts,
          (entry.1.hasFlag cmdflagTest && !settings.svTestingCommands) = true) →
        (console.calledParts settings stroke clientId parts).length <
          (console.acceptedParts settings stroke clientId parts).length) := by
  induction parts with
  | nil => exact ⟨le_rfl, fun ⟨_, hmem, _⟩ => absurd hmem List.not_mem_nil⟩
  | cons x parts ih =>
    rcases parts_cases console settings stroke clientId x parts with
      ⟨heq, hcalled⟩ | ⟨heq, hcalled⟩ | ⟨entry, haccepts, heq, hcalled⟩
    · rw [heq, hcalled]
      exact ⟨le_rfl, fun ⟨_, hmem, _⟩ => absurd hmem List.not_mem_nil⟩
    · rw [heq] at h
      rw [heq, hcalled]
      exact ih h
    · rw [heq] at h
      obtain ⟨hle, hlt⟩ := ih fun later hlater => h later (List.mem_cons_of_mem _ hlater)
      have hnone : entry.2.victim = victimNone := haccepts.victim (h entry List.mem_cons_self)
      rw [heq, hcalled, List.length_cons]
      by_cases hdisabled : (entry.1.hasFlag cmdflagTest && !settings.svTestingCommands) = true
      · rw [if_pos hdisabled]
        exact ⟨Nat.zero_le _, fun _ => Nat.succ_pos _⟩
      rw [if_neg hdisabled, victims_of_none hnone, List.length_append, List.length_map, List.length_singleton]
      refine ⟨by omega, fun ⟨later, hmem, htest⟩ => ?_⟩
      obtain rfl | hmem := List.mem_cons.1 hmem
      · exact absurd htest hdisabled
      · have hshort := hlt ⟨later, hmem, htest⟩
        omega

lemma accepts_of_mem_lines {lines : List LineCall} {entry : CCommand × CResult}
    (h : entry ∈ console.acceptedLines settings lines) : Accepts entry := by
  obtain ⟨line, -, hentry⟩ := List.mem_flatMap.1 h
  exact accepts_of_mem hentry

lemma mem_calledLines {lines : List LineCall} {call : CCommand × CResult}
    (h : call ∈ console.calledLines settings lines) :
    ∃ clientId result, (call.1, result) ∈ console.acceptedLines settings lines ∧ call.2 ∈ victims clientId result := by
  obtain ⟨line, hline, hcall⟩ := List.mem_flatMap.1 h
  obtain ⟨result, hresult, hvictims⟩ := mem_calledParts hcall
  exact ⟨line.clientId, result, List.mem_flatMap.2 ⟨line, hline, hresult⟩, hvictims⟩

lemma calledLines_of_plain {lines : List LineCall}
    (h : ∀ entry ∈ console.acceptedLines settings lines, Plain settings entry.1) :
    console.calledLines settings lines = console.acceptedLines settings lines := by
  rw [calledLines, acceptedLines, List.flatMap, List.flatMap]
  congr 1
  exact List.map_congr_left fun line hline =>
    calledParts_of_plain fun entry hentry => h entry (List.mem_flatMap.2 ⟨line, hline, hentry⟩)

lemma length_calledLines {lines : List LineCall}
    (h : ∀ entry ∈ console.acceptedLines settings lines, 118 ∉ params entry.1.params) :
    (console.calledLines settings lines).length ≤ (console.acceptedLines settings lines).length ∧
      ((∃ entry ∈ console.acceptedLines settings lines,
          (entry.1.hasFlag cmdflagTest && !settings.svTestingCommands) = true) →
        (console.calledLines settings lines).length < (console.acceptedLines settings lines).length) := by
  induction lines with
  | nil => exact ⟨le_rfl, fun ⟨_, hmem, _⟩ => absurd hmem List.not_mem_nil⟩
  | cons line lines ih =>
    rw [acceptedLines, List.flatMap_cons] at h
    obtain ⟨hle, hlt⟩ := length_calledParts fun entry hentry => h entry (List.mem_append_left _ hentry)
    obtain ⟨hle', hlt'⟩ := ih fun entry hentry => h entry (List.mem_append_right _ hentry)
    rw [acceptedLines, calledLines] at hle' hlt'
    rw [acceptedLines, calledLines, List.flatMap_cons, List.flatMap_cons, List.length_append, List.length_append]
    refine ⟨Nat.add_le_add hle hle', fun ⟨entry, hmem, htest⟩ => ?_⟩
    obtain hmem | hmem := List.mem_append.1 hmem
    · exact Nat.add_lt_add_of_lt_of_le (hlt ⟨entry, hmem, htest⟩) hle'
    · exact Nat.add_lt_add_of_le_of_lt hle (hlt' ⟨entry, hmem, htest⟩)

lemma copies_const (leftover : Leftover) (n : ℕ) (entries : List (CCommand × CResult)) :
    copies (fun _ => leftover) n entries = entries.map fun entry => (entry.1, entry.2.copy leftover entry.1) := by
  induction entries generalizing n with
  | nil => rfl
  | cons entry entries ih =>
    obtain ⟨command, result⟩ := entry
    rw [copies, ih]
    rfl

/-- A copy of plain arguments looks like the original. -/
lemma seen_copies {entries : List (CCommand × CResult)} (h : ∀ entry ∈ entries, Plain settings entry.1) (n : ℕ) :
    (copies leftover n entries).map seen = entries.map seen := by
  induction entries generalizing n with
  | nil => rfl
  | cons entry entries ih =>
    obtain ⟨command, result⟩ := entry
    have hplain : Plain settings command := h (command, result) List.mem_cons_self
    have hseen : seen (command, result.copy (leftover n) command) = seen (command, result) := by
      simp [seen, CResult.copy, hplain.victim, hplain.stroke]
    rw [copies, List.map_cons, List.map_cons, hseen, ih fun entry hentry => h entry (List.mem_cons_of_mem _ hentry)]

/-- A victim that no command has, and a text that is no stroke direction. -/
def oddLeftover : Leftover := ⟨numVictims, [120]⟩

/-- What the odd memory shows of an accepted command. -/
lemma plain_of_seen {lines : List LineCall}
    (hseen : ((console.acceptedLines settings lines).map fun entry =>
      (entry.1, entry.2.copy oddLeftover entry.1)).map seen = (console.calledLines settings lines).map seen)
    {entry : CCommand × CResult} (hentry : entry ∈ console.acceptedLines settings lines) :
    118 ∉ params entry.1.params ∧ entry.1.isStroke = false := by
  have hmem : seen (entry.1, entry.2.copy oddLeftover entry.1) ∈ (console.calledLines settings lines).map seen := by
    rw [← hseen]
    exact List.mem_map_of_mem (List.mem_map_of_mem hentry)
  obtain ⟨⟨command, called⟩, hcall, heq⟩ := List.mem_map.1 hmem
  obtain ⟨clientId, result, hresult, hvictims⟩ := mem_calledLines hcall
  obtain ⟨hargs, hok⟩ := mem_victims hvictims
  have haccepts := accepts_of_mem_lines hresult
  simp only [seen, Prod.mk.injEq] at heq
  obtain ⟨rfl, -, hcopied, hvictim⟩ := heq
  constructor
  · intro hv
    rw [if_pos hv, if_pos hv, Option.some_inj] at hvictim
    have hlt := (hok haccepts.victimOk).2
    dsimp only at hlt
    rw [hvictim] at hlt
    exact absurd hlt (lt_irrefl _)
  · rw [Bool.eq_false_iff]
    intro hstroke
    rw [CResult.copy, if_pos hstroke] at hcopied
    have hhead := haccepts.stroke hstroke
    dsimp only at hhead hcopied hargs
    rw [← hargs, hcopied, List.head?_cons] at hhead
    exact absurd hhead (by decide)

/-- If the callbacks leave the settings alone, the deferred calls are the immediate ones if and only if no accepted
command has a victim or a stroke direction, or is a test command that is not allowed. -/
theorem sameCalls_iff (hkeeps : console.KeepsSettings) {lines : List LineCall} {w : W}
    (hlines : ∀ line ∈ lines, OnlyStores (console.settings w) line.clientId line.parts) :
    console.SameCalls lines w ↔
      ∀ entry ∈ console.acceptedLines (console.settings w) lines, Plain (console.settings w) entry.1 := by
  have hcalls : console.SameCalls lines w ↔ ∀ leftover,
      (copies leftover 0 (console.acceptedLines (console.settings w) lines)).map seen =
        (console.calledLines (console.settings w) lines).map seen := by
    refine forall_congr' fun leftover => ?_
    rw [← List.map_map, ← List.map_map, deferredCalls_entry hlines, immediateCalls_entry hkeeps hlines]
  rw [hcalls]
  constructor
  · intro h entry hentry
    have hodd := h fun _ => oddLeftover
    rw [copies_const] at hodd
    obtain ⟨hvictim, hstroke⟩ := plain_of_seen hodd hentry
    refine ⟨hvictim, hstroke, Bool.eq_false_iff.2 fun htest => ?_⟩
    -- the queue has an entry for every accepted command
    have hlength := congrArg List.length hodd
    simp only [List.length_map] at hlength
    have hshort := (length_calledLines fun entry hentry => (plain_of_seen hodd hentry).1).2 ⟨entry, hentry, htest⟩
    exact absurd hlength hshort.ne'
  · intro hplain leftover
    rw [seen_copies hplain, calledLines_of_plain hplain]

/-! ### A console with two commands -/

/-- `echo`, as the server could register it. -/
def echo : CCommand where
  name := ofChars ['e', 'c', 'h', 'o']
  params := [114]
  help := ofChars ['E', 'c', 'h', 'o', ' ', 't', 'h', 'e', ' ', 't', 'e', 'x', 't']
  flags := cfgflagServer ||| cfgflagStore
  accessLevel := accessLevelAdmin

/-- `kill`, with a victim. -/
def kill : CCommand where
  name := ofChars ['k', 'i', 'l', 'l']
  params := [118]
  help := ofChars ['K', 'i', 'l', 'l', ' ', 'a', ' ', 'c', 'l', 'i', 'e', 'n', 't']
  flags := cfgflagServer ||| cfgflagStore
  accessLevel := accessLevelAdmin

/-- The settings when the configuration is read. -/
def storeSettings : ConsoleSettings where
  commands := ⟨[echo, kill], by simp only [ServerSorted, List.pairwise_cons]; decide, by decide⟩
  flagMask := cfgflagServer
  accessLevel := accessLevelAdmin
  storeCommands := true
  svTestingCommands := false

/-- A console with the two commands, whose callbacks do nothing. -/
def storeConsole : Console Unit where
  settings _ := storeSettings
  callback _ _ w := w
  store _ _ w := w
  unknownCommand _ w := w
  isColor _ := false
  validFloat _ := true

/-- `echo hello` -/
def echoLine : LineCall := ⟨true, ofChars ['e', 'c', 'h', 'o', ' ', 'h', 'e', 'l', 'l', 'o'], clientIdNoGame, false⟩

/-- `kill all` -/
def killLine : LineCall := ⟨true, ofChars ['k', 'i', 'l', 'l', ' ', 'a', 'l', 'l'], clientIdNoGame, false⟩

lemma parts_echoLine : echoLine.parts = [(echoLine.str, echoLine.str)] := by
  rw [LineCall.parts, show strStartswith echoLine.str (ofChars ['m', 'c', ';']) = none by decide]
  exact lineParts_none (by decide) (by decide)

lemma parts_killLine : killLine.parts = [(killLine.str, killLine.str)] := by
  rw [LineCall.parts, show strStartswith killLine.str (ofChars ['m', 'c', ';']) = none by decide]
  exact lineParts_none (by decide) (by decide)

lemma params_singleton (c : UInt8) : params [c] = [c] := by
  rw [params, show nextParam [c] = [] from rfl, params]

lemma accepted_echoLine : storeConsole.accepted storeSettings true clientIdNoGame echoLine.str =
    some (echo, ⟨clientIdNoGame, [ofChars ['h', 'e', 'l', 'l', 'o']], victimNone⟩) := by
  have hfind : findCommand storeSettings clientIdNoGame (parseStart echoLine.str).1 = some echo := by decide
  rw [accepted]
  dsimp only
  rw [hfind]
  dsimp only
  rw [if_neg (by decide), if_neg (by decide), if_pos (by decide), parseArgs, echo, params_singleton]
  decide

lemma accepted_killLine : storeConsole.accepted storeSettings true clientIdNoGame killLine.str =
    some (kill, ⟨clientIdNoGame, [ofChars ['a', 'l', 'l']], victimAll⟩) := by
  have hfind : findCommand storeSettings clientIdNoGame (parseStart killLine.str).1 = some kill := by decide
  rw [accepted]
  dsimp only
  rw [hfind]
  dsimp only
  rw [if_neg (by decide), if_neg (by decide), if_pos (by decide), parseArgs, kill, params_singleton]
  decide

lemma keepsSettings_storeConsole : storeConsole.KeepsSettings := fun _ _ _ => rfl

theorem sameCalls_echoLine : storeConsole.SameCalls [echoLine] () := by
  have hfind : findCommand storeSettings clientIdNoGame (parseStart echoLine.str).1 = some echo := by decide
  refine (sameCalls_iff keepsSettings_storeConsole ?_).2 ?_
  · intro line hline part hpart hname
    obtain rfl := List.mem_singleton.1 hline
    rw [parts_echoLine] at hpart
    obtain rfl := List.mem_singleton.1 hpart
    exact ⟨echo, hfind, by decide⟩
  · intro entry hentry
    rw [acceptedLines, List.flatMap_singleton, parts_echoLine, acceptedParts, if_neg (by decide), acceptedParts,
      List.append_nil] at hentry
    obtain rfl := Option.some.inj (accepted_echoLine.symm.trans (Option.mem_toList.1 hentry))
    exact ⟨by rw [echo, params_singleton]; decide, by decide, by decide⟩

/-- A command for all clients is called for each of them at once, but only once from the queue. -/
theorem not_sameCalls_killLine : storeConsole.KeepsSettings ∧
    (∀ line ∈ [killLine], OnlyStores (storeConsole.settings ()) line.clientId line.parts) ∧
      ¬ storeConsole.SameCalls [killLine] () := by
  have hfind : findCommand storeSettings clientIdNoGame (parseStart killLine.str).1 = some kill := by decide
  have hlines : ∀ line ∈ [killLine], OnlyStores (storeConsole.settings ()) line.clientId line.parts := by
    intro line hline part hpart hname
    obtain rfl := List.mem_singleton.1 hline
    rw [parts_killLine] at hpart
    obtain rfl := List.mem_singleton.1 hpart
    exact ⟨kill, hfind, by decide⟩
  have haccepted : storeConsole.accepted (storeConsole.settings ()) killLine.stroke killLine.clientId killLine.str =
      some (kill, ⟨clientIdNoGame, [ofChars ['a', 'l', 'l']], victimAll⟩) := accepted_killLine
  refine ⟨keepsSettings_storeConsole, hlines, fun h => ?_⟩
  have hlength := congrArg List.length (h fun _ => oddLeftover)
  rw [← List.map_map, ← List.map_map, deferredCalls_entry hlines, immediateCalls_entry keepsSettings_storeConsole hlines,
    List.length_map, List.length_map, length_copies, acceptedLines, calledLines, List.flatMap_singleton,
    List.flatMap_singleton, parts_killLine, acceptedParts, calledParts, if_neg (by decide), if_neg (by decide),
    haccepted, acceptedParts, calledParts] at hlength
  exact absurd hlength (by decide)

end Console

end DDNet
