/-
The settings of a map (`SIntConfigVariable` and `CConfigManager::ResetGameSettings`, `engine/shared/config.cpp`).

All variables that a map may set are integers.  Each one has a shadow with the value that was last set from elsewhere,
to which it goes back when the map is left.  `reset` and `toggle` set a variable by executing its command on behalf of
the map, also when they come from elsewhere, and leave the shadow behind; everything else keeps it up to date
(`run_resetGameSettings`).
-/
import DDNet.Shared.ConsoleInteger

namespace DDNet

open Lib.Json (decimal decimal_of_lt decimal_of_le integer)

/-! ### The variables -/

/-- `CMDLINE_LENGTH`. -/
def cmdlineLength : ℕ := 512

/-- What is fixed of an `SIntConfigVariable`. -/
structure SIntConfigVariable where
  scriptName : List UInt8
  flags : ℕ
  default : ℤ
  min : ℤ
  max : ℤ
  readOnly : Bool

/-- A variable that a map may set: the flags are `CFGFLAG_SERVER | CFGFLAG_GAME` for all of them, and the names are
identifiers that leave room in the buffer for a line. -/
structure GameVariable extends SIntConfigVariable where
  plain : PlainName scriptName
  short : scriptName.length + 13 ≤ cmdlineLength
  flags_eq : flags = cfgflagServer ||| cfgflagGame
  default_range : -2 ^ 31 ≤ default ∧ default < 2 ^ 31
  noManager : scriptName ≠ ofChars "reset".toList ∧ scriptName ≠ ofChars "toggle".toList

/-- The values and the shadows of the variables, by their names, next to the rest of the program. -/
structure GameConfig (W : Type) where
  value : List UInt8 → ℤ
  oldValue : List UInt8 → ℤ
  rest : W

namespace SIntConfigVariable

variable {W : Type} (this : SIntConfigVariable)

/-- The clamping in `CommandCallback`. -/
def clampValue (value : ℤ) : ℤ :=
  if this.min ≠ this.max then
    let value := if value < this.min then this.min else value
    if this.max ≠ 0 ∧ this.max < value then this.max else value
  else value

/-- `CommandCallback`. -/
def commandCallback (result : CResult) (s : GameConfig W) : GameConfig W :=
  if result.args.length = 0 ∨ this.readOnly = true then s
  else
    let value := this.clampValue (result.getInteger 0)
    { s with
      value := Function.update s.value this.scriptName value
      oldValue :=
        if result.clientId ≠ clientIdGame then Function.update s.oldValue this.scriptName value else s.oldValue }

/-- `Serialize`. -/
def serialize (value : ℤ) : List UInt8 := strCopy cmdlineLength (integerLine this.scriptName value)

/-- `SetValue`, where `executeLine` is that of the console; `SConfigVariable::ExecuteLine` chooses the client id. -/
def setValue (executeLine : List UInt8 → ℤ → GameConfig W → GameConfig W) (value : ℤ) (s : GameConfig W) :
    GameConfig W :=
  if this.readOnly = true then s
  else executeLine (this.serialize value) (if this.flags &&& cfgflagGame ≠ 0 then clientIdGame else -1) s

/-- The value that `Con_Toggle` sets. -/
def toggled (result : CResult) (s : GameConfig W) : ℤ :=
  let equalToFirst := s.value this.scriptName = result.getInteger 1
  result.getInteger (if equalToFirst then 2 else 1)

end SIntConfigVariable

section Settings

variable {W : Type} (console : Console W) (gameVariables : List GameVariable)

/-- The variable that `reset` and `toggle` find. -/
def findVariable (flagMask : ℕ) (name : List UInt8) : Option GameVariable :=
  gameVariables.find? fun v => v.flags &&& flagMask ≠ 0 ∧ v.scriptName = name

/-- The console on which the variables are registered, next to the other commands, with the `executeLine` that its
callbacks use. -/
def settingsConsole (executeLine : List UInt8 → ℤ → GameConfig W → GameConfig W) : Console (GameConfig W) where
  settings s := console.settings s.rest
  callback command result s :=
    let other := { s with rest := console.callback command result s.rest }
    let found := findVariable gameVariables (console.settings s.rest).flagMask (result.getString 0)
    if command.name = ofChars "reset".toList then
      found.elim other fun v => v.setValue executeLine v.default s
    else if command.name = ofChars "toggle".toList then
      found.elim other fun v => v.setValue executeLine (v.toggled result s) s
    else
      (gameVariables.find? fun v => v.scriptName = command.name).elim other fun v => v.commandCallback result s
  store command result s := { s with rest := console.store command result s.rest }
  unknownCommand str s := { s with rest := console.unknownCommand str s.rest }
  isColor := console.isColor
  validFloat := console.validFloat

/-- The console, whose callbacks execute lines on the console again, down to some depth. -/
def gameConsole : ℕ → Console (GameConfig W)
  | 0 => settingsConsole console gameVariables fun _ _ s => s
  | depth + 1 =>
    settingsConsole console gameVariables fun line clientId s => ((gameConsole depth).executeLine line clientId true s).1

/-- `ResetGameSettings`. -/
def resetGameSettings (s : GameConfig W) : GameConfig W :=
  { s with
    value := gameVariables.foldl (fun value v => Function.update value v.scriptName (s.oldValue v.scriptName)) s.value }

/-! ### Runs -/

/-- A line that is executed, for a map with `CLIENT_ID_GAME`, the end of a map, and whatever else the program does. -/
inductive GameEvent (W : Type)
  | line (str : List UInt8) (clientId : ℤ) (interpretSemicolons : Bool)
  | mapEnd
  | program (f : W → W)

/-- The state after an event, and the callbacks that ran. -/
def GameEvent.step (depth : ℕ) (s : GameConfig W) : GameEvent W → GameConfig W × List (Call (GameConfig W))
  | .line str clientId interpretSemicolons =>
    (gameConsole console gameVariables (depth + 1)).executeLine str clientId interpretSemicolons s
  | .mapEnd => (resetGameSettings gameVariables s, [])
  | .program f => ({ s with rest := f s.rest }, [])

/-- `SetValue` sets the value, as far as the level of the command permits it and the value can be given in a line. -/
def Sets (v : GameVariable) (value : ℤ) (s : GameConfig W) : Prop :=
  v.readOnly = false ∧ value ≠ 2 ^ 31 - 1 ∧ value ≠ -2 ^ 31 ∧
    ((Console.findCommand (console.settings s.rest) clientIdGame v.scriptName).any
      fun command => (console.settings s.rest).accessLevel ≤ command.accessLevel) = true

instance (v : GameVariable) (value : ℤ) (s : GameConfig W) : Decidable (Sets console v value s) := by
  unfold Sets
  infer_instance

/-- The callback is that of `reset` or `toggle`. -/
def IsManager (command : CCommand) : Prop :=
  command.name = ofChars "reset".toList ∨ command.name = ofChars "toggle".toList

instance (command : CCommand) : Decidable (IsManager command) := by
  unfold IsManager
  infer_instance

/-- The variable that a call sets, with the value. -/
def setting (call : Call (GameConfig W)) : Option (GameVariable × ℤ) :=
  let found := findVariable gameVariables (console.settings call.before.rest).flagMask (call.result.getString 0)
  let managed (v : GameVariable) (value : ℤ) :=
    if Sets console v value call.before then some (v, v.clampValue value) else none
  if call.command.name = ofChars "reset".toList then found.bind fun v => managed v v.default
  else if call.command.name = ofChars "toggle".toList then
    found.bind fun v => managed v (v.toggled call.result call.before)
  else
    (gameVariables.find? fun v => v.scriptName = call.command.name).bind fun v =>
      if call.result.args.length = 0 ∨ v.readOnly = true then none
      else some (v, v.clampValue (call.result.getInteger 0))

/-- If the call is a `reset` or a `toggle` from outside of a map, it sets the value that is in the shadow already. -/
def KeepsShadow (call : Call (GameConfig W)) : Prop :=
  call.result.clientId ≠ clientIdGame → IsManager call.command →
    ∀ v value, setting console gameVariables call = some (v, value) → value = call.before.oldValue v.scriptName

/-- The variables are registered with their commands, under different names. -/
structure Registered : Prop where
  names : gameVariables.Pairwise fun v u => v.scriptName ≠ u.scriptName
  command : ∀ w, ∀ v ∈ gameVariables, ∃ command,
    Console.findCommand (console.settings w) clientIdGame v.scriptName = some command ∧
      command.name = v.scriptName ∧ command.params = ofChars ['?', 'i'] ∧ command.flags = v.flags
  integer : ∀ v ∈ gameVariables, ∀ command : CCommand, command.name = v.scriptName → console.isColor command = false

/-! ### What a call sets -/

lemma length_decimal_le {n k : ℕ} (hn : n < 10 ^ (k + 1)) : (decimal n).length ≤ k + 1 := by
  induction k generalizing n with
  | zero =>
    rw [decimal_of_lt (by omega), List.length_singleton]
  | succ k ih =>
    rcases Nat.lt_or_ge n 10 with hlt | hge
    · rw [decimal_of_lt hlt, List.length_singleton]
      omega
    · have hdiv : n / 10 < 10 ^ (k + 1) := by
        rw [Nat.div_lt_iff_lt_mul (by norm_num), ← pow_succ]
        exact hn
      rw [decimal_of_le hge, List.length_append, List.length_singleton]
      exact Nat.succ_le_succ (ih hdiv)

lemma length_integer_le {i : ℤ} (hlow : -2 ^ 31 ≤ i) (hhigh : i < 2 ^ 31) : (integer i).length ≤ 11 := by
  have hdecimal : (decimal i.natAbs).length ≤ 9 + 1 := length_decimal_le (by omega)
  rw [integer]
  split_ifs
  · rw [List.length_cons]
    omega
  · omega

lemma GameVariable.length_integerLine (v : GameVariable) {value : ℤ} (hlow : -2 ^ 31 ≤ value)
    (hhigh : value < 2 ^ 31) : (integerLine v.scriptName value).length < cmdlineLength := by
  have hinteger := length_integer_le hlow hhigh
  have hshort := v.short
  rw [integerLine, List.length_append, List.length_cons]
  omega

/-- The line fits the buffer. -/
lemma GameVariable.serialize_eq (v : GameVariable) {value : ℤ} (hlow : -2 ^ 31 ≤ value) (hhigh : value < 2 ^ 31) :
    v.serialize value = integerLine v.scriptName value := by
  have hfits := v.length_integerLine hlow hhigh
  obtain ⟨before, c, heq⟩ := List.eq_nil_or_concat (integer value) |>.resolve_left (integer_ne_nil value)
  rw [List.concat_eq_append] at heq
  have hc : c ∈ integer value := heq ▸ List.mem_append_right before List.mem_cons_self
  have hline : integerLine v.scriptName value = (v.scriptName ++ space :: before) ++ [c] := by
    rw [integerLine, heq, List.append_assoc, List.cons_append]
  rw [hline] at hfits
  obtain ⟨after, hafter, hcopy⟩ := @strCopy_ascii _ [] _ _ (integer_plain hc).1 hfits
  obtain rfl := List.prefix_nil.1 hafter
  rw [SIntConfigVariable.serialize, hline, hcopy]

variable {console gameVariables} {depth : ℕ}

lemma Registered.find_eq (hregistered : Registered console gameVariables) {v : GameVariable} (hv : v ∈ gameVariables) :
    (gameVariables.find? fun u => u.scriptName = v.scriptName) = some v := by
  have hnames := hregistered.names
  clear hregistered
  induction gameVariables with
  | nil => exact absurd hv List.not_mem_nil
  | cons u gameVariables ih =>
    rw [List.pairwise_cons] at hnames
    rcases List.mem_cons.1 hv with rfl | hv
    · rw [List.find?_cons_of_pos (by simp)]
    · rw [List.find?_cons_of_neg (by simpa using hnames.1 v hv)]
      exact ih hv hnames.2

lemma gameConsole_settings (s : GameConfig W) :
    (gameConsole console gameVariables depth).settings s = console.settings s.rest := by
  cases depth <;> rfl

lemma gameConsole_isColor (command : CCommand) :
    (gameConsole console gameVariables depth).isColor command = console.isColor command := by
  cases depth <;> rfl

/-- The callback of a variable, at every depth. -/
lemma gameConsole_callback_variable (hregistered : Registered console gameVariables) {v : GameVariable}
    (hv : v ∈ gameVariables) {command : CCommand} (hname : command.name = v.scriptName) (result : CResult)
    (s : GameConfig W) :
    (gameConsole console gameVariables depth).callback command result s = v.commandCallback result s := by
  have hfind := hregistered.find_eq hv
  cases depth <;>
    simp only [gameConsole, settingsConsole, hname, v.noManager.1, v.noManager.2, if_false, hfind, Option.elim_some]

/-- `SetValue` sets the value, but not the shadow. -/
lemma setValue_eq (hregistered : Registered console gameVariables) {v : GameVariable} (hv : v ∈ gameVariables)
    {value : ℤ} (hlow : -2 ^ 31 ≤ value) (hhigh : value < 2 ^ 31) (s : GameConfig W) :
    v.setValue (fun line clientId s => ((gameConsole console gameVariables depth).executeLine line clientId true s).1)
        value s =
      if Sets console v value s then { s with value := Function.update s.value v.scriptName (v.clampValue value) }
      else s := by
  rw [SIntConfigVariable.setValue]
  by_cases hreadOnly : v.readOnly = true
  · rw [if_pos hreadOnly, if_neg fun h => absurd (hreadOnly.symm.trans h.1) Bool.noConfusion]
  obtain ⟨command, hfound, hname, hparams, hflags⟩ := hregistered.command s.rest v hv
  have hgame : v.flags &&& cfgflagGame ≠ 0 := by rw [v.flags_eq]; decide
  have hflag (mask : ℕ) (hmask : (cfgflagServer ||| cfgflagGame) &&& mask = 0) : command.hasFlag mask = false := by
    rw [CCommand.hasFlag, hflags, v.flags_eq, hmask]
    rfl
  have hruns (haccess : (console.settings s.rest).accessLevel ≤ command.accessLevel) :
      Runs (console.settings s.rest) clientIdGame command := by
    refine ⟨hname ▸ hfound, fun _ => ?_, fun h => absurd h (by decide), haccess, ?_, ?_⟩
    · rw [CCommand.hasFlag, hflags, v.flags_eq]
      decide
    · rw [hflag cfgflagStore (by decide), Bool.and_false]
    · rw [hflag cmdflagTest (by decide), Bool.false_and]
  have hline := v.length_integerLine hlow hhigh
  have hexec := congrArg Prod.fst <| @executeLine_integerLine _ (gameConsole console gameVariables depth) clientIdGame
    value command s (hname ▸ v.plain)
    (by rw [hname, consoleMaxStrLength]; rw [cmdlineLength] at hline; omega) hparams
    (by rw [gameConsole_isColor, hregistered.integer v hv command hname])
    (by rw [gameConsole_settings]; exact hruns) (by rw [gameConsole_settings]; exact hname ▸ hfound) hlow hhigh
  have hcallback : (gameConsole console gameVariables depth).callback command (integerResult clientIdGame value) s =
      v.commandCallback (integerResult clientIdGame value) s :=
    gameConsole_callback_variable hregistered hv hname _ s
  have hset : v.commandCallback (integerResult clientIdGame value) s =
      { s with value := Function.update s.value v.scriptName (v.clampValue value) } := by
    have hargs : ¬ ((integerResult clientIdGame value).args.length = 0 ∨ v.readOnly = true) :=
      fun h => h.elim (fun h => absurd h (by simp [integerResult])) hreadOnly
    have hvalue : (integerResult clientIdGame value).getInteger 0 = value :=
      (if_pos (by simp [integerResult])).trans (strToint_integer hlow hhigh)
    rw [SIntConfigVariable.commandCallback, if_neg hargs, hvalue]
    rfl
  have hsets : Sets console v value s ↔ (console.settings s.rest).accessLevel ≤ command.accessLevel ∧
      value ≠ 2 ^ 31 - 1 ∧ value ≠ -2 ^ 31 := by
    rw [Sets, hfound, Option.any_some, decide_eq_true_eq, Bool.not_eq_true] at *
    tauto
  rw [if_neg hreadOnly, if_pos hgame, v.serialize_eq hlow hhigh, ← hname, hexec, gameConsole_settings, hcallback, hset,
    apply_ite Prod.fst]
  exact if_congr hsets.symm (by rw [hname]) rfl

lemma mem_of_findVariable {flagMask : ℕ} {name : List UInt8} {v : GameVariable}
    (h : findVariable gameVariables flagMask name = some v) : v ∈ gameVariables := List.mem_of_find?_eq_some h

/-- What a callback does to the variables: the one it sets gets its value, and the shadow follows unless this is a
`reset` or a `toggle`, or the callback is called for a map. -/
lemma callback_eq (hregistered : Registered console gameVariables) (command : CCommand) (result : CResult)
    (s : GameConfig W) :
    ((gameConsole console gameVariables (depth + 1)).callback command result s).oldValue =
      (setting console gameVariables ⟨s, command, result⟩).elim s.oldValue fun x =>
        if result.clientId = clientIdGame ∨ IsManager command then s.oldValue
        else Function.update s.oldValue x.1.scriptName x.2 := by
  have hmanaged (hmanager : IsManager command) {v : GameVariable} (hv : v ∈ gameVariables) {value : ℤ}
      (hrange : -2 ^ 31 ≤ value ∧ value < 2 ^ 31) :
      (v.setValue (fun line clientId s =>
          ((gameConsole console gameVariables depth).executeLine line clientId true s).1) value s).oldValue =
        (if Sets console v value s then some (v, v.clampValue value) else none).elim s.oldValue fun x =>
          if result.clientId = clientIdGame ∨ IsManager command then s.oldValue
          else Function.update s.oldValue x.1.scriptName x.2 := by
    rw [setValue_eq hregistered hv hrange.1 hrange.2]
    by_cases hsets : Sets console v value s
    · rw [if_pos hsets, if_pos hsets, Option.elim_some, if_pos (.inr hmanager)]
    · rw [if_neg hsets, if_neg hsets, Option.elim_none]
  rw [gameConsole, settingsConsole, setting]
  dsimp only
  by_cases hreset : command.name = ofChars "reset".toList
  · rw [if_pos hreset, if_pos hreset]
    cases hfound : findVariable gameVariables (console.settings s.rest).flagMask (result.getString 0) with
    | none => rfl
    | some v => exact hmanaged (.inl hreset) (mem_of_findVariable hfound) v.default_range
  · rw [if_neg hreset, if_neg hreset]
    by_cases htoggle : command.name = ofChars "toggle".toList
    · rw [if_pos htoggle, if_pos htoggle]
      cases hfound : findVariable gameVariables (console.settings s.rest).flagMask (result.getString 0) with
      | none => rfl
      | some v => exact hmanaged (.inr htoggle) (mem_of_findVariable hfound) (getInteger_range result _)
    · rw [if_neg htoggle, if_neg htoggle]
      have hmanager : ¬ IsManager command := fun h => h.elim hreset htoggle
      cases gameVariables.find? fun v => v.scriptName = command.name with
      | none => rfl
      | some v =>
        rw [Option.elim_some, Option.bind_some, SIntConfigVariable.commandCallback]
        by_cases hskip : result.args.length = 0 ∨ v.readOnly = true
        · rw [if_pos hskip, if_pos hskip]
          rfl
        · rw [if_neg hskip, if_neg hskip, Option.elim_some]
          dsimp only
          by_cases hgame : result.clientId = clientIdGame
          · have hshadow : ¬ result.clientId ≠ clientIdGame := not_not.2 hgame
            rw [if_neg hshadow, if_pos (Or.inl hgame)]
          · have hneither : ¬ (result.clientId = clientIdGame ∨ IsManager command) := fun h => h.elim hgame hmanager
            rw [if_neg hneither, if_pos hgame]

/-! ### The shadows along a run -/

/-- The shadows hold the values. -/
def Shadowed (gameVariables : List GameVariable) (value : List UInt8 → ℤ) (s : GameConfig W) : Prop :=
  ∀ v ∈ gameVariables, s.oldValue v.scriptName = value v.scriptName

/-- A call keeps the shadows at the values last set outside of a map. -/
lemma Shadowed.call (hregistered : Registered console gameVariables) {value : List UInt8 → ℤ} {s : GameConfig W}
    (h : Shadowed gameVariables value s) {command : CCommand} {result : CResult}
    (hkeeps : KeepsShadow console gameVariables ⟨s, command, result⟩) :
    Shadowed gameVariables
      (if result.clientId = clientIdGame then value
        else (setting console gameVariables ⟨s, command, result⟩).elim value fun x =>
          Function.update value x.1.scriptName x.2)
      ((gameConsole console gameVariables (depth + 1)).callback command result s) := by
  intro u hu
  rw [callback_eq hregistered]
  by_cases hgame : result.clientId = clientIdGame
  · rw [if_pos hgame]
    cases setting console gameVariables ⟨s, command, result⟩ with
    | none => exact h u hu
    | some x =>
      rw [Option.elim_some, if_pos (.inl hgame)]
      exact h u hu
  · rw [if_neg hgame]
    cases hsetting : setting console gameVariables ⟨s, command, result⟩ with
    | none => exact h u hu
    | some x =>
      rw [Option.elim_some, Option.elim_some]
      by_cases hmanager : IsManager command
      · -- the value is that of the shadow
        have hvalue : x.2 = s.oldValue x.1.scriptName := hkeeps hgame hmanager x.1 x.2 hsetting
        rw [if_pos (.inr hmanager)]
        by_cases hname : u.scriptName = x.1.scriptName
        · rw [hname, Function.update_self, hvalue]
        · rw [Function.update_of_ne hname, h u hu]
      · rw [if_neg fun h => h.elim hgame hmanager]
        by_cases hname : u.scriptName = x.1.scriptName
        · rw [hname, Function.update_self, Function.update_self]
        · rw [Function.update_of_ne hname, Function.update_of_ne hname, h u hu]

/-- A call that does not keep the shadows leaves one behind. -/
theorem Shadowed.call_iff (hregistered : Registered console gameVariables) {value : List UInt8 → ℤ} {s : GameConfig W}
    (h : Shadowed gameVariables value s) (command : CCommand) (result : CResult) :
    Shadowed gameVariables
        (if result.clientId = clientIdGame then value
          else (setting console gameVariables ⟨s, command, result⟩).elim value fun x =>
            Function.update value x.1.scriptName x.2)
        ((gameConsole console gameVariables (depth + 1)).callback command result s) ↔
      KeepsShadow console gameVariables ⟨s, command, result⟩ := by
  refine ⟨fun hafter hgame hmanager v x hsetting => ?_, fun hkeeps => h.call hregistered hkeeps⟩
  have hv : v ∈ gameVariables := by
    rw [setting] at hsetting
    dsimp only at hsetting
    split_ifs at hsetting with hreset htoggle
    · obtain ⟨u, hu, hsets⟩ := Option.bind_eq_some_iff.1 hsetting
      obtain ⟨-, hpair⟩ := Option.ite_none_right_eq_some.1 hsets
      obtain ⟨rfl, -⟩ := Prod.mk.inj (Option.some.inj hpair)
      exact mem_of_findVariable hu
    · obtain ⟨u, hu, hsets⟩ := Option.bind_eq_some_iff.1 hsetting
      obtain ⟨-, hpair⟩ := Option.ite_none_right_eq_some.1 hsets
      obtain ⟨rfl, -⟩ := Prod.mk.inj (Option.some.inj hpair)
      exact mem_of_findVariable hu
    · exact absurd hmanager fun hmanager => hmanager.elim hreset htoggle
  have hold := hafter v hv
  have hshadow : result.clientId = clientIdGame ∨ IsManager command := .inr hmanager
  rw [callback_eq hregistered, hsetting, if_neg hgame, Option.elim_some, Option.elim_some, if_pos hshadow,
    Function.update_self] at hold
  exact hold.symm

end Settings

/-! ### `sv_hit` -/

end DDNet
