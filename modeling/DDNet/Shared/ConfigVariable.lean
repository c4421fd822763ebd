/-
The string variables of the configuration (`SStringConfigVariable`, `engine/shared/config.cpp`): the line that is saved
for a value, and what the variable is after the console has executed this line.
-/
import DDNet.Base.Truncation
import DDNet.Shared.ConsoleRender

namespace DDNet

/-- The size of the buffers for a line in `CConfigManager::Save` and `SStringConfigVariable::SetValue`. -/
def lineSize : ℕ := 2048

/-- `SStringConfigVariable`.  The names are identifiers, and leave room in the buffers for a line. -/
structure SStringConfigVariable where
  scriptName : List UInt8
  maxSize : ℕ
  readOnly : Bool
  str : List UInt8
  oldValue : List UInt8
  plain : PlainName scriptName
  short : scriptName.length + 3 < lineSize

namespace SStringConfigVariable

/-- `Serialize`: the line for the value, in a buffer of `size` bytes. -/
def serialize (v : SStringConfigVariable) (size : ℕ) (value : List UInt8) : List UInt8 :=
  let out := strAppend (strCopy size v.scriptName) [space, quote] size
  -- one byte is left for the quote at the end
  strAppend (out ++ strEscape (size - out.length - 1) value) [quote] size

/-- `CommandCallback`. -/
def commandCallback (v : SStringConfigVariable) (result : CResult) : SStringConfigVariable :=
  if result.args.length = 0 ∨ v.readOnly = true then
    v
  else
    let str := strCopy v.maxSize (result.getString 0)
    { v with
      str := str
      oldValue := if result.clientId ≠ clientIdGame then strCopy v.maxSize str else v.oldValue }

@[simp] lemma commandCallback_scriptName (v : SStringConfigVariable) (result : CResult) :
    (v.commandCallback result).scriptName = v.scriptName := by
  rw [commandCallback]
  split_ifs <;> rfl

end SStringConfigVariable

/-- The string variables, next to the rest of the program. -/
structure ConfigState (W : Type) where
  allVariables : List SStringConfigVariable
  rest : W

/-- The variable with the name. -/
def ConfigState.findVariable {W : Type} (s : ConfigState W) (name : List UInt8) : Option SStringConfigVariable :=
  s.allVariables.find? fun v => v.scriptName = name

/-- The console on which the variables are registered, next to the other commands. -/
def configConsole {W : Type} (console : Console W) : Console (ConfigState W) where
  settings s := console.settings s.rest
  callback command result s :=
    if (s.findVariable command.name).isSome then
      ⟨s.allVariables.map fun v => if v.scriptName = command.name then v.commandCallback result else v, s.rest⟩
    else
      ⟨s.allVariables, console.callback command result s.rest⟩
  store command result s := ⟨s.allVariables, console.store command result s.rest⟩
  unknownCommand str s := ⟨s.allVariables, console.unknownCommand str s.rest⟩
  isColor := console.isColor
  validFloat := console.validFloat

/-- `ExecuteLine`: the line is pressed, then released. -/
def Console.executeLine {W : Type} (console : Console W) (str : List UInt8) (clientId : ℤ) (interpretSemicolons : Bool)
    (w : W) : W × List (Call W) :=
  let (w', calls) := console.executeLineStroked true str clientId interpretSemicolons w
  let (w'', calls') := console.executeLineStroked false str clientId interpretSemicolons w'
  (w'', calls ++ calls')

/-! ### The line of a value -/

/-- The part of a text that is escaped into a buffer. -/
lemma strEscape_eq_escape (size : ℕ) (src : List UInt8) (hsize : 0 < size) :
    ∃ part, part <+: src ∧ strEscape size src = escape part ∧ (part = src ↔ (escape src).length < size) ∧
      (escape part).length < size := by
  induction src generalizing size with
  | nil => exact ⟨[], List.prefix_refl _, rfl, by simpa [escape] using hsize, hsize⟩
  | cons c src ih =>
    have hstop : ¬(escapeChar c).length < size → ∃ part, part <+: c :: src ∧ [] = escape part ∧
        (part = c :: src ↔ (escape (c :: src)).length < size) ∧ (escape part).length < size := by
      intro h
      refine ⟨[], List.nil_prefix, rfl, iff_of_false (List.cons_ne_nil _ _).symm ?_, hsize⟩
      rw [escape_cons, List.length_append]
      omega
    have hgo : (escapeChar c).length < size → ∃ part, part <+: c :: src ∧
        escapeChar c ++ strEscape (size - (escapeChar c).length) src = escape part ∧
        (part = c :: src ↔ (escape (c :: src)).length < size) ∧ (escape part).length < size := by
      intro h
      obtain ⟨part, hpart, heq, hiff, hlen⟩ := ih (size - (escapeChar c).length) (by omega)
      refine ⟨c :: part, List.cons_prefix_cons.2 ⟨rfl, hpart⟩, by rw [heq, escape_cons], ?_, ?_⟩
      · rw [List.cons.injEq, eq_self, true_and, hiff, escape_cons, List.length_append]
        omega
      · rw [escape_cons, List.length_append]
        omega
    rw [strEscape]
    by_cases hc : c = quote ∨ c = backslash
    · rw [escapeChar, if_pos hc] at hstop hgo
      rw [if_pos hc]
      by_cases h2 : 2 < size
      · rw [if_pos (by omega), if_pos h2]
        exact hgo h2
      · rw [if_neg h2, ite_self]
        exact hstop h2
    · rw [escapeChar, if_neg hc] at hstop hgo
      rw [if_neg hc]
      split_ifs with h1
      · exact hgo h1
      · exact hstop h1

namespace SStringConfigVariable

variable (v : SStringConfigVariable)

/-- The line has the name and a part of the value, which is the whole value if the line with it fits the buffer. -/
lemma serialize_eq (value : List UInt8) :
    ∃ part, part <+: value ∧ v.serialize lineSize value = renderCommand v.scriptName [part] ∧
      (part = value ↔ v.scriptName.length + (escape value).length + 3 < lineSize) ∧
      (renderCommand v.scriptName [part]).length < lineSize := by
  have hshort := v.short
  have hname : strCopy lineSize v.scriptName = v.scriptName := by
    obtain ⟨c, hc⟩ := Option.ne_none_iff_exists'.1 fun h => v.plain.nonempty (List.getLast?_eq_none_iff.1 h)
    obtain ⟨before, hbefore⟩ := List.getLast?_eq_some_iff.1 hc
    rw [strCopy, List.take_of_length_le (by omega), hbefore]
    exact strUtf8FixTruncation_ascii before (v.plain.ascii c (hbefore ▸ List.mem_append_right _ List.mem_cons_self))
  have hout : strAppend v.scriptName [space, quote] lineSize = v.scriptName ++ [space, quote] := by
    refine @strAppend_ascii _ [space] _ _ (by decide) ?_
    rw [List.length_append]
    exact Nat.lt_of_succ_lt hshort
  have hlen : (v.scriptName ++ [space, quote]).length = v.scriptName.length + 2 := List.length_append
  obtain ⟨part, hpart, heq, hiff, hfits⟩ := strEscape_eq_escape (lineSize - (v.scriptName.length + 2) - 1) value
    (by omega)
  have hline : renderCommand v.scriptName [part] = (v.scriptName ++ [space, quote] ++ escape part) ++ [quote] := by
    rw [renderCommand, List.flatMap_singleton, renderArg]
    simp only [List.append_assoc, List.cons_append, List.nil_append]
  have hlength : (renderCommand v.scriptName [part]).length = v.scriptName.length + (escape part).length + 3 := by
    rw [hline, List.length_append, List.length_append, hlen, List.length_singleton]
    omega
  refine ⟨part, hpart, ?_, by rw [hiff]; omega, by omega⟩
  rw [serialize, hname, hout, hlen, heq, hline]
  refine @strAppend_ascii _ [] _ _ (by decide) ?_
  rw [List.nil_append, ← hline]
  omega

end SStringConfigVariable

/-! ### The execution of the line -/

section Execution

variable {W : Type} {console : Console W} {clientId : ℤ} {command : CCommand} {value : List UInt8} {w : W}

lemma lineParts_renderCommand {name : List UInt8} (hname : PlainName name) (value : List UInt8) :
    lineParts true (renderCommand name [value]) = [(renderCommand name [value], renderCommand name [value])] := by
  have hsafe : ArgsSafe false [value] := ⟨fun h => Bool.noConfusion h, trivial⟩
  have hsplit := splitPart_renderCommand hname hsafe []
  rw [List.append_nil, prependPart, splitPart, List.append_nil] at hsplit
  rw [lineParts_none (renderCommand_ne_nil hname _) (by rw [hsplit]), hsplit]

/-- When the line is released, commands that are no stroke commands do nothing. -/
lemma executePart_release (hname : PlainName command.name) {part argsStart : List UInt8}
    (hpart : parseStart part = (command.name, argsStart)) (str : List UInt8) (w : W) :
    ∃ goesOn, console.executePart false clientId part str w = (w, [], goesOn) := by
  have hstroke : (command.name.head? == some 43) = false := beq_false_of_ne hname.noStroke
  rw [Console.executePart, hpart]
  dsimp only
  rw [if_neg hname.nonempty]
  rcases Console.findCommand (console.settings w) clientId command.name with _ | found
  · exact ⟨true, by rw [if_neg Bool.false_ne_true]⟩
  · refine ⟨true, ?_⟩
    simp only [hstroke, Bool.or_self, Bool.false_eq_true, if_false, ite_self]

/-- A line with one command runs its callback, and nothing else. -/
lemma executeLine_renderCommand (hrender : Renderable command [value])
    (hruns : Runs (console.settings w) clientId command) :
    console.executeLine (renderCommand command.name [value]) clientId true w =
      (console.callback command (stringResult clientId [value]) w, [⟨w, command, stringResult clientId [value]⟩]) := by
  have hprefix : strStartswith (renderCommand command.name [value]) (ofChars ['m', 'c', ';']) = none :=
    @strStartswith_renderLine [(command, [value])] (by simpa using hrender)
  have hparts := lineParts_renderCommand hrender.name value
  have hstart := parseStart_eq hrender.name (head?_flatMap_renderArg [value])
    (strCopy_part (renderCommand_last hrender.name [value]) hrender.fits)
  rw [← renderCommand] at hstart
  obtain ⟨goesOn, hrelease⟩ := @executePart_release _ console clientId _ hrender.name _ _ hstart
    (renderCommand command.name [value]) (console.callback command (stringResult clientId [value]) w)
  rw [Console.executeLine]
  simp only [Console.executeLineStroked, hprefix, hparts, Console.executeParts, executePart_render hrender hruns,
    if_true, List.append_nil]
  simp only [hrelease, List.append_nil]
  rcases goesOn with _ | _ <;> rfl

/-! ### What the variable is after that -/

/-- The registered command of a variable. -/
structure IsCommand (v : SStringConfigVariable) (command : CCommand) : Prop where
  name : command.name = v.scriptName
  string : command.params = ofChars ['?', 'r']

lemma IsCommand.renderable {v : SStringConfigVariable} (h : IsCommand v command)
    (hfits : (renderCommand v.scriptName [value]).length ≤ consoleMaxStrLength) : Renderable command [value] := by
  have hnext : nextParam (ofChars ['?', 'r']) = ofChars ['r'] := by decide
  have hlast : nextParam (ofChars ['r']) = [] := by decide
  have hparams : params command.params = [63, 114] := by
    have hfirst : params (ofChars ['?', 'r']) = 63 :: params (nextParam (ofChars ['?', 'r'])) := by
      exact params.eq_2 _ _
    have hsecond : params (ofChars ['r']) = 114 :: params (nextParam (ofChars ['r'])) := by exact params.eq_2 _ _
    rw [h.string, hfirst, hnext, hsecond, hlast, params]
  refine ⟨h.name ▸ v.plain, ?_, by rw [hparams]; exact Nat.zero_le _, by rw [hparams]; exact le_rfl, h.name ▸ hfits⟩
  rw [StringParams, hparams]
  exact List.all_iff_forall_prop.1 (by decide)

variable {s : ConfigState W} {v : SStringConfigVariable}

/-- The line for the value is not cut, and when it is executed the callback of the variable is all that runs, with the
value, which is then the value of the variable; nothing else changes. -/
def LoadsBack (console : Console W) (clientId : ℤ) (s : ConfigState W) (v : SStringConfigVariable)
    (command : CCommand) (value : List UInt8) : Prop :=
  let line := v.serialize lineSize value
  let (s', calls) := (configConsole console).executeLine line clientId true s
  line = renderCommand v.scriptName [value] ∧ ran calls = [(command, [value])] ∧ s'.rest = s.rest ∧
    (∀ name ≠ v.scriptName, s'.findVariable name = s.findVariable name) ∧
    ∃ v', s'.findVariable v.scriptName = some v' ∧ v'.str = value

/-- The callback of a variable changes this variable. -/
lemma findVariable_callback (hv : s.findVariable v.scriptName = some v) (hcommand : command.name = v.scriptName)
    (result : CResult) (name : List UInt8) :
    ((configConsole console).callback command result s).rest = s.rest ∧
      ((configConsole console).callback command result s).findVariable name =
        (s.findVariable name).map fun u => if u.scriptName = v.scriptName then u.commandCallback result else u := by
  have hcallback : (configConsole console).callback command result s =
      ⟨s.allVariables.map fun u => if u.scriptName = v.scriptName then u.commandCallback result else u, s.rest⟩ := by
    simp only [configConsole, hcommand, hv, Option.isSome_some, if_true]
  have hkeep : ∀ u : SStringConfigVariable,
      (if u.scriptName = v.scriptName then u.commandCallback result else u).scriptName = u.scriptName := by
    intro u
    split_ifs
    · exact SStringConfigVariable.commandCallback_scriptName u result
    · rfl
  rw [hcallback]
  refine ⟨rfl, ?_⟩
  rw [ConfigState.findVariable, ConfigState.findVariable, List.find?_map]
  simp only [Function.comp_def, hkeep]

/-- What the line for the value does: the callback runs with a part of the value, which is the value if the line fits. -/
lemma executeLine_serialize (hcommand : IsCommand v command) (hruns : Runs (console.settings s.rest) clientId command)
    (value : List UInt8) : ∃ part, v.serialize lineSize value = renderCommand v.scriptName [part] ∧
      (part = value ↔ v.scriptName.length + (escape value).length + 3 < lineSize) ∧
      (configConsole console).executeLine (v.serialize lineSize value) clientId true s =
        ((configConsole console).callback command (stringResult clientId [part]) s,
          [⟨s, command, stringResult clientId [part]⟩]) := by
  obtain ⟨part, -, hline, hiff, hsize⟩ := v.serialize_eq value
  have hrender : Renderable command [part] :=
    hcommand.renderable (hsize.le.trans (by rw [lineSize, consoleMaxStrLength]; omega))
  have hexec := @executeLine_renderCommand _ (configConsole console) clientId command part s hrender hruns
  rw [hcommand.name, ← hline] at hexec
  exact ⟨part, hline, hiff, hexec⟩

/-- The callback does not get a value whose line is cut. -/
lemma not_loadsBack_of_cut (hcommand : IsCommand v command) (hruns : Runs (console.settings s.rest) clientId command)
    (hcut : ¬v.scriptName.length + (escape value).length + 3 < lineSize) :
    ¬LoadsBack console clientId s v command value := by
  obtain ⟨part, -, hiff, hexec⟩ := @executeLine_serialize _ console clientId command s v hcommand hruns value
  rw [LoadsBack, hexec]
  rintro ⟨-, hran, -⟩
  rw [ran, List.map_singleton, List.singleton_inj, Prod.mk.injEq] at hran
  exact hcut (hiff.1 (List.singleton_inj.1 hran.2))

/-- What the callback stores of a valid value that is shorter than `m_MaxSize`. -/
lemma str_commandCallback (hvalue : ∀ b ∈ value, b ≠ 0) (hvalid : Utf8.strUtf8Check value = true)
    (hlen : value.length < v.maxSize) :
    (v.commandCallback (stringResult clientId [value])).str = if v.readOnly then v.str else value := by
  have hcopy : strCopy v.maxSize ((stringResult clientId [value]).getString 0) = value :=
    strCopy_of_valid hvalue hvalid hlen
  have hargs : (stringResult clientId [value]).args.length ≠ 0 := Nat.one_ne_zero
  rw [SStringConfigVariable.commandCallback]
  by_cases hro : v.readOnly = true
  · rw [if_pos (.inr hro), if_pos hro]
  · rw [if_neg (not_or.2 ⟨hargs, hro⟩), if_neg hro]
    exact hcopy

/-- A string variable is loaded back from the line that was saved for a valid value that is shorter than `m_MaxSize`, if
and only if the line fits the buffer and the variable is not read-only with another value. -/
theorem loadsBack_iff (console : Console W) (clientId : ℤ) (s : ConfigState W) (v : SStringConfigVariable)
    (command : CCommand) (value : List UInt8) (hv : s.findVariable v.scriptName = some v)
    (hcommand : IsCommand v command) (hruns : Runs (console.settings s.rest) clientId command)
    (hvalue : ∀ b ∈ value, b ≠ 0) (hvalid : Utf8.strUtf8Check value = true) (hlen : value.length < v.maxSize) :
    LoadsBack console clientId s v command value ↔
      v.scriptName.length + (escape value).length + 3 < lineSize ∧ (v.readOnly = true → v.str = value) := by
  by_cases hfits : v.scriptName.length + (escape value).length + 3 < lineSize
  swap
  · exact iff_of_false (not_loadsBack_of_cut hcommand hruns hfits) fun h => hfits h.1
  obtain ⟨part, hline, hiff, hexec⟩ := @executeLine_serialize _ console clientId command s v hcommand hruns value
  obtain rfl := hiff.2 hfits
  have hcallback := @findVariable_callback _ console _ _ _ hv hcommand.name (stringResult clientId [part])
  have hfind : (s.findVariable v.scriptName).map (fun u => if u.scriptName = v.scriptName then
      u.commandCallback (stringResult clientId [part]) else u) =
        some (v.commandCallback (stringResult clientId [part])) := by
    rw [hv, Option.map_some, if_pos rfl]
  have hstr := @str_commandCallback clientId _ _ hvalue hvalid hlen
  rw [LoadsBack, hexec]
  constructor
  · rintro ⟨-, -, -, -, v', hv', hvalue'⟩
    rw [(hcallback _).2, hfind] at hv'
    rw [← Option.some.inj hv', hstr] at hvalue'
    refine ⟨hfits, fun hro => ?_⟩
    rwa [if_pos hro] at hvalue'
  · rintro ⟨-, hro⟩
    refine ⟨hline, rfl, (hcallback []).1, ?_, _, (hcallback _).2.trans hfind, ?_⟩
    · intro name hname
      rw [(hcallback name).2]
      rcases hfound : s.findVariable name with _ | u
      · rfl
      · have hu : u.scriptName = name := by simpa using List.find?_some hfound
        rw [Option.map_some, if_neg (hu ▸ hname)]
    · rw [hstr]
      split_ifs with h
      · exact hro h
      · rfl

end Execution

lemma length_escape_le (text : List UInt8) : (escape text).length ≤ 2 * text.length := by
  induction text with
  | nil => exact le_rfl
  | cons c text ih =>
    have hc : (escapeChar c).length ≤ 2 := by
      rw [escapeChar]
      split_ifs <;> simp
    rw [escape_cons, List.length_append, List.length_cons]
    omega

/-- All values of a variable are loaded back whose lines fit the buffer even if every character is escaped. -/
theorem fits_of_maxSize (v : SStringConfigVariable) (hmax : v.scriptName.length + 2 * (v.maxSize - 1) + 3 < lineSize)
    {value : List UInt8} (hlen : value.length < v.maxSize) :
    v.scriptName.length + (escape value).length + 3 < lineSize := by
  have := length_escape_le value
  omega

/-! ### The address in the menu -/

/-- `CFGFLAG_SAVE | CFGFLAG_CLIENT | CFGFLAG_INSENSITIVE`. -/
def uiServerAddressFlags : ℕ := 1 ||| 2 ||| 8192

/-- `ui_server_address` with its default, `localhost:8303`. -/
def uiServerAddress : SStringConfigVariable where
  scriptName := ofChars ['u', 'i', '_', 's', 'e', 'r', 'v', 'e', 'r', '_', 'a', 'd', 'd', 'r', 'e', 's', 's']
  maxSize := 1024
  readOnly := false
  str := ofChars ['l', 'o', 'c', 'a', 'l', 'h', 'o', 's', 't', ':', '8', '3', '0', '3']
  oldValue := ofChars ['l', 'o', 'c', 'a', 'l', 'h', 'o', 's', 't', ':', '8', '3', '0', '3']
  plain := {
    nonempty := by decide
    ascii := List.all_iff_forall_prop.1 (by decide)
    noSpace := List.all_iff_forall_prop.1 (by decide)
    noQuote := by decide
    noBackslash := by decide
    noSeparator := List.all_iff_forall_prop.1 (by decide)
    noStroke := by decide
    noPrefix := by decide }
  short := by decide

/-- The command of `ui_server_address`. -/
def uiServerAddressCommand : CCommand where
  name := uiServerAddress.scriptName
  params := ofChars ['?', 'r']
  help := ofChars ['I', 'n', 't', 'e', 'r', 'f', 'a', 'c', 'e', ' ', 's', 'e', 'r', 'v', 'e', 'r', ' ',
    'a', 'd', 'd', 'r', 'e', 's', 's']
  flags := uiServerAddressFlags
  accessLevel := accessLevelAdmin

/-- The console of a client with the one command. -/
def clientConsole : Console Unit where
  settings _ := {
    commands := ⟨[uiServerAddressCommand], List.pairwise_singleton _ _, by decide⟩
    flagMask := 2
    accessLevel := accessLevelAdmin
    storeCommands := false
    svTestingCommands := false }
  callback _ _ w := w
  store _ _ w := w
  unknownCommand _ w := w
  isColor _ := false
  validFloat _ := true

lemma isCommand_uiServerAddress : IsCommand uiServerAddress uiServerAddressCommand := ⟨rfl, rfl⟩

lemma runs_clientConsole : Runs (clientConsole.settings ()) clientIdNoGame uiServerAddressCommand := by
  constructor <;> decide

lemma findVariable_uiServerAddress :
    (⟨[uiServerAddress], ()⟩ : ConfigState Unit).findVariable uiServerAddress.scriptName = some uiServerAddress := by
  rw [ConfigState.findVariable, List.find?_cons_of_pos (by simp)]

/-- A value that ends in a backslash and has a quote, a separator and a blank in it. -/
theorem loadsBack_address :
    LoadsBack clientConsole clientIdNoGame ⟨[uiServerAddress], ()⟩ uiServerAddress uiServerAddressCommand
      (ofChars ['"', ';', '#', ' ', '\\']) :=
  (loadsBack_iff clientConsole clientIdNoGame ⟨[uiServerAddress], ()⟩ uiServerAddress uiServerAddressCommand _
    findVariable_uiServerAddress isCommand_uiServerAddress runs_clientConsole (by decide +kernel)
    (Utf8.strUtf8Check_encode ['"', ';', '#', ' ', '\\']) (by decide)).2
    ⟨by decide +kernel, fun h => absurd h (by decide)⟩

/-- An address of 1023 quotes is cut when it is saved. -/
theorem not_loadsBack_quotes :
    (List.replicate 1023 quote).length < uiServerAddress.maxSize ∧
    Utf8.strUtf8Check (List.replicate 1023 quote) = true ∧
      ¬LoadsBack clientConsole clientIdNoGame ⟨[uiServerAddress], ()⟩ uiServerAddress uiServerAddressCommand
        (List.replicate 1023 quote) := by
  have hvalid : Utf8.strUtf8Check (List.replicate 1023 quote) = true := by
    have hcheck := Utf8.strUtf8Check_encode (List.replicate 1023 '"')
    rwa [Utf8.encode, List.flatMap_replicate, show String.utf8EncodeChar '"' = [quote] from rfl,
      List.flatten_replicate_singleton] at hcheck
  have hlength : ∀ n, (escape (List.replicate n quote)).length = 2 * n := by
    intro n
    induction n with
    | zero => rfl
    | succ n ih =>
      rw [List.replicate_succ, escape_cons, List.length_append, ih, escapeChar, if_pos (.inl rfl)]
      exact Nat.add_comm _ _
  have hshort : (List.replicate 1023 quote).length < uiServerAddress.maxSize := by
    rw [List.length_replicate]
    decide
  refine ⟨hshort, hvalid, not_loadsBack_of_cut isCommand_uiServerAddress runs_clientConsole ?_⟩
  rw [hlength]
  decide

end DDNet
