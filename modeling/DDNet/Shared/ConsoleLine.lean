/-
The lines of the console (`CConsole`, `engine/shared/console.cpp`): a line is split into commands,
each command into its name and its arguments, and the commands run one after the other.
-/
import DDNet.Base.StrParse
import DDNet.Shared.Console

namespace DDNet

/-- `CONSOLE_MAX_STR_LENGTH`. -/
def consoleMaxStrLength : ℕ := 8192

/-- `CLIENT_ID_GAME`. -/
def clientIdGame : ℤ := -2

/-- `CLIENT_ID_NO_GAME`. -/
def clientIdNoGame : ℤ := -3

/-- `CFGFLAG_STORE`. -/
def cfgflagStore : ℕ := 8

/-- `CMDFLAG_TEST`. -/
def cmdflagTest : ℕ := 64

/-- `CFGFLAG_CHAT`. -/
def cfgflagChat : ℕ := 128

/-- `CFGFLAG_GAME`. -/
def cfgflagGame : ℕ := 256

/-- `VICTIM_NONE`. -/
def victimNone : ℤ := -3

/-- `VICTIM_ME`. -/
def victimMe : ℤ := -2

/-- `VICTIM_ALL`. -/
def victimAll : ℤ := -1

/-- The number of the victims that `VICTIM_ALL` stands for, `MAX_CLIENTS`. -/
def numVictims : ℕ := 64

/-! ### The parts of a line -/

/-- The scanner of `ExecuteLineStroked`: the characters up to `pEnd`, and the next part of the
line. -/
def splitPart (interpretSemicolons : Bool) : Bool → List UInt8 → List UInt8 × Option (List UInt8)
  | _, [] => ([], none)
  | inString, c :: str =>
    if c = quote then
      let (part, next) := splitPart interpretSemicolons (!inString) str
      (c :: part, next)
    else if c = backslash then
      match str with
      | [] => ([c], none)
      | d :: str' =>
        if d = quote then
          let (part, next) := splitPart interpretSemicolons inString str'
          (c :: d :: part, next)
        else
          let (part, next) := splitPart interpretSemicolons inString (d :: str')
          (c :: part, next)
    else if !inString && interpretSemicolons && c == semicolon then
      ([], some str)
    else if !inString && interpretSemicolons && c == hash then
      ([], none)
    else
      let (part, next) := splitPart interpretSemicolons inString str
      (c :: part, next)

/-- The first part of a line and what separates it from the next one. -/
lemma splitPart_spec (interpretSemicolons inString : Bool) (str : List UInt8) :
    (∃ rest, (splitPart interpretSemicolons inString str).2 = some rest ∧
      str = (splitPart interpretSemicolons inString str).1 ++ semicolon :: rest) ∨
    (splitPart interpretSemicolons inString str).2 = none ∧
      (splitPart interpretSemicolons inString str).1 <+: str := by
  fun_induction splitPart interpretSemicolons inString str with
  | case1 => exact .inr ⟨rfl, List.prefix_refl _⟩
  | case2 inString str part next heq ih =>
    rw [heq] at ih
    rcases ih with ⟨rest, hnext, hstr⟩ | ⟨hnext, hpart⟩
    · exact .inl ⟨rest, hnext, congrArg _ hstr⟩
    · exact .inr ⟨hnext, List.cons_prefix_cons.2 ⟨rfl, hpart⟩⟩
  | case3 => exact .inr ⟨rfl, List.prefix_refl _⟩
  | case4 inString str part next heq hquote ih =>
    rw [heq] at ih
    rcases ih with ⟨rest, hnext, hstr⟩ | ⟨hnext, hpart⟩
    · exact .inl ⟨rest, hnext, congrArg (fun str => backslash :: quote :: str) hstr⟩
    · exact .inr ⟨hnext, List.cons_prefix_cons.2 ⟨rfl, List.cons_prefix_cons.2 ⟨rfl, hpart⟩⟩⟩
  | case5 inString d str hd part next heq hquote ih =>
    rw [heq] at ih
    rcases ih with ⟨rest, hnext, hstr⟩ | ⟨hnext, hpart⟩
    · exact .inl ⟨rest, hnext, congrArg (backslash :: ·) hstr⟩
    · exact .inr ⟨hnext, List.cons_prefix_cons.2 ⟨rfl, hpart⟩⟩
  | case6 inString c str hquote hbackslash hsep =>
    rw [Bool.and_eq_true, beq_iff_eq] at hsep
    exact .inl ⟨str, rfl, hsep.2 ▸ rfl⟩
  | case7 => exact .inr ⟨rfl, List.nil_prefix⟩
  | case8 inString c str hquote hbackslash hsep hhash part next heq ih =>
    rw [heq] at ih
    rcases ih with ⟨rest, hnext, hstr⟩ | ⟨hnext, hpart⟩
    · exact .inl ⟨rest, hnext, congrArg (c :: ·) hstr⟩
    · exact .inr ⟨hnext, List.cons_prefix_cons.2 ⟨rfl, hpart⟩⟩

lemma splitPart_length {interpretSemicolons inString : Bool} {str rest : List UInt8}
    (h : (splitPart interpretSemicolons inString str).2 = some rest) : rest.length < str.length := by
  rcases splitPart_spec interpretSemicolons inString str with ⟨next, hnext, hstr⟩ | ⟨hnext, -⟩
  · obtain rfl : next = rest := Option.some_injective _ (hnext.symm.trans h)
    have hlen := congrArg List.length hstr
    rw [List.length_append, List.length_cons] at hlen
    omega
  · exact absurd (h.symm.trans hnext) (Option.some_ne_none _)

/-- The parts of the line, each with the rest of the line that starts with it. -/
def lineParts (interpretSemicolons : Bool) (str : List UInt8) : List (List UInt8 × List UInt8) :=
  if str = [] then
    []
  else
    let part := (splitPart interpretSemicolons false str).1
    match _h : (splitPart interpretSemicolons false str).2 with
    | none => [(part, str)]
    | some next => (part, str) :: lineParts interpretSemicolons next
termination_by str.length
decreasing_by exact splitPart_length _h

lemma lineParts_nil (interpretSemicolons : Bool) : lineParts interpretSemicolons [] = [] := by
  rw [lineParts, if_pos rfl]

lemma lineParts_none {interpretSemicolons : Bool} {str : List UInt8} (hstr : str ≠ [])
    (hnext : (splitPart interpretSemicolons false str).2 = none) : lineParts interpretSemicolons str =
      [((splitPart interpretSemicolons false str).1, str)] := by
  rw [lineParts, if_neg hstr]
  dsimp only
  split
  · rfl
  · next h => exact absurd (h.symm.trans hnext) (Option.some_ne_none _)

lemma lineParts_some {interpretSemicolons : Bool} {str next : List UInt8} (hstr : str ≠ [])
    (hnext : (splitPart interpretSemicolons false str).2 = some next) :
    lineParts interpretSemicolons str =
      ((splitPart interpretSemicolons false str).1, str) :: lineParts interpretSemicolons next := by
  rw [lineParts, if_neg hstr]
  dsimp only
  split
  · next h => exact absurd (hnext.symm.trans h) (Option.some_ne_none _)
  · next rest h => rw [Option.some_injective _ (h.symm.trans hnext)]

/-- `ParseStart`: the command, and where its arguments start. -/
def parseStart (part : List UInt8) : List UInt8 × List UInt8 :=
  let str := strSkipWhitespaces (strCopy (min (consoleMaxStrLength + 1) (part.length + 1)) part)
  (strToken str, (strSkipToWhitespace str).tail)

/-! ### The arguments -/

/-- What follows the bracket contents and the `]`, if there is one. -/
def skipBracket : List UInt8 → List UInt8
  | [] => []
  | c :: format =>
    if c = 93 then (if format.head? = some space then format.tail else format) else skipBracket format

/-- What `NextParam` moves on to. -/
def nextParam (format : List UInt8) : List UInt8 :=
  if format.tail.head? = some 91 then skipBracket format.tail else format.tail

lemma skipBracket_length (format : List UInt8) : (skipBracket format).length ≤ format.length := by
  induction format with
  | nil => exact le_rfl
  | cons c format ih =>
    rw [skipBracket]
    split_ifs
    · exact (List.length_tail ▸ Nat.sub_le _ _ : format.tail.length ≤ format.length).trans
        (Nat.le_succ _)
    · exact Nat.le_succ _
    · exact ih.trans (Nat.le_succ _)

lemma nextParam_length (c : UInt8) (format : List UInt8) :
    (nextParam (c :: format)).length < (c :: format).length := by
  rw [nextParam]
  split_ifs
  · exact Nat.lt_succ_of_le (skipBracket_length _)
  · exact Nat.lt_succ_self _

/-- The parameters that `NextParam` walks through. -/
def params : List UInt8 → List UInt8
  | [] => []
  | c :: format => c :: params (nextParam (c :: format))
termination_by format => format.length
decreasing_by exact nextParam_length c format

/-- `CResult`, where the arguments are kept as the strings that `m_apArgs` points to. -/
structure CResult where
  clientId : ℤ
  args : List (List UInt8)
  victim : ℤ
deriving DecidableEq

namespace CResult

/-- `AddArgument`. -/
def addArgument (result : CResult) (arg : List UInt8) : CResult :=
  { result with args := result.args ++ [arg] }

/-- `SetVictim(int)`. -/
def setVictim (result : CResult) (victim : ℤ) : CResult :=
  { result with victim := clamp victim victimNone (numVictims - 1) }

/-- `SetVictim(const char *)`. -/
def setVictimStr (result : CResult) (victim : List UInt8) : CResult :=
  if victim = ofChars ['m', 'e'] then
    { result with victim := victimMe }
  else if victim = ofChars ['a', 'l', 'l'] then
    { result with victim := victimAll }
  else
    { result with victim := clamp (strToint victim) 0 (numVictims - 1) }

/-- `GetString`. -/
def getString (result : CResult) (index : ℕ) : List UInt8 := result.args.getD index []

/-- `GetInteger`. -/
def getInteger (result : CResult) (index : ℕ) : ℤ :=
  if index < result.args.length then strToint (result.getString index) else 0

end CResult

/-- The quoted argument up to its closing quote, and what follows it. -/
def readQuoted : List UInt8 → Option (List UInt8 × List UInt8)
  | [] => none
  | c :: str =>
    if c = quote then
      some ([], str)
    else if c = backslash then
      match str with
      | [] => none
      | d :: str' =>
        if d = backslash ∨ d = quote then
          (readQuoted str').map fun (arg, rest) => (d :: arg, rest)
        else
          (readQuoted (d :: str')).map fun (arg, rest) => (c :: arg, rest)
    else
      (readQuoted str).map fun (arg, rest) => (c :: arg, rest)

/-- The errors of `ParseArgs`. -/
inductive ParseArgsError where
  | missingValue
  | invalidInteger
  | invalidFloat
deriving DecidableEq

/-- The parameter `i` accepts the argument. -/
def validInteger (arg : List UInt8) : Bool :=
  (strTointWhole arg).any fun value => value != 2 ^ 31 - 1 && value != -2 ^ 31

/-- One parameter with its argument, where the rest of the string is not empty: the result, and the
rest of the string unless the parameter takes it as a whole. -/
def parseArg (validFloat : List UInt8 → Bool) (isColor : Bool) (command : UInt8) (str : List UInt8)
    (result : CResult) : Except ParseArgsError (CResult × Option (List UInt8)) :=
  if str.head? = some quote then
    match readQuoted str.tail with
    | none => .error .missingValue
    | some (arg, rest) => .ok (result.addArgument arg, some rest)
  else if command = 114 then
    .ok (result.addArgument str, none)
  else
    let isToken := command = 118 ∨ command = 105 ∨ command = 102 ∨ command = 115
    let arg := if isToken then strToken str else []
    let rest := if isToken then (strSkipToWhitespace str).tail else str.tail
    if command = 105 ∧ isColor = false ∧ validInteger arg = false then
      .error .invalidInteger
    else if command = 102 ∧ validFloat arg = false then
      .error .invalidFloat
    else
      let result := result.addArgument arg
      .ok (if command = 118 then result.setVictimStr arg else result, some rest)

/-- The loop of `ParseArgs` over the parameters. -/
def parseParams (validFloat : List UInt8 → Bool) (isColor : Bool) :
    Bool → List UInt8 → List UInt8 → CResult → Except ParseArgsError CResult
  | _, [], _, result => .ok result
  | optional, command :: commands, str, result =>
    if command = 63 then
      parseParams validFloat isColor true commands str result
    else
      let str := strSkipWhitespaces str
      if str = [] then
        if optional then
          .ok (if 118 ∈ command :: commands then result.setVictim victimMe else result)
        else
          .error .missingValue
      else
        match parseArg validFloat isColor command str result with
        | .error error => .error error
        | .ok (result, none) => .ok result
        | .ok (result, some rest) => parseParams validFloat isColor optional commands rest result

/-- `ParseArgs`. -/
def parseArgs (validFloat : List UInt8 → Bool) (isColor : Bool) (format str : List UInt8)
    (result : CResult) : Except ParseArgsError CResult :=
  parseParams validFloat isColor false (params format) str { result with victim := victimNone }

/-! ### The execution of a line -/

/-- What `ExecuteLineStroked` reads of the console and of the configuration. -/
structure ConsoleSettings where
  commands : CommandList
  flagMask : ℕ
  accessLevel : ℤ
  storeCommands : Bool
  svTestingCommands : Bool

/-- The console, with a state `W` of the program that its callbacks change.  The callback of a
command and the queue of `m_StoreCommands` take the command with its arguments, the callback for
unknown commands takes the rest of the line. -/
structure Console (W : Type) where
  settings : W → ConsoleSettings
  callback : CCommand → CResult → W → W
  store : CCommand → CResult → W → W
  unknownCommand : List UInt8 → W → W
  isColor : CCommand → Bool
  validFloat : List UInt8 → Bool

/-- A callback that ran: the state before it, its command and its arguments. -/
structure Call (W : Type) where
  before : W
  command : CCommand
  result : CResult

namespace Console

variable {W : Type} (console : Console W)

/-- `FindCommand` with the flag mask for the client id. -/
def findCommand (settings : ConsoleSettings) (clientId : ℤ) (name : List UInt8) : Option CCommand :=
  let flagMask :=
    if clientId = clientIdGame then settings.flagMask ||| cfgflagGame else settings.flagMask
  (settings.commands.findCommand name flagMask).bind fun i => settings.commands.cmds[i]?

/-- The calls of a callback, one after the other. -/
def runCalls (command : CCommand) : List CResult → W → W × List (Call W)
  | [], w => (w, [])
  | result :: results, w =>
    let (w', calls) := runCalls command results (console.callback command result w)
    (w', ⟨w, command, result⟩ :: calls)

/-- What is called for the victim of the command. -/
def victims (clientId : ℤ) (result : CResult) : List CResult :=
  let result := if result.victim = victimMe then result.setVictim clientId else result
  if result.victim = victimAll then
    (List.range numVictims).map fun i => result.setVictim i
  else
    [result]

/-- One round of the loop of `ExecuteLineStroked`, with the part and the rest of the line that
starts with it: the state, the callbacks that ran, and whether the loop goes on. -/
def executePart (stroke : Bool) (clientId : ℤ) (part str : List UInt8) (w : W) :
    W × List (Call W) × Bool :=
  let (name, argsStart) := parseStart part
  let settings := console.settings w
  if name = [] then
    (w, [], false)
  else
    match findCommand settings clientId name with
    | none => (if stroke then console.unknownCommand str w else w, [], true)
    | some command =>
      if clientId = clientIdGame ∧ command.hasFlag cfgflagGame = false then
        (w, [], true)
      else if clientId = clientIdNoGame ∧ command.hasFlag cfgflagGame = true then
        (w, [], true)
      else if settings.accessLevel ≤ command.accessLevel then
        let isStrokeCommand := name.head? == some 43
        let strokeArgs := if isStrokeCommand then [if stroke then [49] else [48]] else []
        if stroke || isStrokeCommand then
          match parseArgs console.validFloat (console.isColor command) command.params argsStart
            ⟨clientId, strokeArgs, victimNone⟩ with
          | .error _ => (w, [], true)
          | .ok result =>
            if settings.storeCommands && command.hasFlag cfgflagStore then
              (console.store command result w, [], true)
            else if command.hasFlag cmdflagTest && !settings.svTestingCommands then
              (w, [], false)
            else
              let (w', calls) := console.runCalls command (victims clientId result) w
              (w', calls, true)
        else
          (w, [], true)
      else
        (w, [], true)

/-- The text of the stroke direction that is put before the arguments of a stroke command. -/
def strokeArgs (stroke : Bool) (name : List UInt8) : List (List UInt8) :=
  if name.head? == some 43 then [if stroke then [49] else [48]] else []

/-- A part runs no callback, or those of a command that it names, that the access level permits and
whose arguments are in order. -/
lemma executePart_inv (stroke : Bool) (clientId : ℤ) (part str : List UInt8) (w : W) :
    (console.executePart stroke clientId part str w).2.1 = [] ∨
      ∃ command result, findCommand (console.settings w) clientId (parseStart part).1 = some command ∧
        (console.settings w).accessLevel ≤ command.accessLevel ∧
        parseArgs console.validFloat (console.isColor command) command.params (parseStart part).2
          ⟨clientId, strokeArgs stroke (parseStart part).1, victimNone⟩ = .ok result ∧
        console.executePart stroke clientId part str w =
          ((console.runCalls command (victims clientId result) w).1,
            (console.runCalls command (victims clientId result) w).2, true) := by
  rw [executePart]
  dsimp only
  by_cases hname : (parseStart part).1 = []
  · rw [if_pos hname]
    exact .inl rfl
  rw [if_neg hname]
  cases hfind : findCommand (console.settings w) clientId (parseStart part).1 with
  | none => exact .inl rfl
  | some command =>
    dsimp only
    rw [← strokeArgs]
    by_cases hgame : clientId = clientIdGame ∧ command.hasFlag cfgflagGame = false
    · rw [if_pos hgame]
      exact .inl rfl
    rw [if_neg hgame]
    by_cases hnoGame : clientId = clientIdNoGame ∧ command.hasFlag cfgflagGame = true
    · rw [if_pos hnoGame]
      exact .inl rfl
    rw [if_neg hnoGame]
    by_cases haccess : (console.settings w).accessLevel ≤ command.accessLevel
    swap
    · rw [if_neg haccess]
      exact .inl rfl
    rw [if_pos haccess]
    by_cases hstroke : (stroke || (parseStart part).1.head? == some 43) = true
    swap
    · rw [if_neg hstroke]
      exact .inl rfl
    rw [if_pos hstroke]
    cases hparse : parseArgs console.validFloat (console.isColor command) command.params
      (parseStart part).2 ⟨clientId, strokeArgs stroke (parseStart part).1, victimNone⟩ with
    | error error => exact .inl rfl
    | ok result =>
      dsimp only
      by_cases hstore : ((console.settings w).storeCommands && command.hasFlag cfgflagStore) = true
      · rw [if_pos hstore]
        exact .inl rfl
      rw [if_neg hstore]
      by_cases htest : (command.hasFlag cmdflagTest && !(console.settings w).svTestingCommands) = true
      · rw [if_pos htest]
        exact .inl rfl
      rw [if_neg htest]
      exact .inr ⟨command, result, rfl, haccess, hparse, rfl⟩

/-- The loop of `ExecuteLineStroked`. -/
def executeParts (stroke : Bool) (clientId : ℤ) :
    List (List UInt8 × List UInt8) → W → W × List (Call W)
  | [], w => (w, [])
  | (part, str) :: parts, w =>
    let (w', calls, goesOn) := console.executePart stroke clientId part str w
    if goesOn then
      let (w'', calls') := executeParts stroke clientId parts w'
      (w'', calls ++ calls')
    else
      (w', calls)

/-- `ExecuteLineStroked`: the state, and the callbacks that ran. -/
def executeLineStroked (stroke : Bool) (str : List UInt8) (clientId : ℤ)
    (interpretSemicolons : Bool) (w : W) : W × List (Call W) :=
  match strStartswith str (ofChars ['m', 'c', ';']) with
  | some rest => console.executeParts stroke clientId (lineParts true rest) w
  | none => console.executeParts stroke clientId (lineParts interpretSemicolons str) w

end Console

end DDNet
