/-
When the splitter of a line and the parser of the arguments agree: the console runs the commands of a
rendered line, with their arguments, if and only if no separator stands where the two see a string
differently.
-/
import Mathlib.Data.Bool.AllAny
import DDNet.Shared.ConsoleArgs

namespace DDNet

variable {W : Type}

/-- The names of the registered commands: ASCII characters that neither the splitter nor the parser
treats specially, and not the prefix `mc`. -/
structure PlainName (name : List UInt8) : Prop where
  nonempty : name ≠ []
  ascii : ∀ c ∈ name, c < 128
  noSpace : ∀ c ∈ name, strIsSpace c = false
  noQuote : quote ∉ name
  noBackslash : backslash ∉ name
  noSeparator : ∀ c ∈ name, isSeparator c = false
  noStroke : name.head? ≠ some 43
  noPrefix : name ≠ ofChars ['m', 'c']

/-- A command with string parameters and as many arguments as it takes, which fit the buffer. -/
structure Renderable (command : CCommand) (args : List (List UInt8)) : Prop where
  name : PlainName command.name
  strings : StringParams command.params
  min : ((params command.params).takeWhile (· != 63)).length ≤ args.length
  max : args.length ≤ (params command.params).countP (· != 63)
  fits : (renderCommand command.name args).length ≤ consoleMaxStrLength

/-- The settings let the client run the command at once. -/
structure Runs (settings : ConsoleSettings) (clientId : ℤ) (command : CCommand) : Prop where
  found : Console.findCommand settings clientId command.name = some command
  game : clientId = clientIdGame → command.hasFlag cfgflagGame = true
  noGame : clientId = clientIdNoGame → command.hasFlag cfgflagGame = false
  access : settings.accessLevel ≤ command.accessLevel
  noStore : (settings.storeCommands && command.hasFlag cfgflagStore) = false
  noTest : (command.hasFlag cmdflagTest && !settings.svTestingCommands) = false

/-- What the callback gets. -/
def stringResult (clientId : ℤ) (args : List (List UInt8)) : CResult := ⟨clientId, args, victimNone⟩

/-- Each command may run in the state that the commands before it leave. -/
def RunsAlong (console : Console W) (clientId : ℤ) : W → Line → Prop
  | _, [] => True
  | w, (command, args) :: line => Runs (console.settings w) clientId command ∧
      RunsAlong console clientId (console.callback command (stringResult clientId args) w) line

/-- The commands that ran, with their arguments. -/
def ran (calls : List (Call W)) : Line := calls.map fun call => (call.command, call.result.args)

/-! ### The start of a part -/

lemma strToken_append {name text : List UInt8} (hname : ∀ c ∈ name, strIsSpace c = false)
    (htext : text = [] ∨ text.head? = some space) : strToken (name ++ text) = name := by
  rw [strToken, List.takeWhile_append_of_pos fun c hc => by rw [hname c hc]; rfl]
  rcases htext with rfl | htext
  · exact List.append_nil _
  · obtain ⟨rest, rfl⟩ := List.head?_eq_some_iff.1 htext
    exact List.append_nil _

lemma strSkipToWhitespace_append {name text : List UInt8} (hname : ∀ c ∈ name, strIsSpace c = false)
    (htext : text = [] ∨ text.head? = some space) : strSkipToWhitespace (name ++ text) = text := by
  rw [strSkipToWhitespace, List.dropWhile_append_of_pos fun c hc => by rw [hname c hc]; rfl]
  rcases htext with rfl | htext
  · rfl
  · obtain ⟨rest, rfl⟩ := List.head?_eq_some_iff.1 htext
    rfl

/-- The copy of the part has the name of the command in front of its arguments. -/
lemma parseStart_eq {part name text : List UInt8} (hname : PlainName name)
    (htext : text = [] ∨ text.head? = some space)
    (hcopy : strCopy (min (consoleMaxStrLength + 1) (part.length + 1)) part = name ++ text) :
    parseStart part = (name, text.tail) := by
  have hskip : strSkipWhitespaces (name ++ text) = name ++ text := by
    obtain ⟨c, name', rfl⟩ := List.exists_cons_of_ne_nil hname.nonempty
    rw [strSkipWhitespaces, List.cons_append, List.dropWhile_cons_of_neg]
    rw [hname.noSpace c List.mem_cons_self]
    exact Bool.false_ne_true
  rw [parseStart, hcopy, hskip, strToken_append hname.noSpace htext, strSkipToWhitespace_append hname.noSpace htext]

/-- The copy of a part that ends in an ASCII character is the part. -/
lemma strCopy_part {part : List UInt8} (hlast : ∃ before c, part = before ++ [c] ∧ c < 128)
    (hfits : part.length ≤ consoleMaxStrLength) :
    strCopy (min (consoleMaxStrLength + 1) (part.length + 1)) part = part := by
  obtain ⟨before, c, rfl, hc⟩ := hlast
  obtain ⟨after, hafter, hcopy⟩ := @strCopy_ascii before [] c _ hc
    (Nat.lt_min.2 ⟨Nat.lt_succ_of_le hfits, Nat.lt_succ_self (before ++ [c]).length⟩)
  obtain rfl := List.prefix_nil.1 hafter
  exact hcopy

lemma renderCommand_last {name : List UInt8} (hname : PlainName name) (args : List (List UInt8)) :
    ∃ before c, renderCommand name args = before ++ [c] ∧ c < 128 := by
  rcases List.eq_nil_or_concat args with rfl | ⟨args', arg, rfl⟩
  · obtain ⟨c, hc⟩ := Option.ne_none_iff_exists'.1 fun h => hname.nonempty (List.getLast?_eq_none_iff.1 h)
    obtain ⟨before, rfl⟩ := List.getLast?_eq_some_iff.1 hc
    exact ⟨before, c, List.append_nil _, hname.ascii c (List.mem_append_right _ List.mem_cons_self)⟩
  · refine ⟨name ++ (args'.flatMap renderArg ++ space :: quote :: escape arg), quote, ?_, by decide⟩
    rw [renderCommand, List.concat_eq_append, List.flatMap_append, List.flatMap_singleton, renderArg]
    simp only [List.append_assoc, List.cons_append]

lemma head?_flatMap_renderArg (args : List (List UInt8)) :
    args.flatMap renderArg = [] ∨ (args.flatMap renderArg).head? = some space := by
  cases args with
  | nil => exact .inl rfl
  | cons arg args => exact .inr rfl

lemma parseParams_tail {validFloat : List UInt8 → Bool} {isColor optional : Bool} {str : List UInt8}
    (hstr : str = [] ∨ str.head? = some space) (commands : List UInt8) (result : CResult) :
    parseParams validFloat isColor optional commands str.tail result =
      parseParams validFloat isColor optional commands str result := by
  rcases hstr with rfl | hstr
  · rfl
  · obtain ⟨rest, rfl⟩ := List.head?_eq_some_iff.1 hstr
    exact (parseParams_space optional commands rest result).symm

/-! ### One part -/

section Part

variable {console : Console W} {clientId : ℤ} {command : CCommand} {w : W}

lemma executePart_eq (hname : PlainName command.name) (hruns : Runs (console.settings w) clientId command)
    {part argsStart : List UInt8} (hpart : parseStart part = (command.name, argsStart))
    (str : List UInt8) : console.executePart true clientId part str w =
      match parseArgs console.validFloat (console.isColor command) command.params argsStart
        ⟨clientId, [], victimNone⟩ with
      | .error _ => (w, [], true)
      | .ok result =>
        let (w', calls) := console.runCalls command (Console.victims clientId result) w
        (w', calls, true) := by
  have hgame : ¬ (clientId = clientIdGame ∧ command.hasFlag cfgflagGame = false) := fun h =>
    absurd (hruns.game h.1) (by simp [h.2])
  have hnoGame : ¬ (clientId = clientIdNoGame ∧ command.hasFlag cfgflagGame = true) := fun h =>
    absurd (hruns.noGame h.1) (by simp [h.2])
  have hstroke : (command.name.head? == some 43) = false := beq_false_of_ne hname.noStroke
  rw [Console.executePart, hpart]
  dsimp only
  rw [if_neg hname.nonempty, hruns.found]
  dsimp only
  rw [if_neg hgame, if_neg hnoGame, if_pos hruns.access, hstroke]
  simp only [Bool.true_or, if_true, Bool.false_eq_true, if_false]
  cases parseArgs console.validFloat (console.isColor command) command.params argsStart
    ⟨clientId, [], victimNone⟩ with
  | error => rfl
  | ok result => simp [hruns.noStore, hruns.noTest]

lemma StringParams.noVictim {format : List UInt8} (h : StringParams format) : 118 ∉ params format := by
  intro hv
  rcases h 118 hv with hc | hc | hc <;> exact absurd hc (by decide)

lemma victims_of_none {result : CResult} (h : result.victim = victimNone) :
    Console.victims clientId result = [result] := by
  have hme : ¬ victimNone = victimMe := by decide
  have hall : ¬ victimNone = victimAll := by decide
  simp only [Console.victims, h, if_neg hme, if_neg hall]

/-- A rendered command runs with its arguments. -/
lemma executePart_render {args : List (List UInt8)} (hrender : Renderable command args)
    (hruns : Runs (console.settings w) clientId command) (str : List UInt8) :
    console.executePart true clientId (renderCommand command.name args) str w =
      (console.callback command (stringResult clientId args) w,
        [⟨w, command, stringResult clientId args⟩], true) := by
  have hhead := head?_flatMap_renderArg args
  have hstart := parseStart_eq hrender.name hhead
    (strCopy_part (renderCommand_last hrender.name args) hrender.fits)
  rw [renderCommand, executePart_eq hrender.name hruns hstart, parseArgs, parseParams_tail hhead,
    parseParams_render hrender.strings.noVictim hrender.max (.inr hrender.min)]
  dsimp only
  rw [victims_of_none rfl]
  rfl

/-- A command that the splitter cuts in one of its arguments does not run. -/
lemma executePart_cut {before : List (List UInt8)} {text : List UInt8} (hname : PlainName command.name)
    (hruns : Runs (console.settings w) clientId command)
    (hmax : before.length < (params command.params).countP (· != 63))
    (hfits : (command.name ++ (before.flatMap renderArg ++ space :: quote :: escape text)).length ≤
      consoleMaxStrLength) (str : List UInt8) :
    console.executePart true clientId
      (command.name ++ (before.flatMap renderArg ++ space :: quote :: escape text)) str w =
        (w, [], true) := by
  have hassoc : ∀ rest, command.name ++ (before.flatMap renderArg ++ space :: quote :: rest) =
      (command.name ++ (before.flatMap renderArg ++ [space])) ++ quote :: rest := fun rest => by
    simp only [List.append_assoc, List.cons_append, List.nil_append]
  have hsize := Nat.lt_min.2 ⟨Nat.lt_succ_of_le hfits, Nat.lt_succ_self (List.length _)⟩
  rw [hassoc] at hsize
  obtain ⟨text', htext', hcopy⟩ := strCopy_ascii (by decide) hsize
  rw [← hassoc, ← hassoc] at hcopy
  have hhead : before.flatMap renderArg ++ space :: quote :: text' = [] ∨
      (before.flatMap renderArg ++ space :: quote :: text').head? = some space := by
    cases before with
    | nil => exact .inr rfl
    | cons arg before => exact .inr rfl
  rw [executePart_eq hname hruns (parseStart_eq hname hhead hcopy), parseArgs, parseParams_tail hhead,
    parseParams_cut hmax (readQuoted_isPrefix htext')]

end Part

/-! ### The separators that the calls use up -/

/-- The number of the commands and of the separators in their arguments. -/
def callWeight (line : Line) : ℕ := (line.map fun entry => argSeparators entry.2 + 1).sum

lemma callWeight_append (line line' : Line) : callWeight (line ++ line') = callWeight line + callWeight line' := by
  rw [callWeight, List.map_append, List.sum_append]
  rfl

lemma callWeight_cons (entry : CCommand × List (List UInt8)) (line : Line) :
    callWeight (entry :: line) = argSeparators entry.2 + 1 + callWeight line := by
  rw [callWeight, List.map_cons, List.sum_cons]
  rfl

lemma ran_append (calls calls' : List (Call W)) : ran (calls ++ calls') = ran calls ++ ran calls' :=
  List.map_append

lemma ran_runCalls (console : Console W) (command : CCommand) (results : List CResult) (w : W) :
    ran (console.runCalls command results w).2 = results.map fun result => (command, result.args) := by
  induction results generalizing w with
  | nil => rfl
  | cons result results ih =>
    rw [Console.runCalls, List.map_cons, ← ih (console.callback command result w)]
    rfl

lemma victims_ne_nil (clientId : ℤ) (result : CResult) : Console.victims clientId result ≠ [] := by
  rw [Console.victims]
  split_ifs <;> exact List.cons_ne_nil _ _

lemma separators_argsStart (part : List UInt8) : separators (parseStart part).2 ≤ separators part := by
  refine separators_le_of_sublist ((List.tail_sublist _).trans ((List.dropWhile_sublist _).trans
    ((List.dropWhile_sublist _).trans ?_)))
  exact (strCopy_isPrefix _ _).sublist

/-- A part runs at most one command with string parameters, whose arguments have their separators
from the part. -/
lemma executePart_ran (console : Console W) (clientId : ℤ) (part str : List UInt8) (w : W)
    (hstrings : ∀ entry ∈ ran (console.executePart true clientId part str w).2.1,
      StringParams entry.1.params) :
    ran (console.executePart true clientId part str w).2.1 = [] ∨
      ∃ entry, ran (console.executePart true clientId part str w).2.1 = [entry] ∧
        argSeparators entry.2 ≤ separators part := by
  rcases console.executePart_inv true clientId part str w with
    hnone | ⟨command, result, -, -, hparse, hpart⟩
  · exact .inl (congrArg ran hnone)
  rw [hpart, ran_runCalls] at hstrings ⊢
  have hcommand : StringParams command.params := by
    obtain ⟨result', hresult'⟩ := List.exists_mem_of_ne_nil _ (victims_ne_nil clientId result)
    exact hstrings _ (List.mem_map_of_mem hresult')
  obtain ⟨hle, hvictim⟩ := parseParams_separators hcommand hparse
  have hstroke : argSeparators (Console.strokeArgs true (parseStart part).1) = 0 := by
    rw [Console.strokeArgs]
    split_ifs <;> rfl
  refine .inr ⟨(command, result.args), ?_, ?_⟩
  · rw [victims_of_none hvictim]
    rfl
  · exact hle.trans ((Nat.add_le_add (le_of_eq hstroke) (separators_argsStart part)).trans
      (Nat.zero_add _).le)

/-- The callbacks of the first part, and those of the parts after it. -/
lemma executeParts_cons (console : Console W) (stroke : Bool) (clientId : ℤ) (part str : List UInt8)
    (parts : List (List UInt8 × List UInt8)) (w : W) :
    ∃ later, (console.executeParts stroke clientId ((part, str) :: parts) w).2 =
        (console.executePart stroke clientId part str w).2.1 ++ later ∧
      (later = [] ∨ later = (console.executeParts stroke clientId parts
        (console.executePart stroke clientId part str w).1).2) := by
  rw [Console.executeParts]
  dsimp only
  by_cases hgoes : (console.executePart stroke clientId part str w).2.2 = true
  · rw [if_pos hgoes]
    exact ⟨_, rfl, .inr rfl⟩
  · rw [if_neg hgoes]
    exact ⟨[], (List.append_nil _).symm, .inl rfl⟩

/-- A line runs no more commands with string parameters than it has parts, and their arguments have
their separators from the line. -/
lemma executeParts_callWeight (console : Console W) (clientId : ℤ) (str : List UInt8) (w : W)
    (hstrings : ∀ entry ∈ ran (console.executeParts true clientId (lineParts true str) w).2,
      StringParams entry.1.params) :
    callWeight (ran (console.executeParts true clientId (lineParts true str) w).2) ≤ separators str + 1 := by
  induction hn : str.length using Nat.strong_induction_on generalizing str w with
  | _ n ih =>
    by_cases hstr : str = []
    · subst hstr
      rw [lineParts_nil]
      exact Nat.zero_le _
    have hfirst : ∀ part parts, lineParts true str = (part, str) :: parts → ∃ later,
        (console.executeParts true clientId (lineParts true str) w).2 =
          (console.executePart true clientId part str w).2.1 ++ later ∧
        (later = [] ∨ later = (console.executeParts true clientId parts
          (console.executePart true clientId part str w).1).2) ∧
        callWeight (ran (console.executePart true clientId part str w).2.1) ≤ separators part + 1 := by
      intro part parts hparts
      obtain ⟨later, hlater, hor⟩ := executeParts_cons console true clientId part str parts w
      rw [hparts, hlater, ran_append] at hstrings
      refine ⟨later, hparts ▸ hlater, hor, ?_⟩
      rcases executePart_ran console clientId part str w fun entry hentry =>
        hstrings entry (List.mem_append_left _ hentry) with hnone | ⟨entry, hone, hle⟩
      · rw [hnone]
        exact Nat.zero_le _
      · rw [hone]
        exact Nat.succ_le_succ hle
    rcases splitPart_spec true false str with ⟨next, hnext, hsplit⟩ | ⟨hnext, hpart⟩
    · obtain ⟨later, hcalls, hlater, hle⟩ := hfirst _ _ (lineParts_some hstr hnext)
      rw [hcalls, ran_append] at hstrings
      have hlen := splitPart_length hnext
      have hseps := congrArg separators hsplit
      rw [separators_append, separators_cons_of rfl] at hseps
      have hle' : callWeight (ran later) ≤ separators next + 1 := by
        rcases hlater with rfl | rfl
        · exact Nat.zero_le _
        · exact ih next.length (hn ▸ hlen) next _
            (fun entry hentry => hstrings entry (List.mem_append_right _ hentry)) rfl
      rw [hcalls, ran_append, callWeight_append]
      omega
    · obtain ⟨later, hcalls, hlater, hle⟩ := hfirst _ _ (lineParts_none hstr hnext)
      have hnil : later = [] := by rcases hlater with rfl | rfl <;> rfl
      have hseps := separators_le_of_sublist hpart.sublist
      rw [hcalls, hnil, List.append_nil]
      omega

/-! ### The separators of a rendered line -/

lemma separators_escape (text : List UInt8) : separators (escape text) = separators text := by
  induction text with
  | nil => rfl
  | cons c text ih =>
    rw [escape_cons, separators_append, ih, escapeChar]
    split_ifs with hc
    · have hc' : isSeparator c = false := by rcases hc with rfl | rfl <;> rfl
      rw [separators_cons_of_not hc', separators_cons_of_not isSeparator_backslash,
        separators_cons_of_not hc']
      exact Nat.zero_add _
    · by_cases hsep : isSeparator c = true
      · rw [separators_cons_of hsep, separators_cons_of hsep]
        exact (Nat.add_right_comm _ _ _).trans (Nat.zero_add _ ▸ rfl)
      · rw [separators_cons_of_not (by simpa using hsep), separators_cons_of_not (by simpa using hsep)]
        exact Nat.zero_add _

lemma separators_renderArgs (args : List (List UInt8)) :
    separators (args.flatMap renderArg) = argSeparators args := by
  induction args with
  | nil => rfl
  | cons arg args ih =>
    rw [List.flatMap_cons, separators_append, ih, renderArg, separators_cons_of_not rfl,
      separators_cons_of_not rfl, separators_append, separators_escape]
    rfl

lemma separators_renderCommand {command : CCommand} (hname : PlainName command.name)
    (args : List (List UInt8)) : separators (renderCommand command.name args) = argSeparators args := by
  have hzero : separators command.name = 0 :=
    List.countP_eq_zero.2 fun c hc => by rw [hname.noSeparator c hc]; exact Bool.false_ne_true
  rw [renderCommand, separators_append, separators_renderArgs, hzero, Nat.zero_add]

/-- What follows the first command of a line. -/
def lineTail (line : Line) : List UInt8 := if line = [] then [] else semicolon :: renderLine line

lemma renderLine_cons (command : CCommand) (args : List (List UInt8)) (line : Line) :
    renderLine ((command, args) :: line) = renderCommand command.name args ++ lineTail line := by
  cases line with
  | nil => exact (List.append_nil _).symm
  | cons entry line => rfl

lemma callWeight_line {line : Line} (hrender : ∀ entry ∈ line, Renderable entry.1 entry.2)
    (hline : line ≠ []) : callWeight line = separators (renderLine line) + 1 := by
  induction line with
  | nil => exact absurd rfl hline
  | cons entry line ih =>
    obtain ⟨command, args⟩ := entry
    have hname := (hrender _ List.mem_cons_self).name
    rw [callWeight_cons, renderLine_cons, separators_append, separators_renderCommand hname, lineTail]
    split_ifs with hnil
    · subst hnil
      rfl
    · rw [ih (fun entry hentry => hrender entry (List.mem_cons_of_mem _ hentry)) hnil,
        separators_cons_of rfl]
      dsimp only
      omega

/-! ### The splitter on a rendered line -/

lemma inStringAfter_eq (inString : Bool) (args : List (List UInt8)) :
    inStringAfter inString args = (inString ^^ decide (Odd (args.countP endsInBackslash))) := by
  induction args generalizing inString with
  | nil => exact (Bool.xor_false inString).symm
  | cons arg args ih =>
    have hstep : inStringAfter inString (arg :: args) =
        inStringAfter (if endsInBackslash arg then !inString else inString) args := rfl
    rw [hstep, ih]
    by_cases hends : endsInBackslash arg = true
    · have hodd : decide (Odd (args.countP endsInBackslash + 1)) =
          !decide (Odd (args.countP endsInBackslash)) := by
        rw [← decide_not]
        exact decide_eq_decide.2 Nat.odd_add_one
      rw [if_pos hends, List.countP_cons_of_pos hends, hodd, Bool.not_xor, Bool.xor_not]
    · rw [if_neg hends, List.countP_cons_of_neg hends]

lemma inStringAfter_false (args : List (List UInt8)) :
    inStringAfter false args = true ↔ Odd (args.countP endsInBackslash) := by
  rw [inStringAfter_eq, Bool.false_xor, decide_eq_true_iff]

lemma argsSafe_iff (inString : Bool) (args : List (List UInt8)) : ArgsSafe inString args ↔
    ∀ i arg, args[i]? = some arg → inStringAfter inString (args.take i) = true →
      ∀ c ∈ arg, isSeparator c = false := by
  induction args generalizing inString with
  | nil => exact ⟨fun _ i arg h => absurd h.symm (Option.some_ne_none _), fun _ => trivial⟩
  | cons arg args ih =>
    rw [ArgsSafe, ih]
    constructor
    · rintro ⟨harg, hargs⟩ i arg' hi hin
      cases i with
      | zero => exact Option.some_injective _ hi ▸ harg hin
      | succ i => exact hargs i arg' hi hin
    · intro h
      exact ⟨h 0 arg rfl, fun i arg' hi hin => h (i + 1) arg' hi hin⟩

/-- What keeps the first command apart from the rest of the line. -/
lemma separated_cons (command : CCommand) (args : List (List UInt8)) (line : Line) :
    Separated ((command, args) :: line) ↔
      ArgsSafe false args ∧ (line ≠ [] → inStringAfter false args = false) ∧ Separated line := by
  have hsafe : ArgsSafe false args ↔ ∀ i arg, args[i]? = some arg →
      Odd ((args.take i).countP endsInBackslash) → ∀ c ∈ arg, isSeparator c = false := by
    rw [argsSafe_iff]
    exact forall₃_congr fun i arg _ => by rw [inStringAfter_false]
  have heven : inStringAfter false args = false ↔ Even (args.countP endsInBackslash) := by
    rw [← Bool.not_eq_true, inStringAfter_false, Nat.not_odd_iff_even]
  rw [Separated, Separated, List.forall_mem_cons, hsafe, heven]
  cases line with
  | nil => simp
  | cons entry line =>
    rw [List.dropLast_cons_of_ne_nil (List.cons_ne_nil entry line), List.forall_mem_cons (l := (entry :: line).dropLast)]
    constructor
    · rintro ⟨⟨hfirst, hrest⟩, hlast, hlasts⟩
      exact ⟨hfirst, fun _ => hlast, hrest, hlasts⟩
    · rintro ⟨hfirst, hlast, hrest, hlasts⟩
      exact ⟨⟨hfirst, hrest⟩, hlast (List.cons_ne_nil _ _), hlasts⟩

lemma splitPart_name {name : List UInt8} (hname : PlainName name) (rest : List UInt8) :
    splitPart true false (name ++ rest) = prependPart name (splitPart true false rest) := by
  obtain ⟨-, -, -, hquote, hbackslash, hsep, -, -⟩ := hname
  induction name with
  | nil => rfl
  | cons c name ih =>
    rw [List.cons_append, splitPart_char (fun h => hquote (h ▸ List.mem_cons_self))
      (fun h => hbackslash (h ▸ List.mem_cons_self)) (.inr (hsep c List.mem_cons_self)),
      ih (fun h => hquote (List.mem_cons_of_mem _ h)) (fun h => hbackslash (List.mem_cons_of_mem _ h))
        (fun d hd => hsep d (List.mem_cons_of_mem _ hd)), prependPart_prependPart]
    rfl

/-- A command without a separator outside of a string is in one part with its arguments. -/
lemma splitPart_renderCommand {name : List UInt8} (hname : PlainName name) {args : List (List UInt8)}
    (hsafe : ArgsSafe false args) (rest : List UInt8) :
    splitPart true false (renderCommand name args ++ rest) =
      prependPart (renderCommand name args) (splitPart true (inStringAfter false args) rest) := by
  rw [renderCommand, List.append_assoc, splitPart_name hname, splitPart_renderArgs hsafe,
    prependPart_prependPart]

lemma renderCommand_ne_nil {name : List UInt8} (hname : PlainName name) (args : List (List UInt8)) :
    renderCommand name args ≠ [] :=
  fun h => hname.nonempty (List.append_eq_nil_iff.1 h).1

lemma renderLine_ne_nil {line : Line} (hrender : ∀ entry ∈ line, Renderable entry.1 entry.2)
    (hline : line ≠ []) : renderLine line ≠ [] := by
  obtain ⟨⟨command, args⟩, line, rfl⟩ := List.exists_cons_of_ne_nil hline
  rw [renderLine_cons]
  exact fun h => renderCommand_ne_nil (hrender _ List.mem_cons_self).name args
    (List.append_eq_nil_iff.1 h).1

/-! ### The execution of a rendered line -/

section Execution

variable {console : Console W} {clientId : ℤ} {command : CCommand} {args : List (List UInt8)}
  {line : Line} {w : W}

/-- A command that the splitter keeps apart from the rest runs with its arguments. -/
lemma executeParts_renderLine (hrender : Renderable command args)
    (hruns : Runs (console.settings w) clientId command) (hsafe : ArgsSafe false args)
    (hlast : line ≠ [] → inStringAfter false args = false) :
    (console.executeParts true clientId (lineParts true (renderLine ((command, args) :: line))) w).2 =
      ⟨w, command, stringResult clientId args⟩ ::
        (console.executeParts true clientId (lineParts true (renderLine line))
          (console.callback command (stringResult clientId args) w)).2 := by
  have hne : renderCommand command.name args ++ lineTail line ≠ [] := fun h =>
    renderCommand_ne_nil hrender.name args (List.append_eq_nil_iff.1 h).1
  have hsplit := splitPart_renderCommand hrender.name hsafe (lineTail line)
  have hpart : ∀ part, splitPart true (inStringAfter false args) (lineTail line) = ([], part) →
      (splitPart true false (renderCommand command.name args ++ lineTail line)).1 =
        renderCommand command.name args ∧
      (splitPart true false (renderCommand command.name args ++ lineTail line)).2 = part := by
    intro part hpart
    rw [hsplit, hpart, prependPart, List.append_nil]
    exact ⟨rfl, rfl⟩
  rw [renderLine_cons]
  by_cases hnil : line = []
  · obtain ⟨hfirst, hnext⟩ := hpart none (by rw [lineTail, if_pos hnil]; rfl)
    rw [lineParts_none hne hnext, hfirst, Console.executeParts, executePart_render hrender hruns, hnil,
      renderLine, lineParts_nil]
    rfl
  · obtain ⟨hfirst, hnext⟩ := hpart (some (renderLine line)) (by
      rw [lineTail, if_neg hnil, hlast hnil, splitPart_separator rfl, if_pos rfl])
    rw [lineParts_some hne hnext, hfirst, Console.executeParts, executePart_render hrender hruns]
    rfl

/-- A command with a separator in an argument that the splitter reads outside of a string does not
run; the separators that are left are too few for the line. -/
lemma ran_ne_of_cut (hrender : ∀ entry ∈ (command, args) :: line, Renderable entry.1 entry.2)
    (hruns : Runs (console.settings w) clientId command) (hcut : ¬ ArgsSafe false args) :
    ran (console.executeParts true clientId
      (lineParts true (renderLine ((command, args) :: line))) w).2 ≠ (command, args) :: line := by
  intro hran
  obtain ⟨hname, hstrings, hmin, hmax, hfits⟩ := hrender _ List.mem_cons_self
  have hline := List.cons_ne_nil (command, args) line
  have hstr := renderLine_ne_nil hrender hline
  have hweight := callWeight_line hrender hline
  obtain ⟨before, text, c, text', after, hargs, hc, hsplit⟩ :=
    splitPart_renderArgs_cut hcut (lineTail line)
  have hcut : splitPart true false (renderLine ((command, args) :: line)) =
      (command.name ++ (before.flatMap renderArg ++ space :: quote :: escape text),
        if c = semicolon then
          some (escape text' ++ quote :: (after.flatMap renderArg ++ lineTail line)) else none) := by
    rw [renderLine_cons, renderCommand, List.append_assoc, splitPart_name hname, hsplit]
    rfl
  have hpartLength : (command.name ++ (before.flatMap renderArg ++ space :: quote :: escape text)).length ≤
      consoleMaxStrLength := by
    refine le_trans ?_ hfits
    rw [renderCommand, hargs, List.flatMap_append, List.flatMap_cons, renderArg, escape_append]
    simp only [List.length_append, List.length_cons]
    omega
  have hcount : before.length < (params command.params).countP (· != 63) := by
    refine lt_of_lt_of_le ?_ hmax
    rw [hargs, List.length_append, List.length_cons]
    omega
  have hpart : ∀ str, console.executePart true clientId
      (splitPart true false (renderLine ((command, args) :: line))).1 str w = (w, [], true) := fun str => by
    rw [hcut]
    exact executePart_cut hname hruns hcount hpartLength str
  rcases splitPart_spec true false (renderLine ((command, args) :: line)) with
    ⟨next, hnext, hspec⟩ | ⟨hnext, -⟩
  · rw [lineParts_some hstr hnext, Console.executeParts, hpart] at hran
    dsimp only at hran
    rw [if_pos rfl, List.nil_append] at hran
    have hle := executeParts_callWeight console clientId next w fun entry hentry =>
      (hrender entry (hran ▸ hentry)).strings
    have hseps := congrArg separators hspec
    rw [separators_append, separators_cons_of rfl] at hseps
    rw [hran] at hle
    omega
  · rw [lineParts_none hstr hnext, Console.executeParts, hpart] at hran
    exact absurd hran.symm hline

/-- A separator between two commands that the splitter reads inside of a string is missing for the
commands after it. -/
lemma ran_ne_of_inString (hrender : ∀ entry ∈ (command, args) :: line, Renderable entry.1 entry.2)
    (hsafe : ArgsSafe false args) (hline : line ≠ []) (hin : inStringAfter false args = true) :
    ran (console.executeParts true clientId
      (lineParts true (renderLine ((command, args) :: line))) w).2 ≠ (command, args) :: line := by
  intro hran
  have hname := (hrender _ List.mem_cons_self).name
  have hstr := renderLine_ne_nil hrender (List.cons_ne_nil (command, args) line)
  have hweight := callWeight_line (fun entry hentry => hrender entry (List.mem_cons_of_mem _ hentry)) hline
  have hsplit : splitPart true false (renderLine ((command, args) :: line)) =
      prependPart (renderCommand command.name args ++ [semicolon])
        (splitPart true true (renderLine line)) := by
    rw [renderLine_cons, splitPart_renderCommand hname hsafe, hin, lineTail, if_neg hline,
      splitPart_char (by decide) (by decide) (.inl rfl), prependPart_prependPart]
  set part := (splitPart true false (renderLine ((command, args) :: line))).1
  have hlater : ∀ parts, lineParts true (renderLine ((command, args) :: line)) =
      (part, renderLine ((command, args) :: line)) :: parts → ∃ later w',
        (later = [] ∨ later = (console.executeParts true clientId parts w').2) ∧
        (∀ entry ∈ ran later, StringParams entry.1.params) ∧ callWeight line ≤ callWeight (ran later) := by
    intro parts hparts
    obtain ⟨later, hcalls, hlater⟩ := executeParts_cons console true clientId part
      (renderLine ((command, args) :: line)) parts w
    rw [hparts, hcalls, ran_append] at hran
    have hstrings : ∀ entry ∈ (command, args) :: line, StringParams entry.1.params := fun entry hentry =>
      (hrender entry hentry).strings
    rw [← hran] at hstrings
    refine ⟨later, _, hlater, fun entry hentry => hstrings entry (List.mem_append_right _ hentry), ?_⟩
    rcases executePart_ran console clientId part (renderLine ((command, args) :: line)) w fun entry hentry =>
      hstrings entry (List.mem_append_left _ hentry) with hnone | ⟨entry, hone, -⟩
    · rw [hnone, List.nil_append] at hran
      rw [hran, callWeight_cons]
      exact Nat.le_add_left _ _
    · rw [hone] at hran
      have hrest : ran later = line := (List.cons.inj hran).2
      rw [hrest]
  rcases splitPart_spec true true (renderLine line) with ⟨next, hnext, hspec⟩ | ⟨hnext, -⟩
  · obtain ⟨later, w', hlater, hstrings, hle⟩ := hlater _ (lineParts_some hstr (by rw [hsplit]; exact hnext))
    have hseps := congrArg separators hspec
    rw [separators_append, separators_cons_of rfl] at hseps
    have hle' : callWeight (ran later) ≤ separators next + 1 := by
      rcases hlater with rfl | rfl
      · exact Nat.zero_le _
      · exact executeParts_callWeight console clientId next w' hstrings
    omega
  · obtain ⟨later, w', hlater, -, hle⟩ := hlater _ (lineParts_none hstr (by rw [hsplit]; exact hnext))
    have hnil : later = [] := by rcases hlater with rfl | rfl <;> rfl
    rw [hnil] at hle
    exact absurd hle (by rw [hweight]; exact Nat.not_succ_le_zero _)

lemma executeParts_renderLine_iff (hrender : ∀ entry ∈ line, Renderable entry.1 entry.2)
    (hruns : RunsAlong console clientId w line) :
    ran (console.executeParts true clientId (lineParts true (renderLine line)) w).2 = line ↔
      Separated line := by
  induction line generalizing w with
  | nil =>
    rw [renderLine, lineParts_nil]
    exact ⟨fun _ => ⟨fun entry hentry => absurd hentry (List.not_mem_nil), fun entry hentry =>
      absurd hentry (List.not_mem_nil)⟩, fun _ => rfl⟩
  | cons entry line ih =>
    obtain ⟨command, args⟩ := entry
    rw [separated_cons]
    by_cases hsafe : ArgsSafe false args
    swap
    · exact iff_of_false (ran_ne_of_cut hrender hruns.1 hsafe) fun h => hsafe h.1
    by_cases hlast : line ≠ [] → inStringAfter false args = false
    swap
    · refine iff_of_false ?_ fun h => hlast h.2.1
      obtain ⟨hline, hin⟩ := Classical.not_imp.1 hlast
      exact ran_ne_of_inString hrender hsafe hline (by simpa using hin)
    have ih := ih (fun entry hentry => hrender entry (List.mem_cons_of_mem _ hentry)) hruns.2
    rw [executeParts_renderLine (hrender _ List.mem_cons_self) hruns.1 hsafe hlast, ran, List.map_cons,
      ← ran, ← ih]
    constructor
    · intro h
      exact ⟨hsafe, hlast, (List.cons.inj h).2⟩
    · rintro ⟨-, -, h⟩
      rw [h]
      rfl

end Execution

lemma not_prefix_of_plainName {name rest : List UInt8} (hname : PlainName name)
    (hrest : rest.head? ≠ some 99) : ¬ ofChars ['m', 'c', ';'] <+: name ++ rest := by
  rintro ⟨after, h⟩
  have h : (109 : UInt8) :: 99 :: semicolon :: after = name ++ rest := h
  rcases name with _ | ⟨c₀, _ | ⟨c₁, _ | ⟨c₂, name⟩⟩⟩
  · exact hname.nonempty rfl
  · obtain ⟨-, htail⟩ := List.cons.inj h
    exact hrest (by rw [← List.nil_append rest, ← List.append_eq, ← htail]; rfl)
  · obtain ⟨rfl, htail⟩ := List.cons.inj h
    obtain ⟨rfl, -⟩ := List.cons.inj htail
    exact hname.noPrefix rfl
  · obtain ⟨-, htail⟩ := List.cons.inj h
    obtain ⟨-, htail'⟩ := List.cons.inj htail
    obtain ⟨rfl, -⟩ := List.cons.inj htail'
    exact absurd (hname.noSeparator semicolon (by simp)) (by decide)

/-- A rendered line does not start with the prefix `mc;`. -/
lemma strStartswith_renderLine {line : Line} (hrender : ∀ entry ∈ line, Renderable entry.1 entry.2) :
    strStartswith (renderLine line) (ofChars ['m', 'c', ';']) = none := by
  rw [strStartswith, if_neg]
  cases line with
  | nil => exact fun h => absurd (List.prefix_nil.1 h) (by decide)
  | cons entry line =>
    obtain ⟨command, args⟩ := entry
    rw [renderLine_cons, renderCommand, List.append_assoc]
    refine not_prefix_of_plainName (hrender _ List.mem_cons_self).name ?_
    cases args with
    | nil =>
      rw [List.flatMap_nil, List.nil_append, lineTail]
      split_ifs
      · exact fun h => absurd h.symm (Option.some_ne_none _)
      · exact fun h => absurd (Option.some_injective _ h) (by decide)
    | cons arg args => exact fun h => absurd (Option.some_injective _ h) (by decide)

/-- The console runs exactly the commands of a rendered line, with their arguments, if and only if the
splitter sees every argument with a separator as a string and every command but the last one ends
outside of a string. -/
theorem executeLineStroked_renderLine_iff (console : Console W) (clientId : ℤ) (line : Line) (w : W)
    (hrender : ∀ entry ∈ line, Renderable entry.1 entry.2) (hruns : RunsAlong console clientId w line) :
    ran (console.executeLineStroked true (renderLine line) clientId true w).2 = line ↔
      Separated line := by
  rw [Console.executeLineStroked, strStartswith_renderLine hrender]
  exact executeParts_renderLine_iff hrender hruns

/-- `add_vote`. -/
def addVote : CCommand where
  name := ofChars ['a', 'd', 'd', '_', 'v', 'o', 't', 'e']
  params := ofChars ['s', '[', 'n', 'a', 'm', 'e', ']', ' ', 'r', '[', 'c', 'o', 'm', 'm', 'a', 'n', 'd', ']']
  help := ofChars ['A', 'd', 'd', ' ', 'a', ' ', 'v', 'o', 't', 'i', 'n', 'g', ' ', 'o', 'p', 't', 'i', 'o', 'n']
  flags := cfgflagServer
  accessLevel := accessLevelAdmin

/-- `shutdown`. -/
def shutdown : CCommand where
  name := ofChars ['s', 'h', 'u', 't', 'd', 'o', 'w', 'n']
  params := ofChars ['?', 'r', '[', 'r', 'e', 'a', 's', 'o', 'n', ']']
  help := ofChars ['S', 'h', 'u', 't', ' ', 'd', 'o', 'w', 'n']
  flags := cfgflagServer
  accessLevel := accessLevelAdmin

/-- A console with the two commands. -/
def twoCommandConsole : Console Unit where
  settings _ := {
    commands := ⟨[addVote, shutdown], by simp only [ServerSorted, List.pairwise_cons]; decide, by decide⟩
    flagMask := cfgflagServer
    accessLevel := accessLevelAdmin
    storeCommands := false
    svTestingCommands := false }
  callback _ _ w := w
  store _ _ w := w
  unknownCommand _ w := w
  isColor _ := false
  validFloat _ := true

lemma params_addVote : params addVote.params = [115, 114] := by
  have hnext : nextParam addVote.params = ofChars ['r', '[', 'c', 'o', 'm', 'm', 'a', 'n', 'd', ']'] := by
    decide
  have hlast : nextParam (ofChars ['r', '[', 'c', 'o', 'm', 'm', 'a', 'n', 'd', ']']) = [] := by decide
  have hfirst : params addVote.params = 115 :: params (nextParam addVote.params) := by
    exact params.eq_2 _ _
  have hsecond : params (ofChars ['r', '[', 'c', 'o', 'm', 'm', 'a', 'n', 'd', ']']) =
      114 :: params (nextParam (ofChars ['r', '[', 'c', 'o', 'm', 'm', 'a', 'n', 'd', ']'])) := by
    exact params.eq_2 _ _
  rw [hfirst, hnext, hsecond, hlast, params]

lemma params_shutdown : params shutdown.params = [63, 114] := by
  have hfirst : params shutdown.params =
      63 :: params (ofChars ['r', '[', 'r', 'e', 'a', 's', 'o', 'n', ']']) := by
    exact params.eq_2 _ _
  have hsecond : params (ofChars ['r', '[', 'r', 'e', 'a', 's', 'o', 'n', ']']) = 114 :: params [] := by
    exact params.eq_2 _ _
  rw [hfirst, hsecond, params]

lemma plainName_addVote : PlainName addVote.name where
  nonempty := by decide
  ascii := List.all_iff_forall_prop.1 (by decide)
  noSpace := List.all_iff_forall_prop.1 (by decide)
  noQuote := by decide
  noBackslash := by decide
  noSeparator := List.all_iff_forall_prop.1 (by decide)
  noStroke := by decide
  noPrefix := by decide

lemma plainName_shutdown : PlainName shutdown.name where
  nonempty := by decide
  ascii := List.all_iff_forall_prop.1 (by decide)
  noSpace := List.all_iff_forall_prop.1 (by decide)
  noQuote := by decide
  noBackslash := by decide
  noSeparator := List.all_iff_forall_prop.1 (by decide)
  noStroke := by decide
  noPrefix := by decide

lemma renderable_addVote {args : List (List UInt8)} (hlength : args.length = 2)
    (hfits : (renderCommand addVote.name args).length ≤ consoleMaxStrLength) : Renderable addVote args where
  name := plainName_addVote
  strings := by
    rw [StringParams, params_addVote]
    exact List.all_iff_forall_prop.1 (by decide)
  min := by
    rw [params_addVote, hlength]
    decide
  max := by
    rw [params_addVote, hlength]
    decide
  fits := hfits

lemma renderable_shutdown : Renderable shutdown [] where
  name := plainName_shutdown
  strings := by
    rw [StringParams, params_shutdown]
    exact List.all_iff_forall_prop.1 (by decide)
  min := by
    rw [params_shutdown]
    decide
  max := Nat.zero_le _
  fits := by decide

lemma runs_twoCommandConsole {command : CCommand} (h : command ∈ [addVote, shutdown]) :
    Runs (twoCommandConsole.settings ()) 0 command := by
  rcases List.mem_pair.1 h with rfl | rfl <;> constructor <;> decide

/-- `add_vote "a" "b;c";shutdown` -/
def voteAndShutdown : Line := [(addVote, [[97], [98, semicolon, 99]]), (shutdown, [])]

/-- `add_vote "\\" ";shutdown#"` -/
def voteWithBackslash : Line :=
  [(addVote, [[backslash], ofChars [';', 's', 'h', 'u', 't', 'd', 'o', 'w', 'n', '#']])]

theorem voteAndShutdown_runs :
    ran (twoCommandConsole.executeLineStroked true (renderLine voteAndShutdown) 0 true ()).2 =
      voteAndShutdown := by
  have hrender : ∀ entry ∈ voteAndShutdown, Renderable entry.1 entry.2 := by
    intro entry hentry
    rcases List.mem_pair.1 hentry with rfl | rfl
    · exact renderable_addVote rfl (by decide)
    · exact renderable_shutdown
  have hruns : RunsAlong twoCommandConsole 0 () voteAndShutdown :=
    ⟨runs_twoCommandConsole (by decide), runs_twoCommandConsole (by decide), trivial⟩
  have hsep : Separated voteAndShutdown := by
    rw [voteAndShutdown, separated_cons, separated_cons]
    exact ⟨⟨fun h => absurd h (by decide), fun h => absurd h (by decide), trivial⟩, fun _ => by decide,
      trivial, fun h => absurd rfl h, fun _ h => absurd h (List.not_mem_nil),
      fun _ h => absurd h (List.not_mem_nil)⟩
  exact (executeLineStroked_renderLine_iff twoCommandConsole 0 voteAndShutdown () hrender hruns).2 hsep

/-- The second argument shuts the server down: after an argument that ends in a backslash, the splitter
takes its `;` for the end of the command. -/
theorem argument_shuts_down : (∀ entry ∈ voteWithBackslash, Renderable entry.1 entry.2) ∧
    RunsAlong twoCommandConsole 0 () voteWithBackslash ∧
    ran (twoCommandConsole.executeLineStroked true (renderLine voteWithBackslash) 0 true ()).2 =
      [(shutdown, [])] ∧ voteWithBackslash ≠ [(shutdown, [])] := by
  have hrender : ∀ entry ∈ voteWithBackslash, Renderable entry.1 entry.2 := by
    intro entry hentry
    obtain rfl := List.mem_singleton.1 hentry
    exact renderable_addVote rfl (by decide)
  refine ⟨hrender, ⟨runs_twoCommandConsole (by decide), trivial⟩, ?_, by decide⟩
  have hfirst : splitPart true false (renderLine voteWithBackslash) =
      (addVote.name ++ ([[backslash]].flatMap renderArg ++ space :: quote :: escape []),
        some (shutdown.name ++ [hash, quote])) := by decide
  have hsecond : splitPart true false (shutdown.name ++ [hash, quote]) =
      (renderCommand shutdown.name [], none) := by decide
  have hcut : ∀ str, twoCommandConsole.executePart true 0
      (addVote.name ++ ([[backslash]].flatMap renderArg ++ space :: quote :: escape [])) str () =
        ((), [], true) := by
    intro str
    refine executePart_cut plainName_addVote (runs_twoCommandConsole (by decide)) ?_ (by decide) str
    rw [params_addVote]
    decide
  rw [Console.executeLineStroked, strStartswith_renderLine hrender]
  dsimp only
  rw [lineParts_some (by decide) (congrArg Prod.snd hfirst), lineParts_none (by decide)
    (congrArg Prod.snd hsecond), hfirst, hsecond, Console.executeParts, hcut]
  dsimp only
  rw [if_pos rfl, Console.executeParts,
    executePart_render renderable_shutdown (runs_twoCommandConsole (by decide))]
  rfl

end DDNet
