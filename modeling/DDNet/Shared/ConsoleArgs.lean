/-
The parser of the console on rendered arguments: it reads them back, an argument without its closing
quote is an error, and no argument has separators that its text does not have.
-/
import DDNet.Shared.ConsoleSplit
import Mathlib.Algebra.BigOperators.Group.List.Basic

namespace DDNet

/-! ### The parser on escaped text -/

lemma readQuoted_quote (str : List UInt8) : readQuoted (quote :: str) = some ([], str) := by
  rw [readQuoted.eq_def]
  exact if_pos rfl

lemma readQuoted_escaped {d : UInt8} (hd : d = backslash ∨ d = quote) (str : List UInt8) :
    readQuoted (backslash :: d :: str) = (readQuoted str).map fun (arg, rest) => (d :: arg, rest) := by
  rw [readQuoted.eq_def]
  exact (if_neg (by decide)).trans ((if_pos rfl).trans (if_pos hd))

lemma readQuoted_char {c : UInt8} (hquote : c ≠ quote) (hbackslash : c ≠ backslash) (str : List UInt8) :
    readQuoted (c :: str) = (readQuoted str).map fun (arg, rest) => (c :: arg, rest) := by
  rw [readQuoted.eq_def]
  exact (if_neg hquote).trans (if_neg hbackslash)

/-- The parser reads back an escaped argument. -/
lemma readQuoted_escape (arg rest : List UInt8) :
    readQuoted (escape arg ++ quote :: rest) = some (arg, rest) := by
  induction arg with
  | nil => exact readQuoted_quote rest
  | cons c arg ih =>
    rw [escape_cons, List.append_assoc, escapeChar]
    split_ifs with hc
    · rw [List.cons_append, List.singleton_append, readQuoted_escaped hc.symm, ih]
      rfl
    · obtain ⟨hquote, hbackslash⟩ := not_or.1 hc
      rw [List.singleton_append, readQuoted_char hquote hbackslash, ih]
      rfl

/-- There is no closing quote in escaped text, nor in any beginning of it. -/
lemma readQuoted_isPrefix {arg text : List UInt8} (h : text <+: escape arg) : readQuoted text = none := by
  induction arg generalizing text with
  | nil =>
    obtain rfl := List.prefix_nil.1 h
    rfl
  | cons c arg ih =>
    rw [escape_cons, escapeChar] at h
    cases text with
    | nil => rfl
    | cons d text =>
      split_ifs at h with hc
      · rw [List.cons_append] at h
        obtain ⟨rfl, htail⟩ := List.cons_prefix_cons.1 h
        cases text with
        | nil =>
          rw [readQuoted.eq_def]
          exact (if_neg (by decide)).trans (if_pos rfl)
        | cons d text =>
          rw [List.singleton_append] at htail
          obtain ⟨rfl, htext⟩ := List.cons_prefix_cons.1 htail
          rw [readQuoted_escaped hc.symm, ih htext]
          rfl
      · obtain ⟨hquote, hbackslash⟩ := not_or.1 hc
        rw [List.singleton_append] at h
        obtain ⟨rfl, htext⟩ := List.cons_prefix_cons.1 h
        rw [readQuoted_char hquote hbackslash, ih htext]
        rfl

/-! ### The parser on rendered arguments -/

section Parse

variable {validFloat : List UInt8 → Bool} {isColor : Bool}

lemma parseParams_space (optional : Bool) (commands str : List UInt8) (result : CResult) :
    parseParams validFloat isColor optional commands (space :: str) result =
      parseParams validFloat isColor optional commands str result := by
  induction commands generalizing optional with
  | nil => rfl
  | cons command commands ih =>
    by_cases hcommand : command = 63
    · rw [parseParams, parseParams, if_pos hcommand, if_pos hcommand]
      exact ih true
    · rw [parseParams, parseParams, if_neg hcommand, if_neg hcommand]
      rfl

lemma strSkipWhitespaces_renderArg (arg rest : List UInt8) :
    strSkipWhitespaces (renderArg arg ++ rest) = quote :: (escape arg ++ quote :: rest) := by
  rw [renderArg, List.cons_append, List.cons_append, List.append_assoc]
  rfl

lemma parseArg_quote {command : UInt8} {text arg rest : List UInt8}
    (h : readQuoted text = some (arg, rest)) (result : CResult) :
    parseArg validFloat isColor command (quote :: text) result =
      .ok (result.addArgument arg, some rest) := by
  rw [parseArg, if_pos List.head?_cons, List.tail_cons, h]

/-- One parameter takes one rendered argument. -/
lemma parseParams_renderArg {optional : Bool} {command : UInt8} (hcommand : command ≠ 63)
    (commands arg rest : List UInt8) (result : CResult) :
    parseParams validFloat isColor optional (command :: commands) (renderArg arg ++ rest) result =
      parseParams validFloat isColor optional commands rest (result.addArgument arg) := by
  rw [parseParams, if_neg hcommand, strSkipWhitespaces_renderArg]
  dsimp only
  rw [if_neg (List.cons_ne_nil _ _), parseArg_quote (readQuoted_escape arg rest)]

/-- The parameters take the arguments, where these are as many as the parameters allow. -/
lemma parseParams_render {commands : List UInt8} {optional : Bool} {args : List (List UInt8)}
    (hvictim : 118 ∉ commands) (hmax : args.length ≤ commands.countP (· != 63))
    (hmin : optional = true ∨ (commands.takeWhile (· != 63)).length ≤ args.length) (result : CResult) :
    parseParams validFloat isColor optional commands (args.flatMap renderArg) result =
      .ok { result with args := result.args ++ args } := by
  induction commands generalizing optional args result with
  | nil =>
    obtain rfl := List.eq_nil_of_length_eq_zero (Nat.le_zero.1 hmax)
    rw [List.append_nil]
    rfl
  | cons command commands ih =>
    have hvictim' : 118 ∉ commands := fun h => hvictim (List.mem_cons_of_mem _ h)
    by_cases hcommand : command = 63
    · subst hcommand
      rw [parseParams, if_pos rfl]
      exact ih hvictim' (by simpa using hmax) (.inl rfl) result
    · have hne : (command != 63) = true := bne_iff_ne.2 hcommand
      rw [List.takeWhile_cons_of_pos (by exact hne)] at hmin
      rw [List.countP_cons_of_pos (by exact hne)] at hmax
      cases args with
      | nil =>
        have hoptional : optional = true := hmin.resolve_right (Nat.not_succ_le_zero _)
        rw [parseParams, if_neg hcommand, hoptional]
        dsimp only
        rw [if_pos (by rfl), if_pos rfl, if_neg hvictim, List.append_nil]
      | cons arg args =>
        have hmin' := hmin.imp_right Nat.le_of_succ_le_succ
        rw [List.flatMap_cons, parseParams_renderArg hcommand,
          ih hvictim' (Nat.le_of_succ_le_succ hmax) hmin', CResult.addArgument, List.append_assoc]
        rfl

/-- An argument without its closing quote is an error. -/
lemma parseParams_cut {commands : List UInt8} {optional : Bool} {before : List (List UInt8)}
    {text : List UInt8} (hmax : before.length < commands.countP (· != 63))
    (htext : readQuoted text = none) (result : CResult) :
    parseParams validFloat isColor optional commands
      (before.flatMap renderArg ++ space :: quote :: text) result = .error .missingValue := by
  induction commands generalizing optional before result with
  | nil => exact absurd hmax (Nat.not_lt_zero _)
  | cons command commands ih =>
    by_cases hcommand : command = 63
    · subst hcommand
      rw [parseParams, if_pos rfl]
      exact ih (by simpa using hmax) result
    · have hne : (command != 63) = true := bne_iff_ne.2 hcommand
      rw [List.countP_cons_of_pos (by exact hne)] at hmax
      cases before with
      | nil =>
        have hskip : strSkipWhitespaces (space :: quote :: text) = quote :: text := rfl
        rw [List.flatMap_nil, List.nil_append, parseParams, if_neg hcommand, hskip]
        dsimp only
        rw [if_neg (List.cons_ne_nil _ _), parseArg, if_pos List.head?_cons, List.tail_cons, htext]
      | cons arg before =>
        rw [List.flatMap_cons, List.append_assoc, parseParams_renderArg hcommand]
        exact ih (Nat.lt_of_succ_lt_succ hmax) _

end Parse

/-! ### The separators that the arguments use up -/

/-- Only `s`, `r` and `?`. -/
def StringParams (format : List UInt8) : Prop := ∀ command ∈ params format, command = 115 ∨ command = 114 ∨ command = 63

/-- The separators of a text. -/
def separators (str : List UInt8) : ℕ := str.countP isSeparator

/-- The separators of the arguments. -/
def argSeparators (args : List (List UInt8)) : ℕ := (args.map separators).sum

lemma separators_append (str str' : List UInt8) :
    separators (str ++ str') = separators str + separators str' :=
  List.countP_append

lemma separators_cons_of_not {c : UInt8} (hc : isSeparator c = false) (str : List UInt8) :
    separators (c :: str) = separators str :=
  List.countP_cons_of_neg (by simp [hc])

lemma separators_cons_of {c : UInt8} (hc : isSeparator c = true) (str : List UInt8) :
    separators (c :: str) = separators str + 1 :=
  List.countP_cons_of_pos hc

lemma separators_le_of_sublist {str str' : List UInt8} (h : str.Sublist str') :
    separators str ≤ separators str' :=
  h.countP_le

lemma argSeparators_append (args args' : List (List UInt8)) :
    argSeparators (args ++ args') = argSeparators args + argSeparators args' := by
  rw [argSeparators, List.map_append, List.sum_append]
  rfl

lemma argSeparators_singleton (arg : List UInt8) : argSeparators [arg] = separators arg :=
  Nat.add_zero _

lemma readQuoted_separators {str arg rest : List UInt8} (h : readQuoted str = some (arg, rest)) :
    separators arg + separators rest ≤ separators str := by
  fun_induction readQuoted str generalizing arg rest with
  | case1 => exact absurd h.symm (Option.some_ne_none _)
  | case2 str =>
    obtain ⟨rfl, rfl⟩ := Prod.mk.inj (Option.some_injective _ h)
    rw [separators_cons_of_not isSeparator_quote]
    exact (Nat.zero_add _).le
  | case3 => exact absurd h.symm (Option.some_ne_none _)
  | case4 d str hd _ ih =>
    obtain ⟨⟨arg', rest'⟩, hread, heq⟩ := Option.map_eq_some_iff.1 h
    obtain ⟨rfl, rfl⟩ := Prod.mk.inj heq
    have hle := ih hread
    have hd' : isSeparator d = false := by rcases hd with rfl | rfl <;> rfl
    rw [separators_cons_of_not isSeparator_backslash, separators_cons_of_not hd',
      separators_cons_of_not hd']
    exact hle
  | case5 d str hd _ ih =>
    obtain ⟨⟨arg', rest'⟩, hread, heq⟩ := Option.map_eq_some_iff.1 h
    obtain ⟨rfl, rfl⟩ := Prod.mk.inj heq
    rw [separators_cons_of_not isSeparator_backslash, separators_cons_of_not isSeparator_backslash]
    exact ih hread
  | case6 c str hquote hbackslash ih =>
    obtain ⟨⟨arg', rest'⟩, hread, heq⟩ := Option.map_eq_some_iff.1 h
    obtain ⟨rfl, rfl⟩ := Prod.mk.inj heq
    have hle := ih hread
    by_cases hc : isSeparator c = true
    · rw [separators_cons_of hc, separators_cons_of hc]
      omega
    · rw [separators_cons_of_not (by simpa using hc), separators_cons_of_not (by simpa using hc)]
      exact hle

section Parse

variable {validFloat : List UInt8 → Bool} {isColor : Bool}

/-- A string parameter adds one argument, which has its separators from the text. -/
lemma parseArg_separators {command : UInt8} (hcommand : command = 115 ∨ command = 114)
    {str : List UInt8} {result result' : CResult} {rest : Option (List UInt8)}
    (h : parseArg validFloat isColor command str result = .ok (result', rest)) :
    argSeparators result'.args + separators (rest.getD []) ≤
      argSeparators result.args + separators str ∧ result'.victim = result.victim := by
  have hadd : ∀ arg, argSeparators (result.addArgument arg).args =
      argSeparators result.args + separators arg := fun arg => by
    rw [CResult.addArgument, argSeparators_append, argSeparators_singleton]
  by_cases hquote : str.head? = some quote
  · obtain ⟨text, rfl⟩ : ∃ text, str = quote :: text := List.head?_eq_some_iff.1 hquote
    rw [parseArg, if_pos hquote, List.tail_cons] at h
    cases hread : readQuoted text with
    | none =>
      rw [hread] at h
      exact absurd h (by simp)
    | some read =>
      obtain ⟨arg, rest'⟩ := read
      rw [hread] at h
      obtain ⟨rfl, rfl⟩ := Prod.mk.inj (Except.ok.inj h)
      have hle := readQuoted_separators hread
      refine ⟨?_, rfl⟩
      rw [hadd, separators_cons_of_not isSeparator_quote, Option.getD_some]
      omega
  · rw [parseArg, if_neg hquote] at h
    rcases hcommand with rfl | rfl
    · rw [if_neg (by decide)] at h
      obtain ⟨rfl, rfl⟩ := Prod.mk.inj (Except.ok.inj h)
      have hsplit : separators (strToken str) + separators (strSkipToWhitespace str) = separators str := by
        rw [← separators_append, strToken, strSkipToWhitespace, List.takeWhile_append_dropWhile]
      have htail := separators_le_of_sublist (List.tail_sublist (strSkipToWhitespace str))
      refine ⟨?_, rfl⟩
      have hne : ¬ (115 : UInt8) = 118 := by decide
      simp only [if_neg hne, or_true, if_true, Option.getD_some, hadd]
      omega
    · rw [if_pos rfl] at h
      obtain ⟨rfl, rfl⟩ := Prod.mk.inj (Except.ok.inj h)
      refine ⟨?_, rfl⟩
      rw [hadd]
      exact le_rfl

lemma parseParams_separators {commands : List UInt8}
    (hcommands : ∀ command ∈ commands, command = 115 ∨ command = 114 ∨ command = 63) {optional : Bool}
    {str : List UInt8} {result result' : CResult}
    (h : parseParams validFloat isColor optional commands str result = .ok result') :
    argSeparators result'.args ≤ argSeparators result.args + separators str ∧
      result'.victim = result.victim := by
  induction commands generalizing optional str result with
  | nil =>
    obtain rfl := Except.ok.inj h
    exact ⟨Nat.le_add_right _ _, rfl⟩
  | cons command commands ih =>
    have ih := @ih fun c hc => hcommands c (List.mem_cons_of_mem _ hc)
    by_cases hcommand : command = 63
    · rw [parseParams, if_pos hcommand] at h
      exact ih h
    · have hstring : command = 115 ∨ command = 114 := by
        rcases hcommands command List.mem_cons_self with hc | hc | hc
        · exact .inl hc
        · exact .inr hc
        · exact absurd hc hcommand
      have hskip := separators_le_of_sublist (List.dropWhile_sublist strIsSpace (l := str))
      rw [parseParams, if_neg hcommand] at h
      dsimp only at h
      by_cases hnil : strSkipWhitespaces str = []
      · have hvictim : 118 ∉ command :: commands := fun hv => by
          rcases hcommands 118 hv with hc | hc | hc <;> exact absurd hc (by decide)
        rw [if_pos hnil, if_neg hvictim] at h
        cases optional with
        | false => exact absurd h (by simp)
        | true =>
          obtain rfl := Except.ok.inj h
          exact ⟨Nat.le_add_right _ _, rfl⟩
      · rw [if_neg hnil] at h
        cases harg : parseArg validFloat isColor command (strSkipWhitespaces str) result with
        | error error =>
          rw [harg] at h
          exact absurd h (by simp)
        | ok read =>
          obtain ⟨result₁, rest⟩ := read
          obtain ⟨hle, hvictim⟩ := parseArg_separators hstring harg
          rw [harg] at h
          cases rest with
          | none =>
            obtain rfl := Except.ok.inj h
            exact ⟨hle.trans (Nat.add_le_add_left hskip _), hvictim⟩
          | some rest =>
            obtain ⟨hle', hvictim'⟩ := ih h
            exact ⟨(hle'.trans hle).trans (Nat.add_le_add_left hskip _), hvictim'.trans hvictim⟩

end Parse

end DDNet
