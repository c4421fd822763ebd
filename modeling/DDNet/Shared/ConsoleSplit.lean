/-
Commands rendered as text with quoted and escaped arguments and joined to one line, and where the
splitter of the console separates them.
-/
import DDNet.Shared.ConsoleLine
import Mathlib.Algebra.Group.Nat.Even

namespace DDNet

/-- A character that ends a part of the line outside of a string. -/
def isSeparator (c : UInt8) : Bool := c == semicolon || c == hash

/-- The argument in quotes, after a blank. -/
def renderArg (arg : List UInt8) : List UInt8 := space :: quote :: (escape arg ++ [quote])

/-- The command with its arguments. -/
def renderCommand (name : List UInt8) (args : List (List UInt8)) : List UInt8 :=
  name ++ args.flatMap renderArg

/-- The commands of a line, each with its arguments. -/
abbrev Line := List (CCommand × List (List UInt8))

/-- The commands joined with `;`. -/
def renderLine : Line → List UInt8
  | [] => []
  | [(command, args)] => renderCommand command.name args
  | (command, args) :: entry :: line =>
    renderCommand command.name args ++ semicolon :: renderLine (entry :: line)

/-- The argument ends in a backslash. -/
def endsInBackslash (arg : List UInt8) : Bool := arg.getLast? == some backslash

/-- No separator of the line stands where the splitter takes it for a part of a command, or the
other way round: an argument after an odd number of arguments that end in a backslash has no
separator, and every command but the last one has an even number of such arguments. -/
def Separated (line : Line) : Prop :=
  (∀ entry ∈ line, ∀ i arg, entry.2[i]? = some arg →
    Odd ((entry.2.take i).countP endsInBackslash) → ∀ c ∈ arg, isSeparator c = false) ∧
  ∀ entry ∈ line.dropLast, Even (entry.2.countP endsInBackslash)

/-! ### The splitter on escaped text -/

/-- The part with more characters in front of it. -/
def prependPart (text : List UInt8) (part : List UInt8 × Option (List UInt8)) :
    List UInt8 × Option (List UInt8) :=
  (text ++ part.1, part.2)

lemma prependPart_prependPart (text text' : List UInt8) (part : List UInt8 × Option (List UInt8)) :
    prependPart text (prependPart text' part) = prependPart (text ++ text') part := by
  rw [prependPart, prependPart, prependPart, List.append_assoc]

lemma prependPart_nil (part : List UInt8 × Option (List UInt8)) : prependPart [] part = part := rfl

lemma splitPart_quote (inString : Bool) (str : List UInt8) :
    splitPart true inString (quote :: str) = prependPart [quote] (splitPart true (!inString) str) := by
  rw [splitPart.eq_def]
  simp only [if_pos]
  rfl

lemma splitPart_escaped (inString : Bool) (str : List UInt8) :
    splitPart true inString (backslash :: quote :: str) =
      prependPart [backslash, quote] (splitPart true inString str) := by
  rw [splitPart, if_neg (by decide), if_pos rfl]
  simp only [if_pos]
  rfl

lemma splitPart_backslash {str : List UInt8} (hstr : str.head? ≠ some quote) (inString : Bool) :
    splitPart true inString (backslash :: str) = prependPart [backslash] (splitPart true inString str) := by
  cases str with
  | nil => rfl
  | cons d str =>
    have hd : d ≠ quote := fun hd => hstr (hd ▸ rfl)
    rw [splitPart, if_neg (by decide), if_pos rfl]
    simp only [if_neg hd]
    rfl

lemma splitPart_char {c : UInt8} {inString : Bool} (hquote : c ≠ quote) (hbackslash : c ≠ backslash)
    (hsep : inString = true ∨ isSeparator c = false) (str : List UInt8) :
    splitPart true inString (c :: str) = prependPart [c] (splitPart true inString str) := by
  rw [splitPart.eq_def]
  simp only [if_neg hquote, if_neg hbackslash]
  rcases hsep with rfl | hsep
  · rfl
  · rw [isSeparator, Bool.or_eq_false_iff] at hsep
    rw [hsep.1, hsep.2, Bool.and_false, if_neg Bool.false_ne_true, if_neg Bool.false_ne_true]
    rfl

lemma splitPart_separator {c : UInt8} (hsep : isSeparator c = true) (str : List UInt8) :
    splitPart true false (c :: str) = ([], if c = semicolon then some str else none) := by
  rw [isSeparator, Bool.or_eq_true, beq_iff_eq, beq_iff_eq] at hsep
  rcases hsep with rfl | rfl
  · rw [splitPart.eq_def, if_pos rfl]
    exact (if_neg (by decide)).trans ((if_neg (by decide)).trans (if_pos rfl))
  · rw [splitPart.eq_def, if_neg (by decide)]
    exact (if_neg (by decide)).trans ((if_neg (by decide)).trans ((if_neg (by decide)).trans (if_pos rfl)))

lemma head?_cons_ne {c : UInt8} (hc : c ≠ quote) (str : List UInt8) : (c :: str).head? ≠ some quote :=
  fun h => hc (Option.some_injective _ h)

lemma isSeparator_quote : isSeparator quote = false := rfl

lemma isSeparator_backslash : isSeparator backslash = false := rfl

lemma escape_cons (c : UInt8) (text : List UInt8) : escape (c :: text) = escapeChar c ++ escape text :=
  List.flatMap_cons

lemma escape_append (text text' : List UInt8) : escape (text ++ text') = escape text ++ escape text' :=
  List.flatMap_append

lemma escapeChar_quote : escapeChar quote = [backslash, quote] := rfl

lemma escapeChar_backslash : escapeChar backslash = [backslash, backslash] := rfl

lemma escapeChar_of_ne {c : UInt8} (hquote : c ≠ quote) (hbackslash : c ≠ backslash) :
    escapeChar c = [c] :=
  if_neg (not_or_intro hquote hbackslash)

/-- Escaped text does not start with a quote. -/
lemma head?_escape_append {text rest : List UInt8} (hrest : rest.head? ≠ some quote) :
    (escape text ++ rest).head? ≠ some quote := by
  cases text with
  | nil => exact hrest
  | cons c text =>
    rw [escape_cons, escapeChar]
    split_ifs with hc
    · exact head?_cons_ne (by decide) _
    · exact head?_cons_ne (fun h => hc (.inl h)) _

/-- The splitter goes through escaped text, if it is in a string or the text has no separator. -/
lemma splitPart_escape {inString : Bool} {text rest : List UInt8}
    (hsep : inString = true ∨ ∀ c ∈ text, isSeparator c = false) (hrest : rest.head? ≠ some quote) :
    splitPart true inString (escape text ++ rest) =
      prependPart (escape text) (splitPart true inString rest) := by
  induction text with
  | nil => rfl
  | cons c text ih =>
    have ih := ih (hsep.imp_right fun h d hd => h d (List.mem_cons_of_mem _ hd))
    rw [escape_cons, List.append_assoc]
    by_cases hquote : c = quote
    · subst hquote
      rw [escapeChar_quote, List.cons_append, List.cons_append, List.nil_append, splitPart_escaped, ih,
        prependPart_prependPart]
    · by_cases hbackslash : c = backslash
      · subst hbackslash
        rw [escapeChar_backslash, List.cons_append, List.cons_append, List.nil_append,
          splitPart_backslash (head?_cons_ne (by decide) _),
          splitPart_backslash (head?_escape_append hrest), ih,
          prependPart_prependPart, prependPart_prependPart]
        rfl
      · rw [escapeChar_of_ne hquote hbackslash, List.singleton_append,
          splitPart_char hquote hbackslash (hsep.imp_right fun h => h c List.mem_cons_self), ih,
          prependPart_prependPart]

/-- The closing quote of an argument ends the string, unless the argument ends in a backslash: then
the splitter takes the quote for an escaped one. -/
lemma splitPart_escape_quote {inString : Bool} {arg rest : List UInt8}
    (hsep : inString = true ∨ ∀ c ∈ arg, isSeparator c = false) :
    splitPart true inString (escape arg ++ quote :: rest) =
      prependPart (escape arg ++ [quote])
        (splitPart true (if endsInBackslash arg then inString else !inString) rest) := by
  rcases List.eq_nil_or_concat arg with rfl | ⟨text, c, rfl⟩
  · exact splitPart_quote inString rest
  have hc : (escapeChar c ++ quote :: rest).head? ≠ some quote := by
    rw [escapeChar]
    split_ifs with hc
    · exact head?_cons_ne (by decide) _
    · exact head?_cons_ne (fun h => hc (.inl h)) _
  have hends : endsInBackslash (text.concat c) = (c == backslash) := by
    rw [endsInBackslash, List.concat_eq_append, List.getLast?_concat]
    rfl
  have hsingle : escape [c] = escapeChar c := List.append_nil _
  rw [hends]
  rw [List.concat_eq_append] at hsep ⊢
  rw [escape_append, hsingle, List.append_assoc,
    splitPart_escape (hsep.imp_right fun h d hd => h d (List.mem_append_left _ hd)) hc]
  by_cases hquote : c = quote
  · subst hquote
    rw [escapeChar_quote, List.cons_append, List.cons_append, List.nil_append, splitPart_escaped,
      splitPart_quote, prependPart_prependPart, prependPart_prependPart, List.append_assoc]
    rfl
  · by_cases hbackslash : c = backslash
    · subst hbackslash
      rw [escapeChar_backslash, List.cons_append, List.cons_append, List.nil_append,
        splitPart_backslash (head?_cons_ne (by decide) _), splitPart_escaped, prependPart_prependPart,
        prependPart_prependPart, List.append_assoc, List.append_assoc, if_pos (beq_self_eq_true _)]
      rfl
    · rw [escapeChar_of_ne hquote hbackslash, List.singleton_append,
        splitPart_char hquote hbackslash
          (hsep.imp_right fun h => h c (List.mem_append_right _ List.mem_cons_self)),
        splitPart_quote, prependPart_prependPart, prependPart_prependPart, beq_false_of_ne hbackslash,
        List.append_assoc]
      rfl

/-! ### The splitter on rendered arguments -/

/-- Whether the splitter is in a string after the arguments. -/
def inStringAfter (inString : Bool) (args : List (List UInt8)) : Bool :=
  args.foldl (fun inString arg => if endsInBackslash arg then !inString else inString) inString

/-- No argument that the splitter reads outside of a string has a separator. -/
def ArgsSafe : Bool → List (List UInt8) → Prop
  | _, [] => True
  | inString, arg :: args => (inString = true → ∀ c ∈ arg, isSeparator c = false) ∧
      ArgsSafe (if endsInBackslash arg then !inString else inString) args

lemma splitPart_renderArg {inString : Bool} {arg : List UInt8}
    (hsep : inString = true → ∀ c ∈ arg, isSeparator c = false) (rest : List UInt8) :
    splitPart true inString (renderArg arg ++ rest) = prependPart (renderArg arg)
      (splitPart true (if endsInBackslash arg then !inString else inString) rest) := by
  have hsep' : (!inString) = true ∨ ∀ c ∈ arg, isSeparator c = false := by
    cases inString with
    | false => exact .inl rfl
    | true => exact .inr (hsep rfl)
  rw [renderArg, List.cons_append, List.cons_append, List.append_assoc, List.singleton_append,
    splitPart_char (by decide) (by decide) (.inr rfl), splitPart_quote, splitPart_escape_quote hsep',
    prependPart_prependPart, prependPart_prependPart, Bool.not_not]
  rfl

lemma splitPart_renderArgs {inString : Bool} {args : List (List UInt8)} (hsafe : ArgsSafe inString args)
    (rest : List UInt8) : splitPart true inString (args.flatMap renderArg ++ rest) =
      prependPart (args.flatMap renderArg) (splitPart true (inStringAfter inString args) rest) := by
  induction args generalizing inString with
  | nil => rfl
  | cons arg args ih =>
    rw [List.flatMap_cons, List.append_assoc, splitPart_renderArg hsafe.1, ih hsafe.2,
      prependPart_prependPart]
    rfl

/-- Where the splitter cuts an argument in two. -/
lemma splitPart_renderArgs_cut {inString : Bool} {args : List (List UInt8)}
    (hcut : ¬ ArgsSafe inString args) (rest : List UInt8) :
    ∃ before text c text' after, args = before ++ (text ++ c :: text') :: after ∧
      isSeparator c = true ∧ splitPart true inString (args.flatMap renderArg ++ rest) =
        (before.flatMap renderArg ++ space :: quote :: escape text,
          if c = semicolon then
            some (escape text' ++ quote :: (after.flatMap renderArg ++ rest)) else none) := by
  induction args generalizing inString with
  | nil => exact absurd trivial hcut
  | cons arg args ih =>
    by_cases hsep : inString = true → ∀ c ∈ arg, isSeparator c = false
    · have hrest := fun h => hcut ⟨hsep, h⟩
      obtain ⟨before, text, c, text', after, hargs, hc, hsplit⟩ := ih hrest
      refine ⟨arg :: before, text, c, text', after, congrArg _ hargs, hc, ?_⟩
      rw [List.flatMap_cons, List.append_assoc, splitPart_renderArg hsep, hsplit, prependPart,
        List.flatMap_cons, List.append_assoc]
    · push Not at hsep
      obtain ⟨rfl, c, hcarg, hc⟩ := hsep
      have hfind : ∃ text c text', arg = text ++ c :: text' ∧ isSeparator c = true ∧
          ∀ d ∈ text, isSeparator d = false := by
        obtain ⟨c, hfind⟩ := Option.isSome_iff_exists.1 (List.find?_isSome.2 ⟨c, hcarg, by simpa using hc⟩)
        obtain ⟨hc, text, text', harg, htext⟩ := List.find?_eq_some_iff_append.1 hfind
        exact ⟨text, c, text', harg, hc, fun d hd => by simpa using htext d hd⟩
      obtain ⟨text, c, text', rfl, hc, htext⟩ := hfind
      have hplain : c ≠ quote ∧ c ≠ backslash := by
        constructor <;> rintro rfl <;> exact absurd hc (by decide)
      refine ⟨[], text, c, text', args, rfl, hc, ?_⟩
      rw [List.flatMap_cons, renderArg, List.cons_append, List.cons_append, List.cons_append,
        List.cons_append, splitPart_char (by decide) (by decide) (.inr rfl), splitPart_quote,
        escape_append, escape_cons, escapeChar_of_ne hplain.1 hplain.2, List.append_assoc,
        List.append_assoc, List.append_assoc, List.append_assoc, List.singleton_append,
        splitPart_escape (.inr htext) (head?_cons_ne hplain.1 _), Bool.not_true,
        splitPart_separator hc]
      rw [prependPart, prependPart, prependPart, List.append_nil]
      rfl

end DDNet
