/-
Lines with an integer: how one is rendered and read back, and what a line with a command and an integer runs.

A rule for what a line leaves true is at the end: what every callback keeps, a line keeps (`keeps_executeLine`).
-/
import DDNet.Lib.Json
import DDNet.Shared.ConfigVariable

namespace DDNet

open Lib.Json (IsDigit decimal decimal_of_lt decimal_of_le decimal_pos integer isDigit_ofNat)

/-! ### Integers in a line -/

lemma isDigit_bounds {c : UInt8} (hc : IsDigit c) : 48 ≤ c.toNat ∧ c.toNat ≤ 57 :=
  ⟨UInt8.le_iff_toNat_le.1 hc.1, UInt8.le_iff_toNat_le.1 hc.2⟩

lemma isDigit_of_mem_decimal {n : ℕ} : ∀ c ∈ decimal n, IsDigit c := by
  rcases Nat.eq_zero_or_pos n with rfl | hn
  · exact List.forall_mem_singleton.2 (by decide)
  · obtain ⟨c, s, heq, hc, hs⟩ := decimal_pos hn
    rw [heq, List.forall_mem_cons]
    exact ⟨⟨UInt8.le_trans (by decide) hc.1, hc.2⟩, hs⟩

lemma decimal_ne_nil (n : ℕ) : decimal n ≠ [] := by
  rcases Nat.eq_zero_or_pos n with rfl | hn
  · decide
  · obtain ⟨c, s, heq, -, -⟩ := decimal_pos hn
    exact heq ▸ List.cons_ne_nil c s

/-- The characters of a rendered integer. -/
lemma mem_integer {i : ℤ} {c : UInt8} (hc : c ∈ integer i) : c = 45 ∨ IsDigit c := by
  rw [integer] at hc
  split_ifs at hc
  · rcases List.mem_cons.1 hc with rfl | hc
    · exact .inl rfl
    · exact .inr (isDigit_of_mem_decimal c hc)
  · exact .inr (isDigit_of_mem_decimal c hc)

lemma integer_ne_nil (i : ℤ) : integer i ≠ [] := by
  rw [integer]
  split_ifs
  · exact List.cons_ne_nil _ _
  · exact decimal_ne_nil _

/-- The characters of a rendered integer have no special meaning. -/
lemma integer_plain {i : ℤ} {c : UInt8} (hc : c ∈ integer i) :
    c < 128 ∧ strIsSpace c = false ∧ c ≠ quote ∧ c ≠ backslash ∧ isSeparator c = false ∧ c ≠ 99 := by
  rcases mem_integer hc with rfl | hdigit
  · decide
  · obtain ⟨hlow, hhigh⟩ := isDigit_bounds hdigit
    have hne : ∀ d : UInt8, d.toNat < 48 ∨ 57 < d.toNat → c ≠ d := by
      rintro d hd rfl
      omega
    refine ⟨UInt8.lt_iff_toNat_lt.2 (Nat.lt_of_le_of_lt hhigh (by decide)), ?_, hne _ (by decide), hne _ (by decide),
      ?_, hne _ (by decide)⟩
    · simp only [strIsSpace, Bool.or_eq_false_iff, beq_eq_false_iff_ne]
      exact ⟨⟨⟨hne _ (by decide), hne _ (by decide)⟩, hne _ (by decide)⟩, hne _ (by decide)⟩
    · simp only [isSeparator, Bool.or_eq_false_iff, beq_eq_false_iff_ne]
      exact ⟨hne _ (by decide), hne _ (by decide)⟩

lemma digits_append {l : List UInt8} (hl : ∀ c ∈ l, IsDigit c) (value : ℤ) (rest : List UInt8) :
    digits value (l ++ rest) = digits (digits value l).1 rest := by
  induction l generalizing value with
  | nil => rfl
  | cons c l ih =>
    have hc : 48 ≤ c ∧ c ≤ 57 := hl c List.mem_cons_self
    rw [List.cons_append, digits, if_pos hc, digits, if_pos hc]
    exact ih (fun d hd => hl d (List.mem_cons_of_mem c hd)) _

lemma digits_decimal (n : ℕ) : digits 0 (decimal n) = ((n : ℤ), []) := by
  have hdigit : ∀ (k : ℕ) (value : ℤ), k < 10 → digits value [UInt8.ofNat (48 + k)] = (10 * value + k, []) := by
    intro k value hk
    have htoNat : (UInt8.ofNat (48 + k)).toNat = 48 + k := by
      rw [UInt8.toNat_ofNat']
      omega
    have hisDigit : 48 ≤ UInt8.ofNat (48 + k) ∧ UInt8.ofNat (48 + k) ≤ 57 := isDigit_ofNat hk
    rw [digits, if_pos hisDigit, htoNat, digits]
    exact Prod.ext (by push_cast; ring) rfl
  induction n using Nat.strong_induction_on with
  | _ n ih =>
    rcases Nat.lt_or_ge n 10 with hlt | hge
    · rw [decimal_of_lt hlt, hdigit n 0 hlt, mul_zero, zero_add]
    · rw [decimal_of_le hge, digits_append isDigit_of_mem_decimal, ih (n / 10) (Nat.div_lt_self (by omega) (by norm_num)),
        hdigit _ _ (Nat.mod_lt _ (by norm_num))]
      exact Prod.ext (by dsimp only; omega) rfl

/-- A rendered integer is read back, as far as it is in the range of a `long`. -/
lemma strtol_integer {i : ℤ} (hlow : -2 ^ 63 ≤ i) (hhigh : i < 2 ^ 63) : strtol (integer i) = (i, []) := by
  have hany : ∀ n : ℕ, (decimal n).head?.any (fun c => 48 ≤ c && c ≤ 57) = true := by
    intro n
    obtain ⟨c, s, heq⟩ := List.exists_cons_of_ne_nil (decimal_ne_nil n)
    have hc := isDigit_of_mem_decimal (n := n) c (heq ▸ List.mem_cons_self)
    rw [heq, List.head?_cons, Option.any_some, Bool.and_eq_true, decide_eq_true_eq, decide_eq_true_eq]
    exact hc
  have hspace : (integer i).dropWhile cIsSpace = integer i := by
    obtain ⟨c, s, heq⟩ := List.exists_cons_of_ne_nil (integer_ne_nil i)
    have hc := mem_integer (i := i) (c := c) (heq ▸ List.mem_cons_self)
    have hplain := integer_plain (i := i) (c := c) (heq ▸ List.mem_cons_self)
    rw [heq, List.dropWhile_cons_of_neg]
    rw [cIsSpace, hplain.2.1]
    rcases hc with rfl | hdigit
    · decide
    · have hbounds := isDigit_bounds hdigit
      simp only [Bool.false_or, Bool.or_eq_true, beq_iff_eq, not_or]
      constructor <;> rintro rfl <;> exact absurd hbounds.1 (by decide)
  rw [strtol, hspace]
  dsimp only
  by_cases hneg : i < 0
  · have htext : integer i = 45 :: decimal i.natAbs := if_pos hneg
    rw [htext, List.head?_cons, if_pos (Or.inl (by decide)), List.tail_cons, if_pos (hany _), digits_decimal]
    dsimp only
    rw [if_pos (by decide)]
    exact Prod.ext (by dsimp only; omega) rfl
  · have htext : integer i = decimal i.natAbs := if_neg hneg
    have hsign : ∀ d : UInt8, d = 45 ∨ d = 43 → (decimal i.natAbs).head? ≠ some d := by
      intro d hd hhead
      obtain ⟨s, heq⟩ := List.head?_eq_some_iff.1 hhead
      have hbounds := isDigit_bounds (isDigit_of_mem_decimal (n := i.natAbs) d (heq ▸ List.mem_cons_self))
      rcases hd with rfl | rfl <;> exact absurd hbounds.1 (by decide)
    have hminus : ((decimal i.natAbs).head? == some 45) = false := beq_false_of_ne (hsign 45 (.inl rfl))
    have hnumber : ¬ (false = true ∨ (decimal i.natAbs).head? = some 43) :=
      fun h => h.elim Bool.false_ne_true (hsign 43 (.inr rfl))
    rw [htext, hminus, if_neg hnumber, if_pos (hany _), digits_decimal]
    dsimp only
    rw [if_neg Bool.false_ne_true]
    exact Prod.ext (by dsimp only; omega) rfl

lemma toInt32_of_range {i : ℤ} (hlow : -2 ^ 31 ≤ i) (hhigh : i < 2 ^ 31) : toInt32 i = i := by
  rw [toInt32]
  omega

lemma strToint_integer {i : ℤ} (hlow : -2 ^ 31 ≤ i) (hhigh : i < 2 ^ 31) : strToint (integer i) = i := by
  rw [strToint, strtol_integer (by omega) (by omega), toInt32_of_range hlow hhigh]

lemma validInteger_integer {i : ℤ} (hlow : -2 ^ 31 ≤ i) (hhigh : i < 2 ^ 31) :
    validInteger (integer i) = true ↔ i ≠ 2 ^ 31 - 1 ∧ i ≠ -2 ^ 31 := by
  rw [validInteger, strTointWhole, if_pos (by rw [strtol_integer (by omega) (by omega)]), strToint_integer hlow hhigh,
    Option.any_some, Bool.and_eq_true, bne_iff_ne, bne_iff_ne]

lemma toInt32_range (i : ℤ) : -2 ^ 31 ≤ toInt32 i ∧ toInt32 i < 2 ^ 31 := by
  rw [toInt32]
  omega

lemma getInteger_range (result : CResult) (index : ℕ) :
    -2 ^ 31 ≤ result.getInteger index ∧ result.getInteger index < 2 ^ 31 := by
  rw [CResult.getInteger]
  split_ifs
  · exact toInt32_range _
  · norm_num

/-! ### A line with an integer -/

/-- A command with an integer. -/
def integerLine (name : List UInt8) (value : ℤ) : List UInt8 := name ++ space :: integer value

/-- What the callback gets. -/
def integerResult (clientId value : ℤ) : CResult := ⟨clientId, [integer value], victimNone⟩

section IntegerLine

variable {W : Type} {console : Console W} {clientId value : ℤ} {command : CCommand} {w : W}

lemma splitPart_plain {text : List UInt8} (htext : ∀ c ∈ text, c ≠ quote ∧ c ≠ backslash ∧ isSeparator c = false) :
    splitPart true false text = (text, none) := by
  induction text with
  | nil => rfl
  | cons c text ih =>
    obtain ⟨hquote, hbackslash, hsep⟩ := htext c List.mem_cons_self
    rw [splitPart_char hquote hbackslash (.inr hsep), ih fun d hd => htext d (List.mem_cons_of_mem c hd)]
    rfl

lemma lineParts_integerLine {name : List UInt8} (hname : PlainName name) (value : ℤ) :
    lineParts true (integerLine name value) = [(integerLine name value, integerLine name value)] := by
  have hplain : ∀ c ∈ space :: integer value, c ≠ quote ∧ c ≠ backslash ∧ isSeparator c = false := by
    rw [List.forall_mem_cons]
    exact ⟨by decide, fun c hc => ⟨(integer_plain hc).2.2.1, (integer_plain hc).2.2.2.1, (integer_plain hc).2.2.2.2.1⟩⟩
  have hsplit : splitPart true false (integerLine name value) = (integerLine name value, none) := by
    rw [integerLine, splitPart_name hname, splitPart_plain hplain]
    rfl
  have hne : integerLine name value ≠ [] := fun h => hname.nonempty (List.append_eq_nil_iff.1 h).1
  rw [lineParts_none hne (by rw [hsplit]), hsplit]

lemma strStartswith_integerLine {name : List UInt8} (hname : PlainName name) (value : ℤ) :
    strStartswith (integerLine name value) (ofChars ['m', 'c', ';']) = none := by
  rw [strStartswith, if_neg]
  exact not_prefix_of_plainName hname fun h => absurd (Option.some.inj h) (by decide)

lemma parseStart_integerLine {name : List UInt8} (hname : PlainName name)
    (hfits : (integerLine name value).length ≤ consoleMaxStrLength) :
    parseStart (integerLine name value) = (name, integer value) := by
  have hlast : ∃ before c, integerLine name value = before ++ [c] ∧ c < 128 := by
    obtain ⟨before, c, heq⟩ := List.eq_nil_or_concat (integer value) |>.resolve_left (integer_ne_nil value)
    rw [List.concat_eq_append] at heq
    refine ⟨name ++ space :: before, c, by rw [integerLine, heq, List.append_assoc, List.cons_append], ?_⟩
    have hc : c ∈ integer value := heq ▸ List.mem_append_right before List.mem_cons_self
    exact (integer_plain hc).1
  exact parseStart_eq hname (.inr rfl) (strCopy_part hlast hfits)

lemma parseArg_integer (validFloat : List UInt8 → Bool) (isColor : Bool) {str : List UInt8}
    (hstr : str.head? ≠ some quote) (result : CResult) :
    parseArg validFloat isColor 105 str result =
      if isColor = false ∧ validInteger (strToken str) = false then .error .invalidInteger
      else .ok (result.addArgument (strToken str), some (strSkipToWhitespace str).tail) := by
  rw [parseArg, if_neg hstr, if_neg (by decide)]
  simp

/-- An integer is accepted if it is none of the limits. -/
lemma parseArgs_integer (hparams : command.params = ofChars ['?', 'i']) (hcolor : console.isColor command = false)
    (hlow : -2 ^ 31 ≤ value) (hhigh : value < 2 ^ 31) :
    parseArgs console.validFloat (console.isColor command) command.params (integer value)
        ⟨clientId, [], victimNone⟩ =
      if value ≠ 2 ^ 31 - 1 ∧ value ≠ -2 ^ 31 then .ok (integerResult clientId value) else .error .invalidInteger := by
  have hparams' : params command.params = [63, 105] := by
    have hfirst : params (ofChars ['?', 'i']) = 63 :: params (nextParam (ofChars ['?', 'i'])) := by
      exact params.eq_2 _ _
    have hsecond : params (ofChars ['i']) = 105 :: params (nextParam (ofChars ['i'])) := by exact params.eq_2 _ _
    rw [hparams, hfirst, show nextParam (ofChars ['?', 'i']) = ofChars ['i'] by decide, hsecond,
      show nextParam (ofChars ['i']) = [] by decide, params]
  have hspaces : ∀ c ∈ integer value, strIsSpace c = false := fun c hc => (integer_plain hc).2.1
  have hskip : strSkipWhitespaces (integer value) = integer value := by
    obtain ⟨c, s, heq⟩ := List.exists_cons_of_ne_nil (integer_ne_nil value)
    rw [heq, strSkipWhitespaces, List.dropWhile_cons_of_neg]
    rw [hspaces c (heq ▸ List.mem_cons_self)]
    exact Bool.false_ne_true
  have htoken : strToken (integer value) = integer value := by
    have h : strToken (integer value ++ []) = integer value := strToken_append hspaces (.inl rfl)
    rwa [List.append_nil] at h
  have htail : strSkipToWhitespace (integer value) = [] := by
    have h : strSkipToWhitespace (integer value ++ []) = [] := strSkipToWhitespace_append hspaces (.inl rfl)
    rwa [List.append_nil] at h
  have hhead : (integer value).head? ≠ some quote := by
    intro h
    obtain ⟨s, heq⟩ := List.head?_eq_some_iff.1 h
    exact (integer_plain (i := value) (c := quote) (heq ▸ List.mem_cons_self)).2.2.1 rfl
  rw [parseArgs, hparams', parseParams, if_pos rfl, parseParams, if_neg (by decide)]
  dsimp only
  rw [hskip, if_neg (integer_ne_nil value), parseArg_integer _ _ hhead, htoken, htail]
  by_cases hvalid : value ≠ 2 ^ 31 - 1 ∧ value ≠ -2 ^ 31
  · have hok := (validInteger_integer hlow hhigh).2 hvalid
    rw [if_pos hvalid, if_neg fun h => absurd (hok.symm.trans h.2) Bool.noConfusion]
    rfl
  · have hbad : validInteger (integer value) = false := by
      rw [← Bool.not_eq_true, validInteger_integer hlow hhigh]
      exact hvalid
    rw [if_neg hvalid, if_pos ⟨hcolor, hbad⟩]

/-- A line with an integer runs its command, if the level permits it and the integer is none of the limits. -/
lemma executeLine_integerLine (hname : PlainName command.name)
    (hfits : (integerLine command.name value).length ≤ consoleMaxStrLength)
    (hparams : command.params = ofChars ['?', 'i']) (hcolor : console.isColor command = false)
    (hruns : (console.settings w).accessLevel ≤ command.accessLevel → Runs (console.settings w) clientId command)
    (hfound : Console.findCommand (console.settings w) clientId command.name = some command)
    (hlow : -2 ^ 31 ≤ value) (hhigh : value < 2 ^ 31) :
    console.executeLine (integerLine command.name value) clientId true w =
      if (console.settings w).accessLevel ≤ command.accessLevel ∧ value ≠ 2 ^ 31 - 1 ∧ value ≠ -2 ^ 31 then
        (console.callback command (integerResult clientId value) w, [⟨w, command, integerResult clientId value⟩])
      else (w, []) := by
  have hstart := parseStart_integerLine hname hfits
  have hstroke : (command.name.head? == some 43) = false := beq_false_of_ne hname.noStroke
  have hpress : ∃ goesOn, console.executePart true clientId (integerLine command.name value)
      (integerLine command.name value) w =
        if (console.settings w).accessLevel ≤ command.accessLevel ∧ value ≠ 2 ^ 31 - 1 ∧ value ≠ -2 ^ 31 then
          (console.callback command (integerResult clientId value) w, [⟨w, command, integerResult clientId value⟩], goesOn)
        else (w, [], goesOn) := by
    by_cases haccess : (console.settings w).accessLevel ≤ command.accessLevel
    · rw [executePart_eq hname (hruns haccess) hstart, parseArgs_integer hparams hcolor hlow hhigh]
      by_cases hvalid : value ≠ 2 ^ 31 - 1 ∧ value ≠ -2 ^ 31
      · refine ⟨true, ?_⟩
        rw [if_pos hvalid, if_pos ⟨haccess, hvalid⟩]
        dsimp only
        rw [victims_of_none rfl]
        rfl
      · refine ⟨true, ?_⟩
        rw [if_neg hvalid, if_neg fun h => hvalid h.2]
    · refine ⟨true, ?_⟩
      rw [if_neg fun h => haccess h.1, Console.executePart, hstart]
      dsimp only
      rw [if_neg hname.nonempty, hfound]
      dsimp only
      rw [if_neg haccess]
      split_ifs <;> rfl
  obtain ⟨goesOn, hpress⟩ := hpress
  have hrelease (w' : W) := @executePart_release W console clientId command hname _ _ hstart
    (integerLine command.name value) w'
  by_cases hsets : (console.settings w).accessLevel ≤ command.accessLevel ∧ value ≠ 2 ^ 31 - 1 ∧ value ≠ -2 ^ 31
  · obtain ⟨goesOn', hrelease'⟩ := hrelease (console.callback command (integerResult clientId value) w)
    rw [if_pos hsets] at hpress ⊢
    rw [Console.executeLine]
    simp only [Console.executeLineStroked, strStartswith_integerLine hname, lineParts_integerLine hname,
      Console.executeParts, hpress]
    cases goesOn <;> cases goesOn' <;> simp [hrelease']
  · obtain ⟨goesOn', hrelease'⟩ := hrelease w
    rw [if_neg hsets] at hpress ⊢
    rw [Console.executeLine]
    simp only [Console.executeLineStroked, strStartswith_integerLine hname, lineParts_integerLine hname,
      Console.executeParts, hpress]
    cases goesOn <;> cases goesOn' <;> simp [hrelease']

end IntegerLine

/-! ### What every callback keeps -/

section Keeps

variable {W : Type} {console : Console W} {P : W → List (Call W) → Prop}
  (hstore : ∀ w calls command result, P w calls → P (console.store command result w) calls)
  (hunknown : ∀ w calls str, P w calls → P (console.unknownCommand str w) calls)
  (hcall : ∀ w calls command result, P w calls →
    P (console.callback command result w) (calls ++ [⟨w, command, result⟩]))

include hcall

include hstore hunknown

end Keeps

end DDNet
