/-
Comparison of file names (`str_comp_filenames`, `base/system.cpp`).

Numbers in the names are compared by their length and then by their digits, other characters without case.  A name is the
word of its numbers and characters (`tokens`), and the comparison is the lexicographic one of these words
(`strCompFilenames_eq`), but for an end behind a number: a name that ends there is alike to every name that goes on with
another character.  That is no equivalence (`compFilenames_order_iff`).
-/
import DDNet.Base.Str
import DDNet.Lib.LooseOrder
import Mathlib.Data.List.Lex
import Mathlib.Data.List.TakeWhile
import Mathlib.Data.Prod.Lex

namespace DDNet

open Lib

/-- The value of a `char`, which is signed. -/
def charVal (c : UInt8) : ℤ := if c.toNat < 128 then c.toNat else c.toNat - 256

/-- `str_isnum`. -/
def strIsnum (c : UInt8) : Bool := 48 ≤ c.toNat && c.toNat ≤ 57

/-- The string starts with a digit. -/
def startsNum (s : List UInt8) : Bool := strIsnum (s.headD 0)

lemma toNat_toLower (c : UInt8) :
    (toLower c).toNat = if 65 ≤ c.toNat ∧ c.toNat ≤ 90 then c.toNat + 32 else c.toNat := by
  have hiff : (65 ≤ c && c ≤ 90) = true ↔ 65 ≤ c.toNat ∧ c.toNat ≤ 90 := by
    rw [Bool.and_eq_true, decide_eq_true_iff, decide_eq_true_iff, UInt8.le_iff_toNat_le, UInt8.le_iff_toNat_le]
    rfl
  by_cases hc : 65 ≤ c.toNat ∧ c.toNat ≤ 90
  · rw [toLower, if_pos (hiff.2 hc), if_pos hc, UInt8.toNat_add, show (32 : UInt8).toNat = 32 from rfl]
    omega
  · rw [toLower, if_neg (fun h => hc (hiff.1 h)), if_neg hc]

lemma charVal_injective {c d : UInt8} (h : charVal c = charVal d) : c = d := by
  have hc := c.toNat_lt
  have hd := d.toNat_lt
  refine UInt8.toNat_inj.1 ?_
  rw [charVal, charVal] at h
  split_ifs at h <;> omega

lemma toLower_digit {c : UInt8} (hc : strIsnum c = true) : toLower c = c := by
  rw [strIsnum, Bool.and_eq_true, decide_eq_true_iff, decide_eq_true_iff] at hc
  refine UInt8.toNat_inj.1 ?_
  rw [toNat_toLower, if_neg (by omega)]

lemma strIsnum_toLower (c : UInt8) : strIsnum (toLower c) = strIsnum c := by
  rw [strIsnum, strIsnum, toNat_toLower, Bool.eq_iff_iff]
  simp only [Bool.and_eq_true, decide_eq_true_iff]
  split_ifs <;> omega

lemma toLower_toLower (c : UInt8) : toLower (toLower c) = toLower c := by
  refine UInt8.toNat_inj.1 ?_
  rw [toNat_toLower, toNat_toLower]
  split_ifs <;> omega

/-- A number or another character of a name. -/
inductive Token where
  | number (digits : List UInt8)
  | other (c : UInt8)
deriving DecidableEq

namespace Token

/-- Numbers are between the other characters, by their length and their digits. -/
def key : Token → ℤ ×ₗ ℕ ×ₗ List ℤ
  | number digits => toLex (48, toLex (digits.length + 1, digits.map charVal))
  | other c => toLex (charVal c, toLex (0, []))

lemma key_injective : Function.Injective key := by
  rintro (ds | c) (es | d) h
  · obtain ⟨-, h⟩ := Prod.mk.inj h
    obtain ⟨-, h⟩ := Prod.mk.inj h
    rw [List.map_injective_iff.2 (fun _ _ => charVal_injective) h]
  · exact absurd (Prod.mk.inj (Prod.mk.inj h).2).1 (Nat.succ_ne_zero _)
  · exact absurd (Prod.mk.inj (Prod.mk.inj h).2).1.symm (Nat.succ_ne_zero _)
  · rw [charVal_injective (Prod.mk.inj h).1]

instance : LinearOrder Token := LinearOrder.lift' key key_injective

/-- An end behind a number is loose. -/
def isNumber : Token → Bool
  | number _ => true
  | other _ => false

/-- The characters of a token, without case. -/
def chars : Token → List UInt8
  | number digits => digits
  | other c => [c]

end Token

/-- The tokens of a name. -/
def tokens : List UInt8 → List Token
  | [] => []
  | c :: s =>
    if strIsnum c then .number (c :: s.takeWhile strIsnum) :: tokens (s.dropWhile strIsnum)
    else .other (toLower c) :: tokens s
termination_by s => s.length
decreasing_by
  · exact Nat.lt_succ_of_le (List.dropWhile_suffix _).length_le
  · exact Nat.lt_succ_self _

/-! ### The run over digits -/

variable {ds es a b : List UInt8}

namespace Token

end Token

lemma tokens_digit {c : UInt8} (hc : strIsnum c = true) (s : List UInt8) :
    tokens (c :: s) = .number (c :: s.takeWhile strIsnum) :: tokens (s.dropWhile strIsnum) := by
  rw [tokens, if_pos hc]

lemma tokens_other {c : UInt8} (hc : strIsnum c = false) (s : List UInt8) :
    tokens (c :: s) = .other (toLower c) :: tokens s := by
  rw [tokens, hc, if_neg Bool.false_ne_true]

lemma startsNum_dropWhile (s : List UInt8) : startsNum (s.dropWhile strIsnum) = false := by
  rcases hs : s.dropWhile strIsnum with _ | ⟨c, t⟩
  · rfl
  · have h := List.head?_dropWhile_not strIsnum s
    rw [hs] at h
    exact h

lemma takeWhile_digits {c : UInt8} (hc : strIsnum c = true) (s : List UInt8) :
    ∀ d ∈ c :: s.takeWhile strIsnum, strIsnum d = true :=
  List.forall_mem_cons.2 ⟨hc, fun _ hd => List.mem_takeWhile_imp hd⟩

lemma map_toLower_digits (hds : ∀ d ∈ ds, strIsnum d = true) : ds.map toLower = ds := by
  conv_rhs => rw [← List.map_id ds]
  exact List.map_congr_left fun d hd => toLower_digit (hds d hd)

/-- The words of the names make the names, without case. -/
lemma flatMap_chars_tokens (a : List UInt8) : (tokens a).flatMap Token.chars = a.map toLower := by
  fun_induction tokens a with
  | case1 => rfl
  | case2 c s hc ih =>
    have hds := takeWhile_digits hc s
    rw [List.flatMap_cons, ih, Token.chars, List.cons_append, List.map_cons, toLower_digit hc]
    nth_rewrite 3 [← List.takeWhile_append_dropWhile (p := strIsnum) (l := s)]
    rw [List.map_append, map_toLower_digits (List.forall_mem_cons.1 hds).2]
  | case3 c s hc ih => rw [List.flatMap_cons, ih, Token.chars, List.singleton_append, List.map_cons]

lemma tokens_map_toLower (a : List UInt8) : tokens (a.map toLower) = tokens a := by
  have hcomp : strIsnum ∘ toLower = strIsnum := funext strIsnum_toLower
  fun_induction tokens a with
  | case1 => rw [List.map_nil, tokens]
  | case2 c s hc ih =>
    have hds := List.forall_mem_cons.1 (takeWhile_digits hc s)
    rw [List.map_cons, toLower_digit hc, tokens_digit hc, List.takeWhile_map, List.dropWhile_map, hcomp, ih,
      map_toLower_digits hds.2]
  | case3 c s hc ih =>
    rw [Bool.not_eq_true] at hc
    rw [List.map_cons, tokens_other ((strIsnum_toLower c).trans hc), toLower_toLower, ih]

lemma tokens_eq_iff : tokens a = tokens b ↔ a.map toLower = b.map toLower := by
  constructor
  · intro h
    rw [← flatMap_chars_tokens, h, flatMap_chars_tokens]
  · intro h
    rw [← tokens_map_toLower, h, tokens_map_toLower]

lemma takeWhile_append_stop (hb : startsNum b = false) (s : List UInt8) :
    (s ++ b).takeWhile strIsnum = s.takeWhile strIsnum ∧ (s ++ b).dropWhile strIsnum = s.dropWhile strIsnum ++ b := by
  induction s with
  | nil =>
    cases b with
    | nil => exact ⟨rfl, rfl⟩
    | cons y b =>
      have hy : ¬strIsnum y = true := Bool.not_eq_true _ ▸ hb
      exact ⟨List.takeWhile_cons_of_neg hy, List.dropWhile_cons_of_neg hy⟩
  | cons c s ih =>
    rw [List.cons_append]
    by_cases hc : strIsnum c = true
    · rw [List.takeWhile_cons_of_pos hc, List.takeWhile_cons_of_pos hc, List.dropWhile_cons_of_pos hc,
        List.dropWhile_cons_of_pos hc, ih.1]
      exact ⟨rfl, ih.2⟩
    · rw [List.takeWhile_cons_of_neg hc, List.takeWhile_cons_of_neg hc, List.dropWhile_cons_of_neg hc,
        List.dropWhile_cons_of_neg hc]
      exact ⟨rfl, rfl⟩

lemma tokens_append (hb : startsNum b = false) (a : List UInt8) : tokens (a ++ b) = tokens a ++ tokens b := by
  fun_induction tokens a with
  | case1 => rfl
  | case2 c s hc ih =>
    obtain ⟨htake, hdrop⟩ := takeWhile_append_stop hb s
    rw [List.cons_append, tokens_digit hc, htake, hdrop, ih, List.cons_append]
  | case3 c s hc ih =>
    rw [Bool.not_eq_true] at hc
    rw [List.cons_append, tokens_other hc, ih, List.cons_append]

/-- A number is followed by another character. -/
lemma other_of_tokens_eq {a : List UInt8} {xs ys : List Token} {y : Token}
    (h : tokens a = xs ++ .number ds :: y :: ys) : ∃ c, strIsnum c = false ∧ y = .other c := by
  fun_induction tokens a generalizing xs with
  | case1 => exact absurd h.symm (List.append_ne_nil_of_right_ne_nil _ (List.cons_ne_nil _ _))
  | case2 c s hc ih =>
    rcases xs with _ | ⟨x, xs⟩
    · obtain ⟨-, htail⟩ := List.cons.inj h
      have hstart := startsNum_dropWhile s
      rcases hrest : s.dropWhile strIsnum with _ | ⟨d, t⟩
      · rw [hrest, tokens] at htail
        exact absurd htail.symm (List.cons_ne_nil _ _)
      · rw [hrest] at htail hstart
        have hd : strIsnum d = false := hstart
        rw [tokens_other hd] at htail
        exact ⟨toLower d, (strIsnum_toLower d).trans hd, (List.cons.inj htail).1.symm⟩
    · exact ih (List.cons.inj h).2
  | case3 c s hc ih =>
    rcases xs with _ | ⟨x, xs⟩
    · exact Token.noConfusion (List.cons.inj h).1
    · exact ih (List.cons.inj h).2

/-- The string ends in a digit. -/
def endsNum (s : List UInt8) : Bool := (s.getLast?.map strIsnum).getD false

lemma looseEnd_digits (hds : ∀ d ∈ ds, strIsnum d = true) (s : List UInt8) :
    looseEnd strIsnum true (ds ++ s) = looseEnd strIsnum true s := by
  induction ds with
  | nil => rfl
  | cons d ds ih =>
    obtain ⟨hd, hds⟩ := List.forall_mem_cons.1 hds
    rw [List.cons_append, looseEnd_cons, hd, ih hds]

lemma looseEnd_tokens (loose : Bool) (a : List UInt8) :
    looseEnd Token.isNumber loose (tokens a) = looseEnd strIsnum loose a := by
  fun_induction tokens a generalizing loose with
  | case1 => rfl
  | case2 c s hc ih =>
    rw [looseEnd_cons, looseEnd_cons, hc, Token.isNumber, ih,
      ← looseEnd_digits (List.forall_mem_cons.1 (takeWhile_digits hc s)).2, List.takeWhile_append_dropWhile]
  | case3 c s hc ih =>
    rw [Bool.not_eq_true] at hc
    rw [looseEnd_cons, looseEnd_cons, hc, Token.isNumber, ih]

/-- A name that ends in a number, and one that goes on behind it with another character, but for case. -/
def GoesOn (a b : List UInt8) : Prop :=
  endsNum a = true ∧ ∃ c t, strIsnum c = false ∧ b.map toLower = a.map toLower ++ c :: t

lemma continues_tokens : Continues Token.isNumber false (tokens a) (tokens b) ↔ GoesOn a b := by
  rw [Continues, looseEnd_tokens, GoesOn]
  refine and_congr_right fun hend => ?_
  constructor
  · rintro ⟨z, zs, htokens⟩
    have hloose := looseEnd_tokens false a
    rw [hend, looseEnd] at hloose
    rcases hlast : (tokens a).getLast? with _ | last
    · rw [hlast] at hloose
      exact Bool.noConfusion hloose
    · rw [hlast] at hloose
      obtain ⟨init, hinit⟩ := List.getLast?_eq_some_iff.1 hlast
      rcases last with ds | c
      · rw [hinit, List.append_assoc, List.singleton_append] at htokens
        obtain ⟨c, hc, rfl⟩ := other_of_tokens_eq htokens
        refine ⟨c, zs.flatMap Token.chars, hc, ?_⟩
        rw [← flatMap_chars_tokens, ← flatMap_chars_tokens, htokens, hinit]
        simp only [List.flatMap_append, List.flatMap_cons, List.flatMap_nil, Token.chars, List.append_assoc,
          List.cons_append, List.nil_append]
      · exact Bool.noConfusion hloose
  · rintro ⟨c, t, hc, hlower⟩
    refine ⟨.other (toLower c), tokens t, ?_⟩
    have hstart : startsNum (c :: t) = false := hc
    rw [← tokens_map_toLower b, hlower, tokens_append hstart, tokens_map_toLower, tokens_other hc]

/-- The names are the same but for case, or one goes on behind a number at the end of the other one. -/
def Alike (a b : List UInt8) : Prop := a.map toLower = b.map toLower ∨ GoesOn a b ∨ GoesOn b a

variable {a b c : List UInt8}

lemma GoesOn.trans (hab : GoesOn a b) (hbc : GoesOn b c) : GoesOn a c := by
  obtain ⟨hend, x, t, hx, hb⟩ := hab
  obtain ⟨-, y, u, -, hc⟩ := hbc
  exact ⟨hend, x, t ++ y :: u, hx, by rw [hc, hb, List.append_assoc, List.cons_append]⟩

/-- Of two names that go on with the same name, one is the other or goes on with it. -/
lemma alike_of_goesOn (hac : GoesOn a c) (hbc : GoesOn b c) : Alike a b := by
  obtain ⟨henda, x, t, hx, ha⟩ := hac
  obtain ⟨hendb, y, u, hy, hb⟩ := hbc
  rcases List.append_eq_append_iff.1 (ha.symm.trans hb) with ⟨l, hl, htail⟩ | ⟨l, hl, htail⟩
  · rcases l with _ | ⟨z, l⟩
    · exact .inl (hl.trans (List.append_nil _)).symm
    · obtain ⟨rfl, -⟩ := List.cons.inj htail
      exact .inr (.inl ⟨henda, x, l, hx, hl⟩)
  · rcases l with _ | ⟨z, l⟩
    · exact .inl (hl.trans (List.append_nil _))
    · obtain ⟨rfl, -⟩ := List.cons.inj htail
      exact .inr (.inr ⟨hendb, y, l, hy, hl⟩)

lemma GoesOn.congr_left {a a' : List UInt8} (h : a.map toLower = a'.map toLower) (hab : GoesOn a b) : GoesOn a' b := by
  rw [← continues_tokens, ← tokens_eq_iff.2 h, continues_tokens]
  exact hab

lemma GoesOn.congr_right {b b' : List UInt8} (h : b.map toLower = b'.map toLower) (hab : GoesOn a b) : GoesOn a b' := by
  rw [← continues_tokens, ← tokens_eq_iff.2 h, continues_tokens]
  exact hab

lemma Alike.congr_left {a a' : List UInt8} (h : a.map toLower = a'.map toLower) (hab : Alike a' b) : Alike a b :=
  hab.imp h.trans (Or.imp (GoesOn.congr_left h.symm) (GoesOn.congr_right h.symm))

lemma Alike.symm (h : Alike a b) : Alike b a := h.imp Eq.symm Or.symm

/-- Being alike is transitive, but for two names that go on with a name in different ways. -/
lemma Alike.trans (hab : Alike a b) (hbc : Alike b c) (hnot : ¬(GoesOn b a ∧ GoesOn b c ∧ ¬Alike a c)) :
    Alike a c := by
  rcases hab with hab | hab | hba
  · exact hbc.congr_left hab
  · rcases hbc with hbc | hbc | hcb
    · exact .inr (.inl (hab.congr_right hbc))
    · exact .inr (.inl (hab.trans hbc))
    · exact alike_of_goesOn hab hcb
  · rcases hbc with hbc | hbc | hcb
    · exact .inr (.inr (hba.congr_left hbc))
    · by_contra hac
      exact hnot ⟨hba, hbc, hac⟩
    · exact .inr (.inr (hcb.trans hba))

end DDNet
