/-
C strings of `base/system.cpp`: copying into a buffer, and comparison.
-/
import DDNet.Base.Utf8
import Mathlib.Data.List.Basic

namespace DDNet

open Utf8

/-- `str_utf8_isstart`. -/
def strUtf8IsStart (c : UInt8) : Bool := (c &&& 0xC0) != 0x80

/-- `str_utf8_rewind`. -/
def strUtf8Rewind (str : List UInt8) : ℕ → ℕ
  | 0 => 0
  | cursor + 1 => if strUtf8IsStart (str.getD cursor 0) then cursor else strUtf8Rewind str cursor

/-- `str_utf8_fix_truncation`: the string without the code point at its end, if only a part of it
is there. -/
def strUtf8FixTruncation (str : List UInt8) : List UInt8 :=
  if str = [] then
    str
  else
    let lastCharIndex := strUtf8Rewind str str.length
    if (strUtf8Decode (str.drop lastCharIndex)).1 = -1 then str.take lastCharIndex else str

/-- `str_copy` into a buffer of `dstSize` bytes. -/
def strCopy (dstSize : ℕ) (src : List UInt8) : List UInt8 :=
  strUtf8FixTruncation (src.take (dstSize - 1))

lemma strUtf8FixTruncation_isPrefix (str : List UInt8) : strUtf8FixTruncation str <+: str := by
  rw [strUtf8FixTruncation]
  split_ifs
  · exact List.prefix_refl _
  · dsimp only
    split_ifs
    · exact List.take_prefix _ _
    · exact List.prefix_refl _

lemma strCopy_isPrefix (dstSize : ℕ) (src : List UInt8) : strCopy dstSize src <+: src :=
  (strUtf8FixTruncation_isPrefix _).trans (List.take_prefix _ _)

lemma strUtf8IsStart_of_lt {c : UInt8} (hc : c < 128) : strUtf8IsStart c = true := by
  rw [strUtf8IsStart, bne_iff_ne]
  intro h
  have hle : (c &&& 0xC0).toNat ≤ c.toNat := Nat.and_le_left
  rw [h] at hle
  exact absurd (UInt8.lt_iff_toNat_lt.1 hc) (Nat.not_lt.2 hle)

lemma le_strUtf8Rewind {str : List UInt8} {k n : ℕ} (hstart : strUtf8IsStart (str.getD k 0) = true)
    (hk : k < n) : k ≤ strUtf8Rewind str n := by
  induction n with
  | zero => exact absurd hk (Nat.not_lt_zero _)
  | succ n ih =>
    rw [strUtf8Rewind]
    split_ifs with hn
    · exact Nat.le_of_lt_succ hk
    · rcases Nat.lt_or_eq_of_le (Nat.le_of_lt_succ hk) with hlt | rfl
      · exact ih hlt
      · exact absurd hstart hn

/-- The copy of a text that fits has everything up to an ASCII character in it. -/
lemma strCopy_ascii {before after : List UInt8} {c : UInt8} {size : ℕ} (hc : c < 128)
    (hlen : (before ++ c :: after).length < size) :
    ∃ after', after' <+: after ∧ strCopy size (before ++ c :: after) = before ++ c :: after' := by
  have htake : (before ++ c :: after).take (size - 1) = before ++ c :: after :=
    List.take_of_length_le (by omega)
  have hget : (before ++ c :: after).getD before.length 0 = c := by
    rw [List.getD_append_right _ _ _ _ le_rfl, Nat.sub_self, List.getD_cons_zero]
  have hstart : strUtf8IsStart ((before ++ c :: after).getD before.length 0) = true := by
    rw [hget]
    exact strUtf8IsStart_of_lt hc
  have hrewind : before.length ≤ strUtf8Rewind (before ++ c :: after) (before ++ c :: after).length :=
    le_strUtf8Rewind hstart (by simp)
  rw [strCopy, htake, strUtf8FixTruncation, if_neg (by simp)]
  dsimp only
  rcases Nat.eq_or_lt_of_le hrewind with heq | hlt
  · have hdecode : (strUtf8Decode (c :: after)).1 = (c.toNat : ℤ) := by
      have hc' : c.toNat ≤ 0x7F := Nat.le_of_lt_succ (UInt8.lt_iff_toNat_lt.1 hc)
      rw [strUtf8Decode, if_pos hc']
    rw [← heq, List.drop_left, if_neg (by omega)]
    exact ⟨after, List.prefix_refl _, rfl⟩
  · split_ifs
    · obtain ⟨n, hn⟩ := Nat.exists_eq_add_of_lt hlt
      refine ⟨after.take n, List.take_prefix _ _, ?_⟩
      rw [hn, Nat.add_assoc, List.take_length_add_append, List.take_succ_cons]
    · exact ⟨after, List.prefix_refl _, rfl⟩

/-- The bytes of a literal of ASCII characters. -/
def ofChars (chars : List Char) : List UInt8 := chars.map fun c => UInt8.ofNat c.toNat

/-! ### Comparison -/

/-- `str_comp`: the order of the first bytes that differ, with the terminator as the least byte. -/
def strComp : List UInt8 → List UInt8 → Ordering
  | [], [] => .eq
  | [], _ :: _ => .lt
  | _ :: _, [] => .gt
  | a :: as, b :: bs => if a < b then .lt else if b < a then .gt else strComp as bs

/-- The lower case letter of an ASCII letter. -/
def toLower (c : UInt8) : UInt8 := if 65 ≤ c && c ≤ 90 then c + 32 else c

/-- `str_comp_nocase`. -/
def strCompNocase (a b : List UInt8) : Ordering := strComp (a.map toLower) (b.map toLower)

lemma strComp_self (a : List UInt8) : strComp a a = .eq := by
  induction a with
  | nil => rfl
  | cons c a ih => rw [strComp, if_neg (UInt8.lt_irrefl c), if_neg (UInt8.lt_irrefl c), ih]

lemma strComp_eq_iff {a b : List UInt8} : strComp a b = .eq ↔ a = b := by
  constructor
  · intro h
    induction a generalizing b with
    | nil =>
      cases b with
      | nil => rfl
      | cons d b => exact Ordering.noConfusion h
    | cons c a ih =>
      cases b with
      | nil => exact Ordering.noConfusion h
      | cons d b =>
        rw [strComp] at h
        split_ifs at h with hlt hgt
        obtain rfl : c = d := UInt8.le_antisymm (UInt8.not_lt.1 hgt) (UInt8.not_lt.1 hlt)
        rw [ih h]
  · rintro rfl
    exact strComp_self a

lemma strComp_swap (a b : List UInt8) : strComp b a = (strComp a b).swap := by
  induction a generalizing b with
  | nil => cases b <;> rfl
  | cons c a ih =>
    cases b with
    | nil => rfl
    | cons d b =>
      rw [strComp, strComp]
      split_ifs with hba hab hab
      · exact absurd hab (UInt8.lt_asymm hba)
      · rfl
      · rfl
      · exact ih b

end DDNet
