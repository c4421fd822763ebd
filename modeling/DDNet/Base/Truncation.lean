/-
C strings of `base/system.cpp`: appending to a buffer, and what `str_utf8_fix_truncation` keeps of a valid text.
-/
import DDNet.Base.Str

namespace DDNet

open Utf8 Lib

/-- `str_append` to a buffer of `dstSize` bytes. -/
def strAppend (dst src : List UInt8) (dstSize : ℕ) : List UInt8 :=
  strUtf8FixTruncation ((dst ++ src).take (dstSize - 1))

/-! ### The start of a sequence -/

lemma strUtf8IsStart_eq (c : UInt8) : strUtf8IsStart c = !decide (0x80 ≤ c.toNat ∧ c.toNat ≤ 0xBF) := by
  have hand : c.toNat &&& 0xC0 = c.toNat / 64 * 64 := and_high_mask (k := 6) (m := 8) c.toNat_lt (by norm_num)
  have hmask : (c &&& 0xC0).toNat = c.toNat / 64 * 64 := by
    rw [UInt8.toNat_and]
    exact hand
  have hiff : c &&& 0xC0 = 0x80 ↔ 0x80 ≤ c.toNat ∧ c.toNat ≤ 0xBF := by
    rw [← UInt8.toNat_inj, hmask, show (0x80 : UInt8).toNat = 128 from rfl]
    omega
  rw [strUtf8IsStart, bne]
  refine congrArg (!·) (Bool.eq_iff_iff.2 ?_)
  rw [beq_iff_eq, decide_eq_true_iff]
  exact hiff

/-- The sequence of a character has one start, which is its first byte. -/
lemma strUtf8Encode_starts {c : ℕ} (hc : c ≤ 0x10FFFF) :
    ∃ b t, strUtf8Encode c = b :: t ∧ strUtf8IsStart b = true ∧ ∀ x ∈ t, strUtf8IsStart x = false := by
  have hcont : ∀ x, strUtf8IsStart (UInt8.ofNat (0x80 ||| (x &&& 0x3F))) = false := by
    intro x
    rw [strUtf8IsStart_eq, continuation_byte, decide_eq_true (by omega)]
    rfl
  have hstart : ∀ b : UInt8, b.toNat < 0x80 ∨ 0xC0 ≤ b.toNat → strUtf8IsStart b = true := by
    intro b hb
    rw [strUtf8IsStart_eq, decide_eq_false (by omega)]
    rfl
  rw [strUtf8Encode]
  split_ifs with h1 h2 h3
  · refine ⟨_, [], rfl, hstart _ (.inl ?_), by simp⟩
    rw [toNat_ofNat_of_lt (by omega)]
    omega
  · refine ⟨_, _, rfl, hstart _ (.inr (by rw [two_byte_lead]; omega)), ?_⟩
    simp only [List.mem_singleton, forall_eq, hcont]
  · refine ⟨_, _, rfl, hstart _ (.inr (by rw [three_byte_lead]; omega)), ?_⟩
    simp only [List.forall_mem_cons, List.not_mem_nil, false_implies, implies_true, hcont, and_self]
  · refine ⟨_, _, rfl, hstart _ (.inr (by rw [four_byte_lead]; omega)), ?_⟩
    simp only [List.forall_mem_cons, List.not_mem_nil, false_implies, implies_true, hcont, and_self]

/-! ### The last sequence of a text -/

/-- The way back from the end stops at the start of the last sequence. -/
lemma strUtf8Rewind_append {str t : List UInt8} {b : UInt8} (hb : strUtf8IsStart b = true)
    (ht : ∀ x ∈ t, strUtf8IsStart x = false) {k : ℕ} (hk : k ≤ t.length) :
    strUtf8Rewind (str ++ b :: t) (str.length + 1 + k) = str.length := by
  induction k with
  | zero =>
    rw [Nat.add_zero, strUtf8Rewind, List.getD_append_right _ _ _ _ le_rfl, Nat.sub_self, List.getD_cons_zero,
      if_pos hb]
  | succ k ih =>
    have hlt : k < t.length := hk
    have hget : (str ++ b :: t).getD (str.length + 1 + k) 0 = t[k] := by
      rw [List.getD_append_right _ _ _ _ (by omega), show str.length + 1 + k - str.length = k + 1 by omega,
        List.getD_cons_succ, List.getD_eq_getElem _ _ hlt]
    rw [← Nat.add_assoc, strUtf8Rewind, hget, ht _ (List.getElem_mem hlt)]
    exact ih hlt.le

/-- Of a text nothing is taken for a part of a code point. -/
lemma strUtf8FixTruncation_encode (cs : List Char) : strUtf8FixTruncation (encode cs) = encode cs := by
  rcases List.eq_nil_or_concat cs with rfl | ⟨cs, c, rfl⟩
  · rfl
  obtain ⟨b, t, hseq, hb, ht⟩ := strUtf8Encode_starts (c := c.toNat) (by
    have := isScalar_toNat c
    rw [IsScalar] at this
    omega)
  rw [strUtf8Encode_toNat] at hseq
  have hcs : encode (cs.concat c) = encode cs ++ b :: t := by
    rw [encode, List.concat_eq_append, List.flatMap_append, List.flatMap_singleton, hseq, encode]
  have hrewind : strUtf8Rewind (encode cs ++ b :: t) (encode cs ++ b :: t).length = (encode cs).length := by
    rw [List.length_append, List.length_cons, show (encode cs).length + (t.length + 1) =
      (encode cs).length + 1 + t.length by omega]
    exact strUtf8Rewind_append hb ht le_rfl
  have hdecode : (strUtf8Decode (b :: t)).1 = (c.toNat : ℤ) := by
    have hd := congrArg Prod.fst (strUtf8Decode_encodeChar c [])
    rwa [List.append_nil, hseq] at hd
  rw [hcs, strUtf8FixTruncation, if_neg (by simp)]
  dsimp only
  rw [hrewind, List.drop_left, hdecode, if_neg (by omega)]

/-- The start of a sequence that is not all of it stands for no code point. -/
lemma strUtf8Decode_of_encodeChar_append {c : Char} {start more : List UInt8}
    (h : String.utf8EncodeChar c = start ++ more) (hstart : start ≠ []) (hmore : more ≠ []) :
    (strUtf8Decode start).1 = -1 := by
  obtain ⟨b, s, rfl⟩ := List.exists_cons_of_ne_nil hstart
  by_contra hne
  obtain ⟨t, ht⟩ : ∃ t, t = (strUtf8Decode (b :: s)).2 := ⟨_, rfl⟩
  have hdecode : strUtf8Decode (b :: s) = ((strUtf8Decode (b :: s)).1, t) := by rw [ht]
  obtain ⟨n, -, hscalar, hseq⟩ := encode_of_strUtf8Decode hdecode hne
  have hrest : strUtf8Decode (String.utf8EncodeChar c) = ((n : ℤ), t ++ more) := by
    rw [h, ← hseq, List.append_assoc]
    exact strUtf8Decode_encode hscalar _
  have hall := strUtf8Decode_encodeChar c []
  rw [List.append_nil, hrest] at hall
  exact hmore (List.append_eq_nil_iff.1 (congrArg Prod.snd hall)).2

/-- The start of a sequence that is not all of it is taken away. -/
lemma strUtf8FixTruncation_append_start (cs : List Char) {c : Char} {start more : List UInt8}
    (hc : String.utf8EncodeChar c = start ++ more) (hstart : start ≠ []) (hmore : more ≠ []) :
    strUtf8FixTruncation (encode cs ++ start) = encode cs := by
  obtain ⟨b, t, hseq, hb, ht⟩ := strUtf8Encode_starts (c := c.toNat) (by
    have := isScalar_toNat c
    rw [IsScalar] at this
    omega)
  obtain ⟨b', s, rfl⟩ := List.exists_cons_of_ne_nil hstart
  rw [strUtf8Encode_toNat, hc, List.cons_append] at hseq
  obtain ⟨rfl, rfl⟩ := List.cons.inj hseq
  have hrewind : strUtf8Rewind (encode cs ++ b' :: s) (encode cs ++ b' :: s).length = (encode cs).length := by
    rw [List.length_append, List.length_cons, show (encode cs).length + (s.length + 1) =
      (encode cs).length + 1 + s.length by omega]
    exact strUtf8Rewind_append hb (fun x hx => ht x (List.mem_append_left _ hx)) le_rfl
  rw [strUtf8FixTruncation, if_neg (by simp)]
  dsimp only
  rw [hrewind, List.drop_left, if_pos (strUtf8Decode_of_encodeChar_append hc hstart hmore), List.take_left]

/-- The copy of a valid text that fits is the text. -/
lemma strCopy_of_valid {str : List UInt8} {size : ℕ} (hstr : ∀ b ∈ str, b ≠ 0) (hvalid : strUtf8Check str = true)
    (hlen : str.length < size) : strCopy size str = str := by
  rw [strCopy, List.take_of_length_le (by omega), ← encode_replaceInvalid hstr hvalid]
  exact strUtf8FixTruncation_encode _

/-- A text that ends in an ASCII character is not cut where it fits. -/
lemma strUtf8FixTruncation_ascii (before : List UInt8) {c : UInt8} (hc : c < 128) :
    strUtf8FixTruncation (before ++ [c]) = before ++ [c] := by
  obtain ⟨after, hafter, hcopy⟩ := @strCopy_ascii before [] c ((before ++ [c]).length + 1) hc (Nat.lt_succ_self _)
  obtain rfl := List.prefix_nil.1 hafter
  rwa [strCopy, Nat.add_sub_cancel, List.take_length] at hcopy

/-- What is appended to a text and ends in an ASCII character is there as a whole. -/
lemma strAppend_ascii {dst src : List UInt8} {c : UInt8} {size : ℕ} (hc : c < 128)
    (hlen : (dst ++ (src ++ [c])).length < size) : strAppend dst (src ++ [c]) size = dst ++ (src ++ [c]) := by
  rw [strAppend, List.take_of_length_le (by omega), ← List.append_assoc]
  exact strUtf8FixTruncation_ascii _ hc

end DDNet
