/-
UTF-8 in a buffer: decoding, measuring and moving over code points, where what lies behind the buffer cannot be read.

A buffer holds a text if the encoding of the text and a zero are in front.  Of such a buffer `str_utf8_stats` measures
the longest part of the text that is allowed (`strUtf8StatsAt_encode`).
-/
import DDNet.Base.Encode

namespace DDNet

open Utf8

/-! ### Decoding -/

/-- The loop of `str_utf8_decode` in a buffer; `none` if it reads behind the end. -/
def decodeTailAt (lower upper codePoint : ℕ) : ℕ → List UInt8 → Option (ℤ × List UInt8)
  | 0, s => some (codePoint, s)
  | _ + 1, [] => none
  | needed + 1, b :: s =>
    if lower ≤ b.toNat ∧ b.toNat ≤ upper then
      decodeTailAt 0x80 0xBF (codePoint + ((b.toNat - 0x80) <<< (6 * needed))) needed s
    else
      some (-1, b :: s)

/-- `str_utf8_decode` in a buffer; `none` if it reads behind the end. -/
def strUtf8DecodeAt : List UInt8 → Option (ℤ × List UInt8)
  | [] => none
  | b :: s =>
    let v := b.toNat
    if v ≤ 0x7F then some (v, s)
    else if 0xC2 ≤ v ∧ v ≤ 0xDF then decodeTailAt 0x80 0xBF ((v - 0xC0) <<< 6) 1 s
    else if 0xE0 ≤ v ∧ v ≤ 0xEF then
      decodeTailAt (if v = 0xE0 then 0xA0 else 0x80) (if v = 0xED then 0x9F else 0xBF) ((v - 0xE0) <<< 12) 2 s
    else if 0xF0 ≤ v ∧ v ≤ 0xF4 then
      decodeTailAt (if v = 0xF0 then 0x90 else 0x80) (if v = 0xF4 then 0x8F else 0xBF) ((v - 0xF0) <<< 18) 3 s
    else some (-1, s)

lemma decodeTailAt_eq {lower upper codePoint needed : ℕ} {s t : List UInt8} {c : ℤ}
    (h : decodeTail lower upper codePoint needed s = (c, t)) (hc : c ≠ -1) :
    decodeTailAt lower upper codePoint needed s = some (c, t) := by
  induction needed generalizing lower upper codePoint s with
  | zero => exact congrArg some h
  | succ needed ih =>
    cases s with
    | nil => exact absurd (Prod.mk.inj h).1.symm hc
    | cons b s =>
      rw [decodeTail] at h
      rw [decodeTailAt]
      split_ifs at h ⊢ with hb
      · exact ih h
      · exact absurd (Prod.mk.inj h).1.symm hc

/-- A code point that is in the buffer as a whole is decoded. -/
lemma strUtf8DecodeAt_eq {b : UInt8} {s t : List UInt8} {c : ℤ} (h : strUtf8Decode (b :: s) = (c, t)) (hc : c ≠ -1) :
    strUtf8DecodeAt (b :: s) = some (c, t) := by
  rw [strUtf8Decode] at h
  rw [strUtf8DecodeAt]
  by_cases hone : b.toNat ≤ 0x7F
  · rw [if_pos hone] at h ⊢
    exact congrArg some h
  rw [if_neg hone] at h ⊢
  by_cases htwo : 0xC2 ≤ b.toNat ∧ b.toNat ≤ 0xDF
  · rw [if_pos htwo] at h ⊢
    exact decodeTailAt_eq h hc
  rw [if_neg htwo] at h ⊢
  by_cases hthree : 0xE0 ≤ b.toNat ∧ b.toNat ≤ 0xEF
  · rw [if_pos hthree] at h ⊢
    exact decodeTailAt_eq h hc
  rw [if_neg hthree] at h ⊢
  by_cases hfour : 0xF0 ≤ b.toNat ∧ b.toNat ≤ 0xF4
  · rw [if_pos hfour] at h ⊢
    exact decodeTailAt_eq h hc
  rw [if_neg hfour] at h ⊢
  exact congrArg some h

@[simp] lemma strUtf8DecodeAt_encodeChar (c : Char) (s : List UInt8) :
    strUtf8DecodeAt (String.utf8EncodeChar c ++ s) = some ((c.toNat : ℤ), s) := by
  obtain ⟨b, t, heq⟩ := List.exists_cons_of_ne_nil (utf8EncodeChar_ne_nil c)
  have hdecode := strUtf8Decode_encodeChar c s
  rw [heq, List.cons_append] at hdecode ⊢
  exact strUtf8DecodeAt_eq hdecode (by omega)

@[simp] lemma strUtf8DecodeAt_zero (s : List UInt8) : strUtf8DecodeAt (0 :: s) = some (0, s) := rfl

/-! ### Measuring -/

/-- The loop of `str_utf8_stats`: the remaining characters, the cursor, and what is measured. -/
def strUtf8StatsLoop (length maxSize : ℕ) : ℕ → List UInt8 → ℕ → ℕ → Option (ℕ × ℕ)
  | 0, _, size, count => some (size, count)
  | more + 1, cursor, size, count =>
    if size < maxSize then
      (strUtf8DecodeAt cursor).bind fun (code, cursor) =>
        if code = 0 then some (size, count)
        else if length - cursor.length ≥ maxSize then some (size, count)
        else strUtf8StatsLoop length maxSize more cursor (length - cursor.length) (count + 1)
    else some (size, count)

/-- `str_utf8_stats`: the size and the number of the code points of a string that are less than `maxSize` bytes and no
more than `maxCount`; `none` if it reads behind the buffer. -/
def strUtf8StatsAt (str : List UInt8) (maxSize maxCount : ℕ) : Option (ℕ × ℕ) :=
  strUtf8StatsLoop str.length maxSize maxCount str 0 0

lemma strUtf8StatsLoop_encode {done rest : List UInt8} {cs : List Char} (hcs : ∀ c ∈ cs, c.toNat ≠ 0)
    (maxSize more count : ℕ) :
    strUtf8StatsLoop (done ++ (encode cs ++ 0 :: rest)).length maxSize more (encode cs ++ 0 :: rest) done.length count =
      some (done.length + (encode (fitting cs (maxSize - 1 - done.length) more)).length,
        count + (fitting cs (maxSize - 1 - done.length) more).length) := by
  induction cs generalizing done more count with
  | nil =>
    rw [fitting_nil]
    cases more with
    | zero => rfl
    | succ more =>
      rw [strUtf8StatsLoop, encode_nil, List.nil_append, strUtf8DecodeAt_zero]
      split_ifs <;> rfl
  | cons c cs ih =>
    obtain ⟨hc, hrest⟩ := List.forall_mem_cons.1 hcs
    have hpos : 0 < (String.utf8EncodeChar c).length := List.length_pos_of_ne_nil (utf8EncodeChar_ne_nil c)
    cases more with
    | zero => rw [fitting_zero]; rfl
    | succ more =>
      have hcode : ¬((c.toNat : ℤ) = 0) := by omega
      have hbuffer : done ++ (encode (c :: cs) ++ 0 :: rest) =
          done ++ String.utf8EncodeChar c ++ (encode cs ++ 0 :: rest) := by
        simp only [encode_cons, List.append_assoc]
      have hat : (done ++ String.utf8EncodeChar c ++ (encode cs ++ 0 :: rest)).length - (encode cs ++ 0 :: rest).length =
          (done ++ String.utf8EncodeChar c).length := by
        rw [List.length_append]
        exact Nat.add_sub_cancel _ _
      have hlength : (done ++ String.utf8EncodeChar c).length = done.length + (String.utf8EncodeChar c).length :=
        List.length_append
      rw [hbuffer, strUtf8StatsLoop, encode_cons, List.append_assoc, strUtf8DecodeAt_encodeChar, Option.bind_some]
      dsimp only
      rw [if_neg hcode, hat, fitting]
      by_cases hfits : (String.utf8EncodeChar c).length ≤ maxSize - 1 - done.length
      · have ih := @ih (done ++ String.utf8EncodeChar c) hrest more (count + 1)
        rw [hlength, ← Nat.sub_sub] at ih
        rw [if_pos (by omega), if_neg (by omega), if_pos hfits, hlength, ih, encode_cons, List.length_append,
          List.length_cons]
        exact congrArg some (Prod.ext (by dsimp only; omega) (by dsimp only; omega))
      · rw [if_neg hfits, if_pos (by omega : (done ++ String.utf8EncodeChar c).length ≥ maxSize), ite_self]
        rfl

/-- What is measured of a text in a buffer. -/
lemma strUtf8StatsAt_encode {cs : List Char} (hcs : ∀ c ∈ cs, c.toNat ≠ 0) (rest : List UInt8) (maxSize maxCount : ℕ) :
    strUtf8StatsAt (encode cs ++ 0 :: rest) maxSize maxCount =
      some ((encode (fitting cs (maxSize - 1) maxCount)).length, (fitting cs (maxSize - 1) maxCount).length) := by
  have h := @strUtf8StatsLoop_encode [] rest cs hcs maxSize maxCount 0
  rw [List.nil_append, List.length_nil, Nat.sub_zero, Nat.zero_add, Nat.zero_add] at h
  exact h

/-! ### Moving -/

/-- `str_utf8_forward` in a buffer; `none` if it reads behind the end. -/
def strUtf8ForwardAt (str : List UInt8) (cursor : ℕ) : Option ℕ :=
  (strUtf8DecodeAt (str.drop cursor)).map fun (code, rest) => if code = 0 then cursor else str.length - rest.length

/-- `str_utf8_rewind` in a buffer; `none` if it reads behind the end. -/
def strUtf8RewindAt (str : List UInt8) (cursor : ℕ) : Option ℕ :=
  if cursor ≤ str.length then some (strUtf8Rewind str cursor) else none

lemma strUtf8ForwardAt_encode (pre : List Char) {c : Char} (hc : c.toNat ≠ 0) (rest : List UInt8) :
    strUtf8ForwardAt (encode (pre ++ [c]) ++ rest) (encode pre).length = some (encode (pre ++ [c])).length := by
  have hcode : ¬((c.toNat : ℤ) = 0) := by omega
  have hdrop : (encode (pre ++ [c]) ++ rest).drop (encode pre).length = String.utf8EncodeChar c ++ rest := by
    rw [encode_append, encode_singleton, List.append_assoc, List.drop_left]
  rw [strUtf8ForwardAt, hdrop, strUtf8DecodeAt_encodeChar, Option.map_some]
  dsimp only
  rw [if_neg hcode, List.length_append, Nat.add_sub_cancel]

lemma strUtf8Rewind_append_right (str rest : List UInt8) {cursor : ℕ} (hcursor : cursor ≤ str.length) :
    strUtf8Rewind (str ++ rest) cursor = strUtf8Rewind str cursor := by
  induction cursor with
  | zero => rfl
  | succ cursor ih =>
    rw [strUtf8Rewind, strUtf8Rewind, List.getD_append _ _ _ _ hcursor, ih (Nat.le_of_succ_le hcursor)]

lemma strUtf8RewindAt_encode (pre : List Char) (c : Char) (rest : List UInt8) :
    strUtf8RewindAt (encode (pre ++ [c]) ++ rest) (encode (pre ++ [c])).length = some (encode pre).length := by
  obtain ⟨b, t, hseq, hb, ht⟩ := strUtf8Encode_starts (c := c.toNat) (by
    have := isScalar_toNat c
    rw [IsScalar] at this
    omega)
  rw [strUtf8Encode_toNat] at hseq
  have hencode : encode (pre ++ [c]) = encode pre ++ b :: t := by
    rw [encode_append, encode_singleton, hseq]
  have hlength : (encode (pre ++ [c])).length = (encode pre).length + 1 + t.length := by
    rw [hencode, List.length_append, List.length_cons]
    omega
  rw [strUtf8RewindAt, if_pos (by rw [List.length_append]; omega), strUtf8Rewind_append_right _ _ le_rfl, hlength,
    hencode, strUtf8Rewind_append hb ht le_rfl]

end DDNet
