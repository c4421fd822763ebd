/-
Bounded buffers of `base/system.cpp`: `str_copy`, `str_append` and `str_utf8_truncate`, as they write to memory.

All of them cut at a byte first and take away the start of a code point at the end afterwards
(`str_utf8_fix_truncation`); of a valid text that leaves the part that fits (`strUtf8FixTruncationAt_take`).
-/
import DDNet.Base.Memory
import DDNet.Base.Utf8Memory

namespace DDNet

open Utf8

/-- The C string from a position of a buffer on; `none` if it does not end in the buffer. -/
def readCstr (buffer : List UInt8) (pos : ℕ) : Option (List UInt8) :=
  if 0 ∈ buffer.drop pos then some (cstrOf (buffer.drop pos)) else none

/-- `str_utf8_fix_truncation` in a buffer: the length of the string, and the buffer. -/
def strUtf8FixTruncationAt (str : List UInt8) : Option (ℕ × List UInt8) :=
  (readCstr str 0).bind fun cstr =>
    if 0 < cstr.length then
      (strUtf8RewindAt str cstr.length).bind fun lastCharIndex =>
        (strUtf8DecodeAt (str.drop lastCharIndex)).bind fun lastChar =>
          if lastChar.1 = -1 then (writeBytes str lastCharIndex [0]).map fun str => (lastCharIndex, str)
          else some (cstr.length, str)
    else some (cstr.length, str)

/-- `strncat` of the C library: no more than `size` bytes of a string, and a zero. -/
def strncatAt (dst src : List UInt8) (size : ℕ) : Option (List UInt8) :=
  (readCstr dst 0).bind fun cstr => writeBytes dst cstr.length (src.take size ++ [0])

/-- `str_copy` in a buffer: the length of the copy, and the buffer. -/
def strCopyAt (dst src : List UInt8) (dstSize : ℕ) : Option (ℕ × List UInt8) :=
  (writeBytes dst 0 [0]).bind fun dst => (strncatAt dst src (dstSize - 1)).bind strUtf8FixTruncationAt

/-- The loop of `str_append`: the rest of the source, and where its next byte is written. -/
def strAppendLoop (dstSize : ℕ) : List UInt8 → ℕ → List UInt8 → Option (List UInt8)
  | [], s, dst => if s < dstSize then writeBytes dst s [0] else some dst
  | c :: src, s, dst =>
    if s < dstSize then (writeBytes dst s [c]).bind (strAppendLoop dstSize src (s + 1)) else some dst

/-- `str_append` in a buffer. -/
def strAppendAt (dst src : List UInt8) (dstSize : ℕ) : Option (List UInt8) :=
  (readCstr dst 0).bind fun cstr =>
    (strAppendLoop dstSize src cstr.length dst).bind fun dst =>
      (writeBytes dst (dstSize - 1) [0]).bind fun dst => (strUtf8FixTruncationAt dst).map Prod.snd

/-- The loop of `str_utf8_truncate`, how often it is run at most, the rest of the source and the size so far. -/
def strUtf8TruncateLoop (length dstSize : ℕ) : ℕ → List UInt8 → ℤ → ℤ
  | 0, _, size => size
  | more + 1, cursor, size =>
    let offset := length - cursor.length
    if offset < dstSize ∧ size ≠ offset then
      let decoded := strUtf8Decode cursor
      if decoded.1 = 0 then offset else strUtf8TruncateLoop length dstSize more decoded.2 offset
    else size

/-- `str_utf8_truncate` in a buffer. -/
def strUtf8TruncateAt (dst : List UInt8) (dstSize : ℕ) (src : List UInt8) (truncationLen : ℕ) :
    Option (List UInt8) :=
  let size := strUtf8TruncateLoop src.length dstSize (truncationLen + 1) src (-1)
  (strCopyAt dst src (size + 1).toNat).map Prod.snd

/-! ### Decoding up to the terminator -/

lemma decodeTailAt_append_zero {lower upper : ℕ} (hlower : 0 < lower) (codePoint needed : ℕ) (s rest : List UInt8) :
    decodeTailAt lower upper codePoint needed (s ++ 0 :: rest) =
      some ((decodeTail lower upper codePoint needed s).1,
        (decodeTail lower upper codePoint needed s).2 ++ 0 :: rest) := by
  induction needed generalizing lower upper codePoint s with
  | zero => rfl
  | succ needed ih =>
    cases s with
    | nil =>
      rw [List.nil_append, decodeTailAt, decodeTail, if_neg]
      · rfl
      · rw [show (0 : UInt8).toNat = 0 from rfl]
        omega
    | cons b s =>
      rw [List.cons_append, decodeTailAt, decodeTail]
      split_ifs
      · exact ih (by norm_num) _ _
      · rfl

/-- In a buffer, a string is decoded as far as the terminator, which no error consumes. -/
lemma strUtf8DecodeAt_append_zero {s : List UInt8} (hs : s ≠ []) (rest : List UInt8) :
    strUtf8DecodeAt (s ++ 0 :: rest) = some ((strUtf8Decode s).1, (strUtf8Decode s).2 ++ 0 :: rest) := by
  obtain ⟨b, s, rfl⟩ := List.exists_cons_of_ne_nil hs
  rw [List.cons_append, strUtf8DecodeAt, strUtf8Decode]
  by_cases hone : b.toNat ≤ 0x7F
  · rw [if_pos hone, if_pos hone]
  rw [if_neg hone, if_neg hone]
  by_cases htwo : 0xC2 ≤ b.toNat ∧ b.toNat ≤ 0xDF
  · rw [if_pos htwo, if_pos htwo]
    exact decodeTailAt_append_zero (by norm_num) _ _ _ _
  rw [if_neg htwo, if_neg htwo]
  by_cases hthree : 0xE0 ≤ b.toNat ∧ b.toNat ≤ 0xEF
  · rw [if_pos hthree, if_pos hthree]
    exact decodeTailAt_append_zero (by split_ifs <;> norm_num) _ _ _ _
  rw [if_neg hthree, if_neg hthree]
  by_cases hfour : 0xF0 ≤ b.toNat ∧ b.toNat ≤ 0xF4
  · rw [if_pos hfour, if_pos hfour]
    exact decodeTailAt_append_zero (by split_ifs <;> norm_num) _ _ _ _
  · rw [if_neg hfour, if_neg hfour]

/-! ### Taking away what is cut -/

lemma readCstr_append {s : List UInt8} (hs : 0 ∉ s) (rest : List UInt8) : readCstr (s ++ 0 :: rest) 0 = some s := by
  rw [readCstr, List.drop_zero, if_pos (by simp), cstrOf_append hs]

lemma zero_notMem_take_encode {text : List Char} (htext : ∀ c ∈ text, c.toNat ≠ 0) (k : ℕ) :
    0 ∉ (encode text).take k :=
  fun h => zero_notMem_encode htext (List.mem_of_mem_take h)

/-- Of a valid text that is cut at a byte, the part that fits is left. -/
lemma strUtf8FixTruncationAt_take {text : List Char} (htext : ∀ c ∈ text, c.toNat ≠ 0) (k : ℕ) (rest : List UInt8) :
    ∃ garbage, strUtf8FixTruncationAt ((encode text).take k ++ 0 :: rest) =
        some ((encode (fitting text k text.length)).length,
          encode (fitting text k text.length) ++ 0 :: (garbage ++ rest)) ∧
      (encode (fitting text k text.length)).length + garbage.length = ((encode text).take k).length := by
  have hread := readCstr_append (zero_notMem_take_encode htext k) rest
  obtain ⟨start, htake, rfl | ⟨c, more, hc, hstart, hmore⟩⟩ := take_encode text k
  · rw [List.append_nil] at htake
    rw [htake] at hread ⊢
    refine ⟨[], ?_, rfl⟩
    rw [List.nil_append, strUtf8FixTruncationAt, hread, Option.bind_some]
    rcases List.eq_nil_or_concat (fitting text k text.length) with hnil | ⟨pre, c, hlast⟩
    · rw [hnil]
      rfl
    · rw [List.concat_eq_append] at hlast
      have hdrop : (encode (pre ++ [c]) ++ 0 :: rest).drop (encode pre).length =
          String.utf8EncodeChar c ++ 0 :: rest := by
        rw [encode_append, encode_singleton, List.append_assoc, List.drop_left]
      have hcode : ¬((c.toNat : ℤ) = -1) := by omega
      have hpos : 0 < (encode (pre ++ [c])).length := by
        rw [encode_append, encode_singleton, List.length_append]
        exact Nat.add_pos_right _ (List.length_pos_of_ne_nil (utf8EncodeChar_ne_nil c))
      rw [hlast, if_pos hpos, strUtf8RewindAt_encode, Option.bind_some, hdrop, strUtf8DecodeAt_encodeChar,
        Option.bind_some, if_neg hcode]
  · -- the start of a code point is found by going back from the end
    obtain ⟨b, t, hseq, hb, ht⟩ := strUtf8Encode_starts (c := c.toNat) (by
      have := isScalar_toNat c
      rw [IsScalar] at this
      omega)
    have herror := strUtf8Decode_of_encodeChar_append hc hstart hmore
    have hdecode := strUtf8DecodeAt_append_zero hstart rest
    rw [herror] at hdecode
    obtain ⟨b', s, rfl⟩ := List.exists_cons_of_ne_nil hstart
    rw [strUtf8Encode_toNat, hc, List.cons_append] at hseq
    obtain ⟨rfl, rfl⟩ := List.cons.inj hseq
    have hrewind := @strUtf8Rewind_append (encode (fitting text k text.length)) s b' hb
      (fun x hx => ht x (List.mem_append_left _ hx)) s.length le_rfl
    have hlength : (encode (fitting text k text.length) ++ b' :: s).length =
        (encode (fitting text k text.length)).length + 1 + s.length := by
      rw [List.length_append, List.length_cons]
      omega
    have hat : strUtf8RewindAt (encode (fitting text k text.length) ++ b' :: s ++ 0 :: rest)
        (encode (fitting text k text.length) ++ b' :: s).length = some (encode (fitting text k text.length)).length := by
      rw [strUtf8RewindAt, if_pos (List.prefix_append _ _).length_le, strUtf8Rewind_append_right _ _ le_rfl, hlength,
        hrewind]
    rw [htake] at hread ⊢
    refine ⟨s ++ [0], ?_, ?_⟩
    · rw [strUtf8FixTruncationAt, hread, Option.bind_some, if_pos (by omega), hat, Option.bind_some, List.append_assoc,
        List.drop_left, hdecode, Option.bind_some, if_pos rfl, List.cons_append, writeBytes_zero, Option.map_some,
        List.append_assoc, List.singleton_append]
    · rw [hlength, List.length_append, List.length_singleton]
      omega

/-! ### Copying -/

lemma strCopyAt_spec {text : List Char} (htext : ∀ c ∈ text, c.toNat ≠ 0) {dst : List UInt8} (hdst : dst ≠ [])
    (behind : List UInt8) :
    ∃ garbage, strCopyAt (dst ++ behind) (encode text) dst.length =
        some ((encode (fitting text (dst.length - 1) text.length)).length,
          encode (fitting text (dst.length - 1) text.length) ++ 0 :: (garbage ++ behind)) ∧
      (encode (fitting text (dst.length - 1) text.length)).length + 1 + garbage.length = dst.length := by
  obtain ⟨first, dst, rfl⟩ := List.exists_cons_of_ne_nil hdst
  have hsize : (first :: dst).length - 1 = dst.length := rfl
  have hzero := writeBytes_zero [] first (dst ++ behind)
  have hread := readCstr_append (List.not_mem_nil (a := (0 : UInt8))) (dst ++ behind)
  simp only [List.nil_append, List.length_nil] at hzero hread
  have hlength : ((encode text).take dst.length ++ [0]).length ≤ (0 :: (dst ++ behind)).length := by
    simp only [List.length_append, List.length_take, List.length_cons, List.length_nil]
    omega
  have hwrite := @writeBytes_append [] (0 :: (dst ++ behind)) _ hlength
  have hdrop : (0 :: (dst ++ behind)).drop ((encode text).take dst.length ++ [0]).length =
      dst.drop ((encode text).take dst.length).length ++ behind := by
    rw [List.length_append, List.length_singleton, List.drop_succ_cons, List.drop_append_of_le_length]
    exact List.length_take_le _ _
  simp only [List.nil_append, List.length_nil, hdrop, List.append_assoc, List.cons_append] at hwrite
  obtain ⟨garbage, hfix, hgarbage⟩ := strUtf8FixTruncationAt_take htext dst.length
    (dst.drop ((encode text).take dst.length).length ++ behind)
  rw [hsize]
  refine ⟨garbage ++ dst.drop ((encode text).take dst.length).length, ?_, ?_⟩
  · rw [strCopyAt, hsize, List.cons_append, hzero, Option.bind_some, strncatAt, hread, Option.bind_some, List.length_nil,
      hwrite, Option.bind_some, hfix, List.append_assoc]
  · have hle : ((encode text).take dst.length).length ≤ dst.length := List.length_take_le _ _
    rw [List.length_append, List.length_drop, List.length_cons]
    omega

/-! ### Appending -/

lemma strAppendLoop_eq (src written tail behind : List UInt8) :
    strAppendLoop (written.length + tail.length) src written.length (written ++ (tail ++ behind)) =
      some (written ++ ((src ++ [0]).take tail.length ++ (tail.drop (src.length + 1) ++ behind))) := by
  induction src generalizing written tail with
  | nil =>
    rw [strAppendLoop]
    cases tail with
    | nil =>
      rw [if_neg (by simp)]
      rfl
    | cons last tail =>
      rw [if_pos (by simp), List.cons_append, writeBytes_zero, List.length_cons, List.nil_append, List.take_succ_cons,
        List.take_nil, List.length_nil, Nat.zero_add, List.drop_one, List.tail_cons, List.singleton_append]
  | cons c src ih =>
    rw [strAppendLoop]
    cases tail with
    | nil =>
      rw [if_neg (by simp)]
      rfl
    | cons last tail =>
      have hwrite := @writeBytes_replace written (tail ++ behind) [c] [last] rfl
      have hrest := ih (written ++ [c]) tail
      rw [List.length_append, List.length_singleton, List.append_assoc, List.append_assoc] at hrest
      rw [if_pos (by simp), List.cons_append, ← List.singleton_append, hwrite, Option.bind_some, List.length_cons,
        Nat.add_comm tail.length, ← Nat.add_assoc, hrest, Nat.add_comm 1, List.cons_append, List.nil_append,
        List.cons_append, List.take_succ_cons, List.length_cons, List.drop_succ_cons, List.cons_append]

/-- What the loop leaves is cut at the last byte of the buffer. -/
lemma exists_dropLast_eq (src garbage : List UInt8) :
    ∃ init last rest, (src ++ [0]).take (garbage.length + 1) ++ garbage.drop src.length = init ++ [last] ∧
      init ++ [0] = src.take garbage.length ++ 0 :: rest ∧ init.length = garbage.length := by
  rcases Nat.lt_or_ge src.length garbage.length with hlt | hge
  · obtain ⟨g, last, hg⟩ : ∃ g last, garbage.drop src.length = g ++ [last] :=
      ⟨_, _, (List.dropLast_append_getLast (List.drop_eq_nil_iff.not.2 (Nat.not_le.2 hlt))).symm⟩
    have hlength := congrArg List.length hg
    rw [List.length_drop, List.length_append, List.length_singleton] at hlength
    refine ⟨src ++ 0 :: g, last, g ++ [0], ?_, ?_, ?_⟩
    · rw [hg, List.take_of_length_le (by rw [List.length_append, List.length_singleton]; omega)]
      simp only [List.append_assoc, List.cons_append, List.nil_append]
    · rw [List.take_of_length_le hlt.le, List.append_assoc, List.cons_append]
    · rw [List.length_append, List.length_cons]
      omega
  · have hlt : garbage.length < (src ++ [0]).length := by
      rw [List.length_append, List.length_singleton]
      omega
    refine ⟨src.take garbage.length, (src ++ [0])[garbage.length], [], ?_, rfl, ?_⟩
    · rw [List.drop_of_length_le hge, List.append_nil, ← List.take_concat_get' _ _ hlt,
        List.take_append_of_le_length hge]
    · rw [List.length_take, Nat.min_eq_left hge]

lemma strAppendAt_spec {old text : List Char} (hold : ∀ c ∈ old, c.toNat ≠ 0) (htext : ∀ c ∈ text, c.toNat ≠ 0)
    (tail behind : List UInt8) :
    ∃ garbage, strAppendAt (encode old ++ 0 :: (tail ++ behind)) (encode text)
        ((encode old).length + 1 + tail.length) =
          some (encode (fitting (old ++ text) ((encode old).length + tail.length) (old ++ text).length) ++
            0 :: (garbage ++ behind)) ∧
      (encode (fitting (old ++ text) ((encode old).length + tail.length) (old ++ text).length)).length + 1 +
        garbage.length = (encode old).length + 1 + tail.length := by
  have hnoNul : ∀ c ∈ old ++ text, c.toNat ≠ 0 := fun c hc => (List.mem_append.1 hc).elim (hold c) (htext c)
  have hread := readCstr_append (zero_notMem_encode hold) (tail ++ behind)
  have hloop := strAppendLoop_eq (encode text) (encode old) (0 :: tail) behind
  obtain ⟨init, last, rest, hsplit, hinit, hlength⟩ := exists_dropLast_eq (encode text) tail
  rw [List.length_cons, List.drop_succ_cons, ← List.append_assoc (List.take _ _), hsplit, List.append_assoc,
    List.singleton_append, List.cons_append] at hloop
  have hwrite := writeBytes_zero (encode old ++ init) last behind
  have hcut : encode old ++ init ++ 0 :: behind =
      (encode (old ++ text)).take ((encode old).length + tail.length) ++ 0 :: (rest ++ behind) := by
    have h := congrArg (· ++ behind) hinit
    simp only [List.append_assoc, List.nil_append, List.cons_append] at h
    rw [encode_append, List.take_length_add_append, List.append_assoc, List.append_assoc, h]
  rw [List.length_append, hlength] at hwrite
  obtain ⟨garbage, hfix, hgarbage⟩ := strUtf8FixTruncationAt_take hnoNul ((encode old).length + tail.length)
    (rest ++ behind)
  refine ⟨garbage ++ rest, ?_, ?_⟩
  · rw [strAppendAt, hread, Option.bind_some, Nat.add_right_comm, Nat.add_sub_cancel, Nat.add_assoc, hloop,
      Option.bind_some, ← List.append_assoc, hwrite, Option.bind_some, hcut, hfix, Option.map_some, List.append_assoc]
  · have hall := congrArg List.length hinit
    simp only [List.length_append, List.length_take, List.length_cons, List.length_nil] at hall
    have htotal : (encode (old ++ text)).length = (encode old).length + (encode text).length := by
      rw [encode_append, List.length_append]
    have hsum : (garbage ++ rest).length = garbage.length + rest.length := List.length_append
    rw [List.length_take, htotal] at hgarbage
    omega

/-! ### Truncating -/

lemma strUtf8TruncateLoop_encode {pre post : List Char} (hpost : ∀ c ∈ post, c.toNat ≠ 0) {dstSize : ℕ}
    (hpre : (encode pre).length < dstSize) (more : ℕ) {size : ℤ} (hsize : size ≠ ((encode pre).length : ℤ)) :
    strUtf8TruncateLoop (encode (pre ++ post)).length dstSize (more + 1) (encode post) size =
      ((encode (pre ++ fitting post (dstSize - 1 - (encode pre).length) more)).length : ℤ) := by
  induction post generalizing pre more size with
  | nil =>
    rw [List.append_nil, fitting_nil, List.append_nil, strUtf8TruncateLoop, encode_nil, List.length_nil, Nat.sub_zero]
    dsimp only
    rw [if_pos ⟨hpre, hsize⟩]
    rfl
  | cons c post ih =>
    obtain ⟨hc, hrest⟩ := List.forall_mem_cons.1 hpost
    have hcode : ¬((c.toNat : ℤ) = 0) := by omega
    have hpos : 0 < (String.utf8EncodeChar c).length := List.length_pos_of_ne_nil (utf8EncodeChar_ne_nil c)
    have hnext : (encode (pre ++ [c])).length = (encode pre).length + (String.utf8EncodeChar c).length := by
      rw [encode_append, encode_singleton, List.length_append]
    have hoffset : (encode (pre ++ c :: post)).length - (encode (c :: post)).length = (encode pre).length := by
      rw [encode_append, List.length_append, Nat.add_sub_cancel]
    rw [strUtf8TruncateLoop, hoffset]
    dsimp only
    rw [if_pos ⟨hpre, hsize⟩, encode_cons, strUtf8Decode_encodeChar, if_neg hcode]
    cases more with
    | zero => rw [strUtf8TruncateLoop, fitting_zero, List.append_nil]
    | succ more =>
      rw [fitting]
      have hsplit : pre ++ c :: post = pre ++ [c] ++ post := by simp
      by_cases hfits : (String.utf8EncodeChar c).length ≤ dstSize - 1 - (encode pre).length
      · have h := @ih (pre ++ [c]) hrest (by omega) more (encode pre).length (by omega)
        rw [hsplit, h, hnext, if_pos hfits, Nat.sub_sub, Nat.sub_sub, Nat.sub_sub, List.append_assoc,
          List.singleton_append]
      · have hend : (encode (pre ++ [c] ++ post)).length - (encode post).length = (encode (pre ++ [c])).length := by
          rw [encode_append, List.length_append, Nat.add_sub_cancel]
        rw [if_neg hfits, List.append_nil, hsplit, strUtf8TruncateLoop, hend]
        dsimp only
        rw [if_neg (by omega)]

lemma strUtf8TruncateAt_spec {text : List Char} (htext : ∀ c ∈ text, c.toNat ≠ 0) {dst : List UInt8} (hdst : dst ≠ [])
    (behind : List UInt8) (truncationLen : ℕ) :
    ∃ garbage, strUtf8TruncateAt (dst ++ behind) dst.length (encode text) truncationLen =
        some (encode (fitting text (dst.length - 1) truncationLen) ++ 0 :: (garbage ++ behind)) ∧
      (encode (fitting text (dst.length - 1) truncationLen)).length + 1 + garbage.length = dst.length := by
  have hpos := List.length_pos_of_ne_nil hdst
  obtain ⟨kept, hkept⟩ : ∃ kept, kept = fitting text (dst.length - 1) truncationLen := ⟨_, rfl⟩
  have hle := (length_fitting_le text (dst.length - 1) truncationLen).1
  have hstart := fitting_isPrefix text (dst.length - 1) truncationLen
  have hloop := @strUtf8TruncateLoop_encode [] text htext dst.length hpos truncationLen (-1) (by simp)
  rw [List.nil_append, List.nil_append, encode_nil, List.length_nil, Nat.sub_zero] at hloop
  rw [← hkept] at hle hstart hloop ⊢
  -- the copy is given just the size of what is kept
  obtain ⟨rest, rfl⟩ := hstart
  obtain ⟨front, back, rfl, hfront⟩ : ∃ front back, dst = front ++ back ∧ front.length = (encode kept).length + 1 :=
    ⟨dst.take ((encode kept).length + 1), dst.drop ((encode kept).length + 1), (List.take_append_drop ..).symm, by
      rw [List.length_take]
      omega⟩
  obtain ⟨garbage, hcopy, hlength⟩ := strCopyAt_spec htext (List.ne_nil_of_length_eq_add_one hfront) (back ++ behind)
  rw [hfront, Nat.add_sub_cancel, fitting_append _ _ (List.prefix_append _ _).length_le] at hcopy hlength
  refine ⟨garbage ++ back, ?_, ?_⟩
  · have hsize : (((encode kept).length : ℤ) + 1).toNat = (encode kept).length + 1 := rfl
    rw [strUtf8TruncateAt, hloop, List.append_assoc, hsize, hcopy, Option.map_some, List.append_assoc]
  · rw [List.length_append, List.length_append]
    omega

/-! ### What is left -/

/-- The longest part in front of a text that is allowed. -/
structure IsLongest (text : List Char) (Allowed : List Char → Prop) (kept : List Char) : Prop where
  isPrefix : kept <+: text
  allowed : Allowed kept
  longest : ∀ other, other <+: text → Allowed other → other <+: kept

/-- A buffer of `size` bytes is left with the longest part of a text that is allowed and a zero, and what lies behind the
buffer is as before. -/
def Leaves (result : Option (List UInt8)) (size : ℕ) (behind : List UInt8) (text : List Char)
    (Allowed : List Char → Prop) : Prop :=
  ∃ kept garbage, IsLongest text Allowed kept ∧ (encode kept ++ 0 :: garbage).length = size ∧
    result = some (encode kept ++ 0 :: (garbage ++ behind))

lemma isLongest_fitting (text : List Char) {room size : ℕ} (hsize : room + 1 = size) (count : ℕ) :
    IsLongest text (fun part => (encode part).length < size ∧ part.length ≤ count) (fitting text room count) where
  isPrefix := fitting_isPrefix text room count
  allowed := by
    have h := length_fitting_le text room count
    exact ⟨by omega, h.2⟩
  longest := fun _ hstart hallowed => isPrefix_fitting hstart (by omega) hallowed.2

/-- The number of characters of the text is no restriction. -/
lemma isLongest_fitting_length (text : List Char) {room size : ℕ} (hsize : room + 1 = size) :
    IsLongest text (fun part => (encode part).length < size) (fitting text room text.length) where
  isPrefix := fitting_isPrefix text room text.length
  allowed := (isLongest_fitting text hsize text.length).allowed.1
  longest := fun other hstart hallowed =>
    (isLongest_fitting text hsize text.length).longest other hstart ⟨hallowed, hstart.length_le⟩

lemma leaves_of_fitting {result : Option (List UInt8)} {size room count : ℕ} {behind garbage : List UInt8}
    {text : List Char} {Allowed : List Char → Prop} (hlongest : IsLongest text Allowed (fitting text room count))
    (hresult : result = some (encode (fitting text room count) ++ 0 :: (garbage ++ behind)))
    (hlength : (encode (fitting text room count)).length + 1 + garbage.length = size) :
    Leaves result size behind text Allowed := by
  refine ⟨_, garbage, hlongest, ?_, hresult⟩
  rw [List.length_append, List.length_cons]
  omega

/-- A scalar value is read back from a buffer. -/
lemma strUtf8DecodeAt_strUtf8Encode {c : ℕ} (hc : IsScalar c) (rest : List UInt8) :
    strUtf8DecodeAt (strUtf8Encode c ++ rest) = some ((c : ℤ), rest) := by
  have h := strUtf8DecodeAt_encodeChar (Char.ofNat c) rest
  rwa [← strUtf8Encode_toNat, toNat_ofNat_of_isScalar hc] at h

/-- A string is read up to the terminator at most, and an error leaves the terminator unread. -/
lemma strUtf8DecodeAt_terminator (s rest : List UInt8) :
    ∃ code t, strUtf8DecodeAt (s ++ 0 :: rest) = some (code, t) ∧
      (code = -1 → ∃ unread, unread <:+ s ∧ t = unread ++ 0 :: rest) := by
  cases s with
  | nil => exact ⟨0, rest, rfl, fun h => absurd h (by decide)⟩
  | cons b s =>
    refine ⟨_, _, strUtf8DecodeAt_append_zero (List.cons_ne_nil b s) rest, fun _ => ⟨_, ?_, rfl⟩⟩
    exact (strUtf8Decode_suffix b s).trans (List.suffix_cons b s)

/-- The check accepts the strings that are well-formed. -/
lemma strUtf8Check_iff {s : List UInt8} (hs : 0 ∉ s) : strUtf8Check s = true ↔ ∃ text, s = encode text := by
  constructor
  · intro h
    exact ⟨_, (encode_replaceInvalid (fun b hb => ne_of_mem_of_not_mem hb hs) h).symm⟩
  · rintro ⟨text, rfl⟩
    exact strUtf8Check_encode text

/-- Copying, appending and truncating write only to the destination, whose size is `dst.length` or what the old text, its
terminator and the bytes behind them take; they terminate it, and leave the longest part of the text that fits.  What is
encoded is decoded, an error does not consume the terminator, and what is well-formed is accepted. -/
theorem cut_between_characters :
    (∀ (text : List Char) (dst behind : List UInt8), (∀ c ∈ text, c.toNat ≠ 0) → dst ≠ [] →
      Leaves ((strCopyAt (dst ++ behind) (encode text) dst.length).map Prod.snd) dst.length behind text
        fun part => (encode part).length < dst.length) ∧
    (∀ (old text : List Char) (tail behind : List UInt8), (∀ c ∈ old, c.toNat ≠ 0) → (∀ c ∈ text, c.toNat ≠ 0) →
      Leaves (strAppendAt (encode old ++ 0 :: (tail ++ behind)) (encode text) (encode old ++ 0 :: tail).length)
        (encode old ++ 0 :: tail).length behind (old ++ text)
        fun part => (encode part).length < (encode old ++ 0 :: tail).length) ∧
    (∀ (text : List Char) (dst behind : List UInt8) (truncationLen : ℕ), (∀ c ∈ text, c.toNat ≠ 0) → dst ≠ [] →
      Leaves (strUtf8TruncateAt (dst ++ behind) dst.length (encode text) truncationLen) dst.length behind text
        fun part => (encode part).length < dst.length ∧ part.length ≤ truncationLen) ∧
    (∀ (c : ℕ) (rest : List UInt8), IsScalar c → strUtf8DecodeAt (strUtf8Encode c ++ rest) = some ((c : ℤ), rest)) ∧
    (∀ s rest : List UInt8, ∃ code t, strUtf8DecodeAt (s ++ 0 :: rest) = some (code, t) ∧
      (code = -1 → ∃ unread, unread <:+ s ∧ t = unread ++ 0 :: rest)) ∧
    (∀ s : List UInt8, 0 ∉ s → (strUtf8Check s = true ↔ ∃ text, s = encode text)) := by
  refine ⟨?_, ?_, ?_, fun c rest hc => strUtf8DecodeAt_strUtf8Encode hc rest, strUtf8DecodeAt_terminator,
    fun s hs => strUtf8Check_iff hs⟩
  · intro text dst behind htext hdst
    obtain ⟨garbage, hcopy, hlength⟩ := strCopyAt_spec htext hdst behind
    have hpos := List.length_pos_of_ne_nil hdst
    exact leaves_of_fitting (isLongest_fitting_length text (by omega)) (by rw [hcopy, Option.map_some]) hlength
  · intro old text tail behind hold htext
    obtain ⟨garbage, happend, hlength⟩ := strAppendAt_spec hold htext tail behind
    have hsize : (encode old ++ 0 :: tail).length = (encode old).length + 1 + tail.length := by
      rw [List.length_append, List.length_cons]
      omega
    rw [hsize]
    exact leaves_of_fitting (isLongest_fitting_length (old ++ text) (by omega)) happend hlength
  · intro text dst behind truncationLen htext hdst
    obtain ⟨garbage, htruncate, hlength⟩ := strUtf8TruncateAt_spec htext hdst behind truncationLen
    have hpos := List.length_pos_of_ne_nil hdst
    exact leaves_of_fitting (isLongest_fitting text (by omega) truncationLen) htruncate hlength

/-- An umlaut that would need the last byte of the buffer is left out. -/
theorem cut_umlaut :
    Leaves ((strCopyAt [1, 2, 3, 4] (encode ['a', 'ä']) 3).map Prod.snd) 3 [4] ['a', 'ä']
        (fun part => (encode part).length < 3) ∧
      (strCopyAt [1, 2, 3, 4] (encode ['a', 'ä']) 3) = some (1, [97, 0, 0, 4]) ∧
      strUtf8DecodeAt (strUtf8Encode 228 ++ [4]) = some (228, [4]) ∧
      (strUtf8Check [195, 164] = true ↔ ∃ text, [195, 164] = encode text) :=
  ⟨cut_between_characters.1 ['a', 'ä'] [1, 2, 3] [4] (by simp) (by decide), by decide,
    cut_between_characters.2.2.2.1 228 [4] (by decide), cut_between_characters.2.2.2.2.2 [195, 164] (by decide)⟩

end DDNet
