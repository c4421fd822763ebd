/-
The UTF-8 codec of `base/system.cpp`.

A C string is the list of its bytes before the terminator; a decoder that runs to the end
of the list reads the terminating zero there.  The three functions of the source are
`strUtf8Encode`, `strUtf8Decode` and `strUtf8Check`.  The decoder accepts exactly what
the encoder writes for the Unicode scalar values, which is what makes packed strings
readable again.
-/
import DDNet.Lib.Bits

namespace DDNet

open Lib

/-- A C string: its bytes before the terminating zero. -/
structure CStr where
  /-- The bytes before the terminator. -/
  bytes : List UInt8
  /-- None of them is the terminator. -/
  nonzero : ∀ b ∈ bytes, b ≠ 0
deriving DecidableEq

namespace Utf8

/-- `str_utf8_encode`: the bytes of a code point, none if it is too large. -/
def strUtf8Encode (chr : ℕ) : List UInt8 :=
  if chr ≤ 0x7F then
    [UInt8.ofNat chr]
  else if chr ≤ 0x7FF then
    [UInt8.ofNat (0xC0 ||| ((chr >>> 6) &&& 0x1F)), UInt8.ofNat (0x80 ||| (chr &&& 0x3F))]
  else if chr ≤ 0xFFFF then
    [UInt8.ofNat (0xE0 ||| ((chr >>> 12) &&& 0x0F)), UInt8.ofNat (0x80 ||| ((chr >>> 6) &&& 0x3F)),
      UInt8.ofNat (0x80 ||| (chr &&& 0x3F))]
  else if chr ≤ 0x10FFFF then
    [UInt8.ofNat (0xF0 ||| ((chr >>> 18) &&& 0x07)), UInt8.ofNat (0x80 ||| ((chr >>> 12) &&& 0x3F)),
      UInt8.ofNat (0x80 ||| ((chr >>> 6) &&& 0x3F)), UInt8.ofNat (0x80 ||| (chr &&& 0x3F))]
  else
    []

/-- The loop of `str_utf8_decode` once the first byte is read: `needed` continuation bytes
are missing, the next of which has to lie between the two boundaries. -/
def decodeTail (lower upper : ℕ) (codePoint : ℕ) : ℕ → List UInt8 → ℤ × List UInt8
  | 0, s => (codePoint, s)
  | _ + 1, [] => (-1, [])
  | needed + 1, b :: s =>
      if lower ≤ b.toNat ∧ b.toNat ≤ upper then
        decodeTail 0x80 0xBF (codePoint + ((b.toNat - 0x80) <<< (6 * needed))) needed s
      else
        -- the offending byte is put back
        (-1, b :: s)

/-- `str_utf8_decode`: the next code point, 0 at the terminator and -1 for an invalid
sequence, and the rest of the string. -/
def strUtf8Decode : List UInt8 → ℤ × List UInt8
  | [] => (0, [])
  | b :: s =>
      let v := b.toNat
      if v ≤ 0x7F then (v, s)
      else if 0xC2 ≤ v ∧ v ≤ 0xDF then decodeTail 0x80 0xBF ((v - 0xC0) <<< 6) 1 s
      else if 0xE0 ≤ v ∧ v ≤ 0xEF then
        decodeTail (if v = 0xE0 then 0xA0 else 0x80) (if v = 0xED then 0x9F else 0xBF)
          ((v - 0xE0) <<< 12) 2 s
      else if 0xF0 ≤ v ∧ v ≤ 0xF4 then
        decodeTail (if v = 0xF0 then 0x90 else 0x80) (if v = 0xF4 then 0x8F else 0xBF)
          ((v - 0xF0) <<< 18) 3 s
      else (-1, s)

/-! ### The decoder consumes its input -/

lemma decodeTail_suffix (lower upper cp : ℕ) (n : ℕ) (s : List UInt8) :
    (decodeTail lower upper cp n s).2 <:+ s := by
  induction n generalizing lower upper cp s with
  | zero => simp [decodeTail]
  | succ n ih =>
    cases s with
    | nil => simp [decodeTail]
    | cons b s =>
      rw [decodeTail]
      split
      · exact (ih _ _ _ s).trans (List.suffix_cons b s)
      · exact List.suffix_rfl

lemma strUtf8Decode_suffix (b : UInt8) (s : List UInt8) : (strUtf8Decode (b :: s)).2 <:+ s := by
  simp only [strUtf8Decode]
  split_ifs <;> first | exact decodeTail_suffix _ _ _ _ _ | exact List.suffix_rfl

lemma strUtf8Decode_length (b : UInt8) (s : List UInt8) :
    (strUtf8Decode (b :: s)).2.length < (b :: s).length :=
  Nat.lt_succ_of_le (strUtf8Decode_suffix b s).length_le

/-- `str_utf8_check`: every sequence up to the terminator is valid. -/
def strUtf8Check (s : List UInt8) : Bool :=
  match s with
  | [] => true
  | b :: s' =>
      let r := strUtf8Decode (b :: s')
      -- an embedded zero would end the C string here
      if r.1 = 0 then true
      else if r.1 = -1 then false
      else strUtf8Check r.2
termination_by s.length
decreasing_by exact strUtf8Decode_length b s'

/-- `str_sanitize_cc`: control characters become blanks. -/
def strSanitizeCC (s : List UInt8) : List UInt8 := s.map fun b => if b < 32 then 32 else b

/-- `str_sanitize`: the same, except for carriage return, line feed and tab. -/
def strSanitize (s : List UInt8) : List UInt8 :=
  s.map fun b => if b < 32 ∧ b ≠ 13 ∧ b ≠ 10 ∧ b ≠ 9 then 32 else b

/-- `str_utf8_isspace`: the code points that show as empty. -/
def strUtf8Isspace (code : ℤ) : Bool :=
  code ≤ 0x0020 || code = 0x0085 || code = 0x00A0 || code = 0x034F ||
  code = 0x115F || code = 0x1160 || code = 0x1680 || code = 0x180E ||
  (code ≥ 0x2000 && code ≤ 0x200F) || (code ≥ 0x2028 && code ≤ 0x202F) ||
  (code ≥ 0x205F && code ≤ 0x2064) || (code ≥ 0x206A && code ≤ 0x206F) ||
  code = 0x2800 || code = 0x3000 || code = 0x3164 ||
  (code ≥ 0xFE00 && code ≤ 0xFE0F) || code = 0xFEFF || code = 0xFFA0 ||
  (code ≥ 0xFFF9 && code ≤ 0xFFFC)

/-- `str_utf8_skip_whitespaces`: the string from its first visible code point on. -/
def strUtf8SkipWhitespaces (s : List UInt8) : List UInt8 :=
  match s with
  | [] => []
  | b :: s' =>
      let r := strUtf8Decode (b :: s')
      if strUtf8Isspace r.1 then strUtf8SkipWhitespaces r.2 else b :: s'
termination_by s.length
decreasing_by exact strUtf8Decode_length b s'

/-! ### Scalar values -/

/-- A Unicode scalar value: a code point that is not a surrogate. -/
def IsScalar (c : ℕ) : Prop := c < 0xD800 ∨ 0xE000 ≤ c ∧ c ≤ 0x10FFFF

instance (c : ℕ) : Decidable (IsScalar c) := inferInstanceAs (Decidable (_ ∨ _))

/-- The byte with a continuation mark and six payload bits. -/
lemma continuation_byte (x : ℕ) :
    (UInt8.ofNat (0x80 ||| (x &&& 0x3F))).toNat = 0x80 + x % 64 := by
  have hmask : x &&& 0x3F = x % 64 := and_mask x 6
  have hor : 0x80 ||| x % 64 = 0x80 + x % 64 := mul_pow_or (a := 2) (k := 6) (Nat.mod_lt _ (by norm_num))
  rw [hmask, hor, toNat_ofNat_of_lt (by omega)]

lemma two_byte_lead (x : ℕ) : (UInt8.ofNat (0xC0 ||| (x &&& 0x1F))).toNat = 0xC0 + x % 32 := by
  have hmask : x &&& 0x1F = x % 32 := and_mask x 5
  have hor : 0xC0 ||| x % 32 = 0xC0 + x % 32 := mul_pow_or (a := 6) (k := 5) (Nat.mod_lt _ (by norm_num))
  rw [hmask, hor, toNat_ofNat_of_lt (by omega)]

lemma three_byte_lead (x : ℕ) : (UInt8.ofNat (0xE0 ||| (x &&& 0x0F))).toNat = 0xE0 + x % 16 := by
  have hmask : x &&& 0x0F = x % 16 := and_mask x 4
  have hor : 0xE0 ||| x % 16 = 0xE0 + x % 16 := mul_pow_or (a := 14) (k := 4) (Nat.mod_lt _ (by norm_num))
  rw [hmask, hor, toNat_ofNat_of_lt (by omega)]

lemma four_byte_lead (x : ℕ) : (UInt8.ofNat (0xF0 ||| (x &&& 0x07))).toNat = 0xF0 + x % 8 := by
  have hmask : x &&& 0x07 = x % 8 := and_mask x 3
  have hor : 0xF0 ||| x % 8 = 0xF0 + x % 8 := mul_pow_or (a := 30) (k := 3) (Nat.mod_lt _ (by norm_num))
  rw [hmask, hor, toNat_ofNat_of_lt (by omega)]

/-- One accepted continuation byte. -/
lemma decodeTail_cons {lower upper cp n : ℕ} {b : UInt8} {s : List UInt8}
    (hl : lower ≤ b.toNat) (hu : b.toNat ≤ upper) :
    decodeTail lower upper cp (n + 1) (b :: s) =
      decodeTail 0x80 0xBF (cp + (b.toNat - 0x80) * 2 ^ (6 * n)) n s := by
  rw [decodeTail, if_pos ⟨hl, hu⟩, Nat.shiftLeft_eq]

/-- The decoder reads back what the encoder wrote for a scalar value. -/
lemma strUtf8Decode_encode {c : ℕ} (hc : IsScalar c) (s : List UInt8) :
    strUtf8Decode (strUtf8Encode c ++ s) = ((c : ℤ), s) := by
  have hmax : c ≤ 0x10FFFF := by unfold IsScalar at hc; omega
  unfold strUtf8Encode
  split_ifs with h1 h2 h3
  · have hb : (UInt8.ofNat c).toNat = c := toNat_ofNat_of_lt (by omega)
    simp [strUtf8Decode, hb, h1]
  · have hlead := two_byte_lead (c >>> 6)
    have hcont := continuation_byte c
    rw [Nat.shiftRight_eq_div_pow] at hlead
    simp only [List.cons_append, List.nil_append, strUtf8Decode, Nat.shiftRight_eq_div_pow]
    rw [hlead, if_neg (by omega), if_pos (by omega),
      decodeTail_cons (by omega) (by omega), decodeTail, hcont, Nat.shiftLeft_eq]
    have hval : (0xC0 + c / 2 ^ 6 % 32 - 0xC0) * 2 ^ 6 +
        (0x80 + c % 64 - 0x80) * 2 ^ (6 * 0) = c := by omega
    rw [hval]
  · have hlead := three_byte_lead (c >>> 12)
    have hcont₁ := continuation_byte (c >>> 6)
    have hcont₀ := continuation_byte c
    rw [Nat.shiftRight_eq_div_pow] at hlead hcont₁
    unfold IsScalar at hc
    simp only [List.cons_append, List.nil_append, strUtf8Decode, Nat.shiftRight_eq_div_pow]
    rw [hlead, if_neg (by omega), if_neg (by omega), if_pos (by omega),
      decodeTail_cons (by rw [hcont₁]; split <;> omega) (by rw [hcont₁]; split <;> omega),
      decodeTail_cons (by omega) (by omega), decodeTail, hcont₁, hcont₀, Nat.shiftLeft_eq]
    have hval : (0xE0 + c / 2 ^ 12 % 16 - 0xE0) * 2 ^ 12 +
        (0x80 + c / 2 ^ 6 % 64 - 0x80) * 2 ^ (6 * 1) +
        (0x80 + c % 64 - 0x80) * 2 ^ (6 * 0) = c := by omega
    rw [hval]
  · have hlead := four_byte_lead (c >>> 18)
    have hcont₂ := continuation_byte (c >>> 12)
    have hcont₁ := continuation_byte (c >>> 6)
    have hcont₀ := continuation_byte c
    rw [Nat.shiftRight_eq_div_pow] at hlead hcont₂ hcont₁
    simp only [List.cons_append, List.nil_append, strUtf8Decode, Nat.shiftRight_eq_div_pow]
    rw [hlead, if_neg (by omega), if_neg (by omega), if_neg (by omega), if_pos (by omega),
      decodeTail_cons (by rw [hcont₂]; split <;> omega) (by rw [hcont₂]; split <;> omega),
      decodeTail_cons (by omega) (by omega), decodeTail_cons (by omega) (by omega), decodeTail,
      hcont₂, hcont₁, hcont₀, Nat.shiftLeft_eq]
    have hval : (0xF0 + c / 2 ^ 18 % 8 - 0xF0) * 2 ^ 18 +
        (0x80 + c / 2 ^ 12 % 64 - 0x80) * 2 ^ (6 * 2) +
        (0x80 + c / 2 ^ 6 % 64 - 0x80) * 2 ^ (6 * 1) +
        (0x80 + c % 64 - 0x80) * 2 ^ (6 * 0) = c := by omega
    rw [hval]

/-! ### What the decoder accepts -/

/-- An accepted continuation byte lies between the boundaries. -/
lemma decodeTail_succ_inv {lower upper cp n : ℕ} {s t : List UInt8} {c : ℤ}
    (h : decodeTail lower upper cp (n + 1) s = (c, t)) (hc : c ≠ -1) :
    ∃ b s', s = b :: s' ∧ lower ≤ b.toNat ∧ b.toNat ≤ upper ∧
      decodeTail 0x80 0xBF (cp + (b.toNat - 0x80) * 2 ^ (6 * n)) n s' = (c, t) := by
  cases s with
  | nil => exact absurd (congrArg Prod.fst h).symm hc
  | cons b s' =>
    by_cases hb : lower ≤ b.toNat ∧ b.toNat ≤ upper
    · rw [decodeTail_cons hb.1 hb.2] at h
      exact ⟨b, s', rfl, hb.1, hb.2, h⟩
    · rw [decodeTail, if_neg hb] at h
      exact absurd (congrArg Prod.fst h).symm hc

lemma decodeTail_zero_inv {lower upper cp : ℕ} {s t : List UInt8} {c : ℤ}
    (h : decodeTail lower upper cp 0 s = (c, t)) : c = cp ∧ t = s := by
  rw [decodeTail] at h
  exact ⟨(congrArg Prod.fst h).symm, (congrArg Prod.snd h).symm⟩

/-- The byte of a value that matches its own payload. -/
lemma byte_eq_of_toNat {x : ℕ} {b : UInt8} (h : (UInt8.ofNat x).toNat = b.toNat) :
    UInt8.ofNat x = b :=
  UInt8.toNat_inj.mp h

/-- A sequence that the decoder accepts is the encoding of a scalar value: neither
overlong forms nor surrogates pass. -/
lemma encode_of_strUtf8Decode {b : UInt8} {s t : List UInt8} {c : ℤ}
    (h : strUtf8Decode (b :: s) = (c, t)) (hc : c ≠ -1) :
    ∃ n : ℕ, c = n ∧ IsScalar n ∧ strUtf8Encode n ++ t = b :: s := by
  simp only [strUtf8Decode] at h
  by_cases h1 : b.toNat ≤ 0x7F
  · rw [if_pos h1] at h
    obtain ⟨rfl, rfl⟩ := Prod.mk.injEq .. ▸ h
    refine ⟨b.toNat, rfl, Or.inl (by omega), ?_⟩
    simp [strUtf8Encode, h1]
  rw [if_neg h1] at h
  by_cases h2 : 0xC2 ≤ b.toNat ∧ b.toNat ≤ 0xDF
  · rw [if_pos h2] at h
    obtain ⟨b₀, s₀, rfl, hl₀, hu₀, h⟩ := decodeTail_succ_inv h hc
    obtain ⟨rfl, rfl⟩ := decodeTail_zero_inv h
    rw [Nat.shiftLeft_eq]
    refine ⟨_, rfl, Or.inl (by omega), ?_⟩
    rw [strUtf8Encode, if_neg (by omega), if_pos (by omega)]
    simp only [List.cons_append, List.nil_append]
    congr 1
    · exact byte_eq_of_toNat (by rw [two_byte_lead, Nat.shiftRight_eq_div_pow]; omega)
    · congr 1
      exact byte_eq_of_toNat (by rw [continuation_byte]; omega)
  rw [if_neg h2] at h
  by_cases h3 : 0xE0 ≤ b.toNat ∧ b.toNat ≤ 0xEF
  · rw [if_pos h3] at h
    obtain ⟨b₁, s₁, rfl, hl₁, hu₁, h⟩ := decodeTail_succ_inv h hc
    obtain ⟨b₀, s₀, rfl, hl₀, hu₀, h⟩ := decodeTail_succ_inv h hc
    obtain ⟨rfl, rfl⟩ := decodeTail_zero_inv h
    have hlow : b.toNat = 0xE0 → 0xA0 ≤ b₁.toNat := fun he => by simpa [he] using hl₁
    have hupp : b.toNat = 0xED → b₁.toNat ≤ 0x9F := fun he => by simpa [he] using hu₁
    have hl₁' : 0x80 ≤ b₁.toNat := by split at hl₁ <;> omega
    have hu₁' : b₁.toNat ≤ 0xBF := by split at hu₁ <;> omega
    rw [Nat.shiftLeft_eq]
    refine ⟨_, rfl, ?_, ?_⟩
    · unfold IsScalar
      omega
    · rw [strUtf8Encode, if_neg (by omega), if_neg (by omega), if_pos (by omega)]
      simp only [List.cons_append, List.nil_append]
      congr 1
      · exact byte_eq_of_toNat (by rw [three_byte_lead, Nat.shiftRight_eq_div_pow]; omega)
      · congr 1
        · exact byte_eq_of_toNat (by rw [continuation_byte, Nat.shiftRight_eq_div_pow]; omega)
        · congr 1
          exact byte_eq_of_toNat (by rw [continuation_byte]; omega)
  rw [if_neg h3] at h
  by_cases h4 : 0xF0 ≤ b.toNat ∧ b.toNat ≤ 0xF4
  · rw [if_pos h4] at h
    obtain ⟨b₂, s₂, rfl, hl₂, hu₂, h⟩ := decodeTail_succ_inv h hc
    obtain ⟨b₁, s₁, rfl, hl₁, hu₁, h⟩ := decodeTail_succ_inv h hc
    obtain ⟨b₀, s₀, rfl, hl₀, hu₀, h⟩ := decodeTail_succ_inv h hc
    obtain ⟨rfl, rfl⟩ := decodeTail_zero_inv h
    have hlow : b.toNat = 0xF0 → 0x90 ≤ b₂.toNat := fun he => by simpa [he] using hl₂
    have hupp : b.toNat = 0xF4 → b₂.toNat ≤ 0x8F := fun he => by simpa [he] using hu₂
    have hl₂' : 0x80 ≤ b₂.toNat := by split at hl₂ <;> omega
    have hu₂' : b₂.toNat ≤ 0xBF := by split at hu₂ <;> omega
    rw [Nat.shiftLeft_eq]
    refine ⟨_, rfl, ?_, ?_⟩
    · unfold IsScalar
      omega
    · rw [strUtf8Encode, if_neg (by omega), if_neg (by omega), if_neg (by omega),
        if_pos (by omega)]
      simp only [List.cons_append, List.nil_append]
      congr 1
      · exact byte_eq_of_toNat (by rw [four_byte_lead, Nat.shiftRight_eq_div_pow]; omega)
      · congr 1
        · exact byte_eq_of_toNat (by rw [continuation_byte, Nat.shiftRight_eq_div_pow]; omega)
        · congr 1
          · exact byte_eq_of_toNat (by rw [continuation_byte, Nat.shiftRight_eq_div_pow]; omega)
          · congr 1
            exact byte_eq_of_toNat (by rw [continuation_byte]; omega)
  rw [if_neg h4] at h
  exact absurd (congrArg Prod.fst h).symm hc

/-! ### Whole strings -/

lemma isScalar_toNat (c : Char) : IsScalar c.toNat := by
  have hvalid : c.toNat < 55296 ∨ 57343 < c.toNat ∧ c.toNat < 1114112 := c.valid
  unfold IsScalar
  omega

lemma toNat_ofNat_of_isScalar {n : ℕ} (h : IsScalar n) : (Char.ofNat n).toNat = n := by
  have hvalid : n.isValidChar := by
    unfold IsScalar at h
    unfold Nat.isValidChar
    omega
  rw [Char.ofNat, dif_pos hvalid]
  rfl

/-- The encoder of the source is the UTF-8 encoding of Unicode characters. -/
lemma strUtf8Encode_toNat (c : Char) : strUtf8Encode c.toNat = String.utf8EncodeChar c := by
  have hmax : c.toNat ≤ 0x10FFFF := by
    have := isScalar_toNat c
    unfold IsScalar at this
    omega
  have hval : c.val.toNat = c.toNat := rfl
  unfold strUtf8Encode String.utf8EncodeChar
  simp only [hval]
  split_ifs with h1 h2 h3
  · rfl
  · refine List.cons_eq_cons.2 ⟨UInt8.toNat_inj.mp ?_, List.cons_eq_cons.2
      ⟨UInt8.toNat_inj.mp ?_, rfl⟩⟩
    · rw [two_byte_lead, Nat.shiftRight_eq_div_pow, toNat_ofNat_of_lt (by omega)]
      omega
    · rw [continuation_byte, toNat_ofNat_of_lt (by omega)]
      omega
  · refine List.cons_eq_cons.2 ⟨UInt8.toNat_inj.mp ?_, List.cons_eq_cons.2
      ⟨UInt8.toNat_inj.mp ?_, List.cons_eq_cons.2 ⟨UInt8.toNat_inj.mp ?_, rfl⟩⟩⟩
    · rw [three_byte_lead, Nat.shiftRight_eq_div_pow, toNat_ofNat_of_lt (by omega)]
      omega
    · rw [continuation_byte, Nat.shiftRight_eq_div_pow, toNat_ofNat_of_lt (by omega)]
      omega
    · rw [continuation_byte, toNat_ofNat_of_lt (by omega)]
      omega
  · refine List.cons_eq_cons.2 ⟨UInt8.toNat_inj.mp ?_, List.cons_eq_cons.2
      ⟨UInt8.toNat_inj.mp ?_, List.cons_eq_cons.2 ⟨UInt8.toNat_inj.mp ?_,
        List.cons_eq_cons.2 ⟨UInt8.toNat_inj.mp ?_, rfl⟩⟩⟩⟩
    · rw [four_byte_lead, Nat.shiftRight_eq_div_pow, toNat_ofNat_of_lt (by omega)]
      omega
    · rw [continuation_byte, Nat.shiftRight_eq_div_pow, toNat_ofNat_of_lt (by omega)]
      omega
    · rw [continuation_byte, Nat.shiftRight_eq_div_pow, toNat_ofNat_of_lt (by omega)]
      omega
    · rw [continuation_byte, toNat_ofNat_of_lt (by omega)]
      omega

/-- The UTF-8 encoding of a text. -/
def encode (cs : List Char) : List UInt8 := cs.flatMap String.utf8EncodeChar

@[simp] lemma encode_nil : encode [] = [] := rfl

@[simp] lemma encode_cons (c : Char) (cs : List Char) :
    encode (c :: cs) = String.utf8EncodeChar c ++ encode cs := rfl

lemma strUtf8Decode_encodeChar (c : Char) (s : List UInt8) :
    strUtf8Decode (String.utf8EncodeChar c ++ s) = ((c.toNat : ℤ), s) := by
  rw [← strUtf8Encode_toNat]
  exact strUtf8Decode_encode (isScalar_toNat c) s

lemma utf8EncodeChar_ne_nil (c : Char) : String.utf8EncodeChar c ≠ [] := by
  intro h
  have hd := strUtf8Decode_encodeChar c [1]
  rw [h] at hd
  simp [strUtf8Decode] at hd

/-- The character that the first sequence of a string stands for: the Unicode replacement
character if the decoder refuses the sequence. -/
def leadChar (s : List UInt8) : Char :=
  if (strUtf8Decode s).1 = -1 then Char.ofNat 0xFFFD else Char.ofNat (strUtf8Decode s).1.toNat

/-- The characters of a string, with the Unicode replacement character for each sequence
that the decoder refuses. -/
def replaceInvalid (s : List UInt8) : List Char :=
  match s with
  | [] => []
  | b :: s' => leadChar (b :: s') :: replaceInvalid (strUtf8Decode (b :: s')).2
termination_by s.length
decreasing_by exact strUtf8Decode_length b s'

/-- A replaced or decoded code point is encoded as its character. -/
lemma strUtf8Encode_lead (b : UInt8) (s : List UInt8) :
    strUtf8Encode (if (strUtf8Decode (b :: s)).1 = -1 then 0xFFFD
        else (strUtf8Decode (b :: s)).1.toNat) =
      String.utf8EncodeChar (leadChar (b :: s)) := by
  unfold leadChar
  split
  · rw [← strUtf8Encode_toNat, toNat_ofNat_of_isScalar (Or.inr (by omega))]
  · next hne =>
    have hpair : strUtf8Decode (b :: s) =
        ((strUtf8Decode (b :: s)).1, (strUtf8Decode (b :: s)).2) := rfl
    obtain ⟨n, hn, hscalar, -⟩ := encode_of_strUtf8Decode hpair hne
    rw [hn, Int.toNat_natCast, ← strUtf8Encode_toNat, toNat_ofNat_of_isScalar hscalar]

@[simp] lemma replaceInvalid_nil : replaceInvalid [] = [] := by
  rw [replaceInvalid]

/-- Valid UTF-8 is left as it is. -/
lemma replaceInvalid_encode (cs : List Char) : replaceInvalid (encode cs) = cs := by
  induction cs with
  | nil => simp
  | cons c cs ih =>
    obtain ⟨b, s, hb⟩ := List.exists_cons_of_ne_nil (utf8EncodeChar_ne_nil c)
    have hd := strUtf8Decode_encodeChar c (encode cs)
    rw [encode_cons]
    rw [hb, List.cons_append] at hd ⊢
    have hne : ((c.toNat : ℤ)) ≠ -1 := by omega
    rw [replaceInvalid, leadChar, hd]
    simp only [if_neg hne, Int.toNat_natCast, ih, Char.ofNat_toNat]

/-- Encoded text passes the check. -/
lemma strUtf8Check_encode (cs : List Char) : strUtf8Check (encode cs) = true := by
  induction cs with
  | nil => simp [strUtf8Check]
  | cons c cs ih =>
    obtain ⟨b, s, hb⟩ := List.exists_cons_of_ne_nil (utf8EncodeChar_ne_nil c)
    have hd := strUtf8Decode_encodeChar c (encode cs)
    rw [encode_cons]
    rw [hb, List.cons_append] at hd ⊢
    rw [strUtf8Check, hd]
    have hne : ((c.toNat : ℤ)) ≠ -1 := by omega
    simp only [if_neg hne, ih, ite_self]

/-! ### Strings without zero bytes -/

/-- Only the null character is encoded with a zero byte. -/
lemma zero_notMem_utf8EncodeChar {c : Char} (hc : c.toNat ≠ 0) :
    (0 : UInt8) ∉ String.utf8EncodeChar c := by
  have hzero : ∀ {x : ℕ}, x < 256 → x ≠ 0 → (0 : UInt8) ≠ UInt8.ofNat x := by
    intro x hx hne h
    have := congrArg UInt8.toNat h
    rw [toNat_ofNat_of_lt hx] at this
    exact hne this.symm
  have hval : c.val.toNat = c.toNat := rfl
  unfold String.utf8EncodeChar
  simp only [hval]
  split_ifs with h1 h2 h3
  · simpa using hzero (by omega) hc
  · simp only [List.mem_cons, List.not_mem_nil, or_false, not_or]
    exact ⟨hzero (by omega) (by omega), hzero (by omega) (by omega)⟩
  · simp only [List.mem_cons, List.not_mem_nil, or_false, not_or]
    exact ⟨hzero (by omega) (by omega), hzero (by omega) (by omega), hzero (by omega) (by omega)⟩
  · simp only [List.mem_cons, List.not_mem_nil, or_false, not_or]
    exact ⟨hzero (by omega) (by omega), hzero (by omega) (by omega), hzero (by omega) (by omega),
      hzero (by omega) (by omega)⟩

lemma leadChar_ne_zero {b : UInt8} (hb : b ≠ 0) (s : List UInt8) :
    (leadChar (b :: s)).toNat ≠ 0 := by
  unfold leadChar
  split
  · rw [toNat_ofNat_of_isScalar (Or.inr (by omega))]
    norm_num
  · next hne =>
    have hpair : strUtf8Decode (b :: s) =
        ((strUtf8Decode (b :: s)).1, (strUtf8Decode (b :: s)).2) := rfl
    obtain ⟨n, hn, hscalar, henc⟩ := encode_of_strUtf8Decode hpair hne
    rw [hn, Int.toNat_natCast, toNat_ofNat_of_isScalar hscalar]
    rintro rfl
    -- the only encoding of 0 is the zero byte
    have hb0 : (0 : UInt8) = b := (List.cons_eq_cons.1 henc).1
    exact hb hb0.symm

lemma replaceInvalid_ne_zero {s : List UInt8} (hs : ∀ b ∈ s, b ≠ 0) :
    ∀ c ∈ replaceInvalid s, c.toNat ≠ 0 := by
  induction hn : s.length using Nat.strong_induction_on generalizing s with
  | _ n ih =>
    cases s with
    | nil => simp
    | cons b s' =>
      intro c hc
      rw [replaceInvalid] at hc
      rcases List.mem_cons.1 hc with rfl | hc
      · exact leadChar_ne_zero (hs b (by simp)) s'
      · have hsub : ∀ x ∈ (strUtf8Decode (b :: s')).2, x ≠ 0 := fun x hx =>
          hs x (List.mem_cons_of_mem _ ((strUtf8Decode_suffix b s').subset hx))
        exact ih _ (hn ▸ strUtf8Decode_length b s') hsub rfl c hc

lemma zero_notMem_encode {cs : List Char} (h : ∀ c ∈ cs, c.toNat ≠ 0) : (0 : UInt8) ∉ encode cs := by
  unfold encode
  rw [List.mem_flatMap]
  rintro ⟨c, hc, hmem⟩
  exact zero_notMem_utf8EncodeChar (h c hc) hmem

/-- Valid text is encoded as it was. -/
lemma encode_replaceInvalid {s : List UInt8} (hs : ∀ b ∈ s, b ≠ 0) (h : strUtf8Check s = true) :
    encode (replaceInvalid s) = s := by
  induction hn : s.length using Nat.strong_induction_on generalizing s with
  | _ n ih =>
    cases s with
    | nil => rw [replaceInvalid, encode_nil]
    | cons b s' =>
      have hpair : strUtf8Decode (b :: s') =
          ((strUtf8Decode (b :: s')).1, (strUtf8Decode (b :: s')).2) := rfl
      rw [strUtf8Check] at h
      by_cases hzero : (strUtf8Decode (b :: s')).1 = 0
      · -- only the zero byte is decoded to 0
        obtain ⟨c, hc, -, henc⟩ := encode_of_strUtf8Decode hpair (by rw [hzero]; decide)
        have hc0 : c = 0 := by
          have h0 : (0 : ℤ) = c := hzero.symm.trans hc
          omega
        rw [hc0] at henc
        have hb : (0 : UInt8) = b := (List.cons_eq_cons.1 henc).1
        exact absurd hb.symm (hs b List.mem_cons_self)
      · rw [if_neg hzero] at h
        split_ifs at h with hinvalid
        obtain ⟨c, hc, hscalar, henc⟩ := encode_of_strUtf8Decode hpair hinvalid
        have hrest : ∀ x ∈ (strUtf8Decode (b :: s')).2, x ≠ 0 := fun x hx =>
          hs x (List.mem_cons_of_mem _ ((strUtf8Decode_suffix b s').subset hx))
        rw [replaceInvalid, encode_cons, ← strUtf8Encode_lead, if_neg hinvalid, hc, Int.toNat_natCast,
          ih _ (hn ▸ strUtf8Decode_length b s') hrest h rfl]
        exact henc

end Utf8

end DDNet
