/-
Valid texts as sequences of characters: the bytes of a character, and where a text may be cut.
-/
import DDNet.Base.Truncation

namespace DDNet

namespace Utf8

lemma encode_append (cs cs' : List Char) : encode (cs ++ cs') = encode cs ++ encode cs' := List.flatMap_append

lemma encode_injective {cs cs' : List Char} (h : encode cs = encode cs') : cs = cs' := by
  rw [← replaceInvalid_encode cs, h, replaceInvalid_encode]

lemma encode_singleton (c : Char) : encode [c] = String.utf8EncodeChar c := by
  rw [encode_cons, encode_nil, List.append_nil]

/-- An ASCII character is its own encoding, and the bytes of the other characters are no ASCII characters. -/
lemma utf8EncodeChar_cases (c : Char) :
    (c.toNat < 128 ∧ String.utf8EncodeChar c = [UInt8.ofNat c.toNat]) ∨
      (128 ≤ c.toNat ∧ ∀ b ∈ String.utf8EncodeChar c, 128 ≤ b) := by
  have hcont : ∀ x, (128 : UInt8) ≤ UInt8.ofNat (0x80 ||| (x &&& 0x3F)) := by
    intro x
    rw [UInt8.le_iff_toNat_le, continuation_byte]
    exact Nat.le_add_right 128 _
  have hlead : ∀ (b : UInt8) (k : ℕ), b.toNat = k → 128 ≤ k → (128 : UInt8) ≤ b := by
    rintro b _ rfl hk
    exact UInt8.le_iff_toNat_le.2 hk
  rw [← strUtf8Encode_toNat, strUtf8Encode]
  split_ifs with h1 h2 h3
  · exact .inl ⟨Nat.lt_succ_of_le h1, rfl⟩
  · refine .inr ⟨by omega, ?_⟩
    rw [List.forall_mem_cons, List.forall_mem_singleton]
    exact ⟨hlead _ _ (two_byte_lead _) (by omega), hcont _⟩
  · refine .inr ⟨by omega, ?_⟩
    rw [List.forall_mem_cons, List.forall_mem_cons, List.forall_mem_singleton]
    exact ⟨hlead _ _ (three_byte_lead _) (by omega), hcont _, hcont _⟩
  · refine .inr ⟨by omega, ?_⟩
    rw [List.forall_mem_cons, List.forall_mem_cons, List.forall_mem_cons, List.forall_mem_singleton]
    exact ⟨hlead _ _ (four_byte_lead _) (by omega), hcont _, hcont _, hcont _⟩
  · exact .inr ⟨by omega, fun b hb => absurd hb List.not_mem_nil⟩

/-- A character with an ASCII byte in its encoding is that byte. -/
lemma utf8EncodeChar_eq_of_mem {c : Char} {b : UInt8} (hb : b ∈ String.utf8EncodeChar c) (hascii : b < 128) :
    String.utf8EncodeChar c = [b] := by
  rcases utf8EncodeChar_cases c with ⟨-, heq⟩ | ⟨-, hhigh⟩
  · rw [heq] at hb ⊢
    rw [List.mem_singleton.1 hb]
  · exact absurd (hhigh b hb) (UInt8.not_le.2 hascii)

/-- At an ASCII character a text falls into two texts. -/
lemma encode_split {cs : List Char} {a b : List UInt8} {c : UInt8} (h : encode cs = a ++ c :: b) (hc : c < 128) :
    ∃ cs₁ d cs₂, cs = cs₁ ++ d :: cs₂ ∧ a = encode cs₁ ∧ String.utf8EncodeChar d = [c] ∧ b = encode cs₂ := by
  induction cs generalizing a with
  | nil => exact absurd h.symm (List.append_ne_nil_of_right_ne_nil a (List.cons_ne_nil c b))
  | cons d cs ih =>
    rw [encode_cons] at h
    rcases List.append_eq_append_iff.1 h with ⟨a', rfl, hrest⟩ | ⟨e, hd, hrest⟩
    · obtain ⟨cs₁, d', cs₂, rfl, rfl, hchar, rfl⟩ := ih hrest
      exact ⟨d :: cs₁, d', cs₂, rfl, (encode_cons d cs₁).symm, hchar, rfl⟩
    · cases e with
      | nil =>
        rw [List.append_nil] at hd
        rw [List.nil_append] at hrest
        obtain ⟨cs₁, d', cs₂, rfl, hnil, hchar, rfl⟩ := ih (a := []) hrest.symm
        have hcs₁ : cs₁ = [] := encode_injective (hnil ▸ encode_nil.symm)
        exact ⟨[d], d', cs₂, by rw [hcs₁]; rfl, by rw [encode_singleton, hd], hchar, rfl⟩
      | cons x e =>
        -- the ASCII character is in the encoding of the first one, which it is then
        obtain ⟨rfl, hb⟩ := List.cons.inj hrest
        have hchar := utf8EncodeChar_eq_of_mem (hd ▸ List.mem_append_right a List.mem_cons_self) hc
        have hlength := congrArg List.length (hchar.symm.trans hd)
        rw [List.length_singleton, List.length_append, List.length_cons] at hlength
        obtain rfl : a = [] := List.eq_nil_of_length_eq_zero (by omega)
        obtain rfl : e = [] := List.eq_nil_of_length_eq_zero (by omega)
        exact ⟨[], d, cs, rfl, rfl, hchar, hb⟩

/-! ### The longest part of a text that fits -/

/-- The longest part in front of a text that has at most `room` bytes and `count` characters. -/
def fitting : List Char → ℕ → ℕ → List Char
  | c :: cs, room, count + 1 =>
    if (String.utf8EncodeChar c).length ≤ room then
      c :: fitting cs (room - (String.utf8EncodeChar c).length) count
    else []
  | _, _, _ => []

@[simp] lemma fitting_nil (room count : ℕ) : fitting [] room count = [] := by
  cases count <;> rfl

@[simp] lemma fitting_zero (cs : List Char) (room : ℕ) : fitting cs room 0 = [] := by
  cases cs <;> rfl

lemma fitting_isPrefix (cs : List Char) (room count : ℕ) : fitting cs room count <+: cs := by
  fun_induction fitting cs room count with
  | case1 c cs room count hle ih => exact List.cons_prefix_cons.2 ⟨rfl, ih⟩
  | case2 => exact List.nil_prefix
  | case3 => exact List.nil_prefix

lemma length_fitting_le (cs : List Char) (room count : ℕ) :
    (encode (fitting cs room count)).length ≤ room ∧ (fitting cs room count).length ≤ count := by
  fun_induction fitting cs room count with
  | case1 c cs room count hle ih =>
    rw [encode_cons, List.length_append, List.length_cons]
    omega
  | case2 => exact ⟨Nat.zero_le _, Nat.zero_le _⟩
  | case3 => exact ⟨Nat.zero_le _, Nat.zero_le _⟩

/-- No longer part is allowed. -/
lemma isPrefix_fitting {p cs : List Char} {room count : ℕ} (hp : p <+: cs) (hroom : (encode p).length ≤ room)
    (hcount : p.length ≤ count) : p <+: fitting cs room count := by
  fun_induction fitting cs room count generalizing p with
  | case1 c cs room count hle ih =>
    rcases List.prefix_cons_iff.1 hp with rfl | ⟨p, rfl, htail⟩
    · exact List.nil_prefix
    · rw [encode_cons, List.length_append] at hroom
      rw [List.length_cons] at hcount
      exact List.cons_prefix_cons.2 ⟨rfl, ih htail (by omega) (by omega)⟩
  | case2 c cs room count hle =>
    rcases List.prefix_cons_iff.1 hp with rfl | ⟨p, rfl, -⟩
    · exact List.nil_prefix
    · rw [encode_cons, List.length_append] at hroom
      omega
  | case3 cs room count hnot =>
    cases p with
    | nil => exact List.nil_prefix
    | cons c p =>
      obtain ⟨cs, rfl⟩ : ∃ cs', cs = c :: cs' := by
        obtain ⟨t, rfl⟩ := hp
        exact ⟨p ++ t, rfl⟩
      cases count with
      | zero => exact absurd hcount (Nat.not_succ_le_zero _)
      | succ count => exact absurd rfl (hnot c cs count rfl)

/-- A part of the text that uses up the room is the longest one that is allowed. -/
lemma fitting_append (cs rest : List Char) {count : ℕ} (hcount : cs.length ≤ count) :
    fitting (cs ++ rest) (encode cs).length count = cs := by
  have hlong := isPrefix_fitting (List.prefix_append cs rest) le_rfl hcount
  have hle := (length_fitting_le (cs ++ rest) (encode cs).length count).1
  obtain ⟨t, ht⟩ := hlong
  rw [← ht, encode_append, List.length_append] at hle
  have hnil : encode t = [] := List.eq_nil_of_length_eq_zero (by omega)
  obtain rfl : t = [] := encode_injective hnil
  rw [← ht, List.append_nil]

lemma fitting_eq_self {cs : List Char} {room count : ℕ} (hroom : (encode cs).length ≤ room)
    (hcount : cs.length ≤ count) : fitting cs room count = cs :=
  (fitting_isPrefix cs room count).eq_of_length_le (isPrefix_fitting List.prefix_rfl hroom hcount).length_le

/-- The bytes in front of a text are the part that fits, and the start of the character behind it. -/
lemma take_encode (cs : List Char) (k : ℕ) :
    ∃ start, (encode cs).take k = encode (fitting cs k cs.length) ++ start ∧
      (start = [] ∨ ∃ c more, String.utf8EncodeChar c = start ++ more ∧ start ≠ [] ∧ more ≠ []) := by
  induction cs generalizing k with
  | nil => exact ⟨[], by simp, .inl rfl⟩
  | cons c cs ih =>
    rw [List.length_cons, fitting]
    by_cases hk : (String.utf8EncodeChar c).length ≤ k
    · obtain ⟨start, htake, hstart⟩ := ih (k - (String.utf8EncodeChar c).length)
      refine ⟨start, ?_, hstart⟩
      rw [if_pos hk, encode_cons, encode_cons, List.append_assoc, ← htake, List.take_append,
        List.take_of_length_le hk]
    · refine ⟨(String.utf8EncodeChar c).take k, ?_, ?_⟩
      · rw [if_neg hk, encode_cons, encode_nil, List.nil_append, List.take_append_of_le_length (by omega)]
      · by_cases hzero : k = 0
        · exact .inl (by rw [hzero, List.take_zero])
        · refine .inr ⟨c, (String.utf8EncodeChar c).drop k, (List.take_append_drop ..).symm, ?_, ?_⟩
          · simpa [utf8EncodeChar_ne_nil] using hzero
          · simpa using hk

/-- A text is cut behind the part that fits. -/
lemma strUtf8FixTruncation_take_eq (cs : List Char) (k : ℕ) :
    strUtf8FixTruncation ((encode cs).take k) = encode (fitting cs k cs.length) := by
  obtain ⟨start, htake, rfl | ⟨c, more, hc, hstart, hmore⟩⟩ := take_encode cs k
  · rw [htake, List.append_nil, strUtf8FixTruncation_encode]
  · rw [htake, strUtf8FixTruncation_append_start _ hc hstart hmore]

/-- What is kept of a valid text is valid. -/
lemma strUtf8FixTruncation_take (cs : List Char) (k : ℕ) :
    ∃ cs', cs' <+: cs ∧ strUtf8FixTruncation ((encode cs).take k) = encode cs' :=
  ⟨_, fitting_isPrefix cs k cs.length, strUtf8FixTruncation_take_eq cs k⟩

end Utf8

end DDNet
