/-
The base64 codec of `base/system.cpp`.

`str_base64` takes six bits at a time from an accumulator that is filled with one byte whenever less than six bits are
left; what it writes is the encoding by groups of three bytes (`outputs_base64`), as far as it fits.  `str_base64_decode`
accepts exactly these encodings (`strBase64Decode_spec`).
-/
import DDNet.Base.Memory
import DDNet.Base.Str

namespace DDNet

namespace Base64

/-- The padding character. -/
def padding : UInt8 := 61

/-- `DIGITS`. -/
def digits : List UInt8 := ofChars "ABCDEFGHIJKLMNOPQRSTUVWXYZabcdefghijklmnopqrstuvwxyz0123456789+/".toList

/-- A character of `DIGITS`. -/
def digit (n : ℕ) : UInt8 := digits.getD n 0

/-! ### Encoding -/

/-- The variables of the loop of `str_base64`: the accumulator and its number of bits, the rest of the data, and the
position in the destination. -/
structure State where
  value : ℕ
  numBits : ℤ
  data : List UInt8
  o : ℕ

/-- The next byte is read if less than six bits are left. -/
def State.fill (s : State) : State :=
  match s.data with
  | [] => s
  | d :: data =>
    if s.numBits < 6 then
      { s with value := (s.value <<< 8) % 2 ^ 32 ||| d.toNat, numBits := s.numBits + 8, data := data }
    else s

/-- The next character and the state behind it; `none` at the end. -/
def State.emit (s : State) : Option (UInt8 × State) :=
  if s.numBits > 0 then
    let padded :=
      if s.numBits ≥ 6 then (s.value >>> (s.numBits - 6).toNat) &&& 0x3f
      else ((s.value <<< (6 - s.numBits).toNat) % 2 ^ 32) &&& 0x3f
    some (digit padded, { s with numBits := s.numBits - 6, o := s.o + 1 })
  else if s.o % 4 ≠ 0 then some (padding, { s with o := s.o + 1 })
  else none

/-- The loop of `str_base64`, and how many bytes of the destination are left. -/
def strBase64Loop : ℕ → State → List UInt8 → Option (List UInt8)
  | 0, _, dst => some dst
  | room + 1, s, dst =>
    match s.fill.emit with
    | some (c, s') => (writeBytes dst s.o [c]).bind (strBase64Loop room s')
    | none => writeBytes dst s.o [0]

/-- `str_base64`. -/
def strBase64 (dst : List UInt8) (dstSize : ℕ) (data : List UInt8) : Option (List UInt8) :=
  (writeBytes dst (dstSize - 1) [0]).bind (strBase64Loop (dstSize - 1) ⟨0, 0, data, 0⟩)

/-! ### Decoding -/

/-- `base64_digit_value`; `none` for -1. -/
def base64DigitValue (c : UInt8) : Option ℕ :=
  if 65 ≤ c.toNat ∧ c.toNat ≤ 90 then some (c.toNat - 65)
  else if 97 ≤ c.toNat ∧ c.toNat ≤ 122 then some (c.toNat - 97 + 26)
  else if 48 ≤ c.toNat ∧ c.toNat ≤ 57 then some (c.toNat - 48 + 52)
  else if c.toNat = 43 then some 62
  else if c.toNat = 47 then some 63
  else none

/-- A byte of the value of a group. -/
def byteValue (value b : ℕ) : UInt8 := UInt8.ofNat ((value >>> (16 - 8 * b)) &&& 0xff)

/-- The loop over the bytes of a group: whether the padding is zeroed, the position in the destination, and the
destination. -/
def groupBytes (value numOutputBytes : ℕ) : List ℕ → ℕ → List UInt8 → Option (Bool × ℕ × List UInt8)
  | [], o, dst => some (true, o, dst)
  | b :: bs, o, dst =>
    if b < numOutputBytes then
      (writeBytes dst o [byteValue value b]).bind (groupBytes value numOutputBytes bs (o + 1))
    else if byteValue value b ≠ 0 then some (false, o, dst)
    else groupBytes value numOutputBytes bs o dst

/-- The characters of a group that are decoded, and how many bytes they stand for. -/
def unpad (isLast : Bool) (c2 c3 : UInt8) : UInt8 × UInt8 × ℕ :=
  if isLast && c3 == padding then
    if c2 == padding then (65, 65, 1) else (c2, 65, 2)
  else (c2, c3, 3)

/-- The loop of `str_base64_decode`: the rest of the data and the position in the destination. -/
def strBase64DecodeLoop : List UInt8 → ℕ → List UInt8 → Option (ℤ × List UInt8)
  | c0 :: c1 :: c2 :: c3 :: data, o, dst =>
    let copy := unpad data.isEmpty c2 c3
    match base64DigitValue c0, base64DigitValue c1, base64DigitValue copy.1, base64DigitValue copy.2.1 with
    | some d0, some d1, some d2, some d3 =>
      let value := (d0 <<< 18) ||| (d1 <<< 12) ||| (d2 <<< 6) ||| d3
      (groupBytes value copy.2.2 [0, 1, 2] o dst).bind fun (zeroed, o, dst) =>
        -- padding that is not zeroed is an error
        if zeroed then strBase64DecodeLoop data o dst else some (-2, dst)
    | _, _, _, _ => some (-1, dst)
  | _, o, dst => some (o, dst)

/-- `str_base64_decode`: what is returned, and the destination. -/
def strBase64Decode (dst : List UInt8) (dstSize : ℕ) (data : List UInt8) : Option (ℤ × List UInt8) :=
  if data.length % 4 ≠ 0 then some (-3, dst)
  else if data.length / 4 * 3 > dstSize then some (-2, dst)
  else strBase64DecodeLoop data 0 dst

/-! ### The encoding by groups of three bytes -/

/-- The four characters of a group of three bytes. -/
def group (a b c : ℕ) : List UInt8 :=
  [digit (a / 4), digit (a % 4 * 16 + b / 16), digit (b % 16 * 4 + c / 64), digit (c % 64)]

/-- The canonical base64 encoding, with padding. -/
def base64 : List UInt8 → List UInt8
  | a :: b :: c :: data => group a.toNat b.toNat c.toNat ++ base64 data
  | [a, b] => (group a.toNat b.toNat 0).take 3 ++ [padding]
  | [a] => (group a.toNat 0 0).take 2 ++ [padding, padding]
  | [] => []

example : base64 [109, 113, 116, 116] = ofChars "bXF0dA==".toList := by decide

/-- The characters that are written from a state on. -/
inductive Outputs : State → List UInt8 → Prop
  | nil {s : State} (h : s.fill.emit = none) : Outputs s []
  | cons {s s' : State} {c : UInt8} {cs : List UInt8} (h : s.fill.emit = some (c, s')) (hrest : Outputs s' cs) :
    Outputs s (c :: cs)

/-! ### What is written -/

variable {o k : ℕ} {d : UInt8} {data : List UInt8}

lemma fill_value (v : ℕ) (d : UInt8) : (v <<< 8) % 2 ^ 32 ||| d.toNat = v % 2 ^ 24 * 256 + d.toNat := by
  have hshift : (v <<< 8) % 2 ^ 32 = (v % 2 ^ 24) <<< 8 := by
    rw [Nat.shiftLeft_eq, Nat.shiftLeft_eq]
    omega
  rw [hshift, ← Nat.shiftLeft_add_eq_or_of_lt d.toNat_lt, Nat.shiftLeft_eq]

lemma and_sixBits (n : ℕ) : n &&& 0x3f = n % 64 := Nat.and_two_pow_sub_one_eq_mod n 6

/-- A byte is read and six bits are written. -/
lemma emit_fill (v : ℕ) (hk : k < 6) (d : UInt8) (data : List UInt8) (o : ℕ) :
    (State.mk v k (d :: data) o).fill.emit =
      some (digit ((v % 2 ^ 24 * 256 + d.toNat) / 2 ^ (k + 2) % 64),
        ⟨v % 2 ^ 24 * 256 + d.toNat, (k + 2 : ℕ), data, o + 1⟩) := by
  have hless : (k : ℤ) < 6 := by omega
  have hfill : (State.mk v k (d :: data) o).fill = ⟨v % 2 ^ 24 * 256 + d.toNat, (k : ℤ) + 8, data, o⟩ := by
    rw [State.fill]
    dsimp only
    rw [if_pos hless, fill_value]
  have hbits : (k : ℤ) + 8 - 6 = ((k + 2 : ℕ) : ℤ) := by omega
  rw [hfill, State.emit]
  dsimp only
  rw [if_pos (by omega), if_pos (by omega), hbits, Int.toNat_natCast, Nat.shiftRight_eq_div_pow, and_sixBits]

/-- Six bits that are left are written. -/
lemma emit_six (v : ℕ) (data : List UInt8) (o : ℕ) :
    (State.mk v (6 : ℕ) data o).fill.emit = some (digit (v % 64), ⟨v, (0 : ℕ), data, o + 1⟩) := by
  have hfill : (State.mk v (6 : ℕ) data o).fill = State.mk v (6 : ℕ) data o := by
    cases data <;> rfl
  rw [hfill, State.emit]
  dsimp only
  rw [if_pos (by decide), if_pos (by decide), and_sixBits]
  rfl

/-- Less than six bits at the end are filled up with zeros. -/
lemma emit_few (v : ℕ) (hpos : 0 < k) (hk : k < 6) (o : ℕ) :
    (State.mk v k [] o).fill.emit =
      some (digit (v * 2 ^ (6 - k) % 64), ⟨v, (k : ℤ) - 6, [], o + 1⟩) := by
  have hbits : (6 - (k : ℤ)).toNat = 6 - k := by omega
  rw [State.fill, State.emit]
  dsimp only
  rw [if_pos (by omega), if_neg (by omega), hbits, Nat.shiftLeft_eq, and_sixBits]
  congr 3
  omega

lemma emit_padding {v : ℕ} {bits : ℤ} (hbits : bits ≤ 0) (ho : o % 4 ≠ 0) :
    (State.mk v bits [] o).fill.emit = some (padding, ⟨v, bits, [], o + 1⟩) := by
  rw [State.fill, State.emit]
  dsimp only
  rw [if_neg (by omega), if_pos ho]

lemma emit_end {v : ℕ} {bits : ℤ} (hbits : bits ≤ 0) (ho : o % 4 = 0) : (State.mk v bits [] o).fill.emit = none := by
  rw [State.fill, State.emit]
  dsimp only
  rw [if_neg (by omega), if_neg (not_not.2 ho)]

/-- From the start of a group on, the encoding of the rest of the data is written. -/
lemma outputs_base64 (data : List UInt8) (v : ℕ) (ho : o % 4 = 0) : Outputs ⟨v, (0 : ℕ), data, o⟩ (base64 data) := by
  fun_induction base64 data generalizing v o with
  | case1 a b c data ih =>
    have ha := a.toNat_lt
    have hb := b.toNat_lt
    have hc := c.toNat_lt
    have hfirst := emit_fill v (Nat.zero_lt_succ 5) a (b :: c :: data) o
    obtain ⟨v₁, hv₁⟩ : ∃ v₁, v₁ = v % 2 ^ 24 * 256 + a.toNat := ⟨_, rfl⟩
    have hsecond := emit_fill v₁ (by decide : 0 + 2 < 6) b (c :: data) (o + 1)
    obtain ⟨v₂, hv₂⟩ : ∃ v₂, v₂ = v₁ % 2 ^ 24 * 256 + b.toNat := ⟨_, rfl⟩
    have hthird := emit_fill v₂ (by decide : 0 + 2 + 2 < 6) c data (o + 1 + 1)
    obtain ⟨v₃, hv₃⟩ : ∃ v₃, v₃ = v₂ % 2 ^ 24 * 256 + c.toNat := ⟨_, rfl⟩
    rw [← hv₁, show v₁ / 2 ^ (0 + 2) % 64 = a.toNat / 4 by omega] at hfirst
    rw [← hv₂, show v₂ / 2 ^ (0 + 2 + 2) % 64 = a.toNat % 4 * 16 + b.toNat / 16 by omega] at hsecond
    rw [← hv₃, show v₃ / 2 ^ (0 + 2 + 2 + 2) % 64 = b.toNat % 16 * 4 + c.toNat / 64 by omega] at hthird
    have hfourth := emit_six v₃ data (o + 1 + 1 + 1)
    rw [show v₃ % 64 = c.toNat % 64 by omega] at hfourth
    exact .cons hfirst (.cons hsecond (.cons hthird (.cons hfourth (ih v₃ (by omega)))))
  | case2 a b =>
    have ha := a.toNat_lt
    have hb := b.toNat_lt
    have hfirst := emit_fill v (Nat.zero_lt_succ 5) a [b] o
    obtain ⟨v₁, hv₁⟩ : ∃ v₁, v₁ = v % 2 ^ 24 * 256 + a.toNat := ⟨_, rfl⟩
    have hsecond := emit_fill v₁ (by decide : 0 + 2 < 6) b [] (o + 1)
    obtain ⟨v₂, hv₂⟩ : ∃ v₂, v₂ = v₁ % 2 ^ 24 * 256 + b.toNat := ⟨_, rfl⟩
    have hthird := emit_few v₂ (by decide : 0 < 0 + 2 + 2) (by decide) (o + 1 + 1)
    rw [← hv₁, show v₁ / 2 ^ (0 + 2) % 64 = a.toNat / 4 by omega] at hfirst
    rw [← hv₂, show v₂ / 2 ^ (0 + 2 + 2) % 64 = a.toNat % 4 * 16 + b.toNat / 16 by omega] at hsecond
    rw [show v₂ * 2 ^ (6 - (0 + 2 + 2)) % 64 = b.toNat % 16 * 4 + 0 / 64 by omega] at hthird
    refine .cons hfirst (.cons hsecond (.cons hthird (.cons (emit_padding (by decide) (by omega)) (.nil ?_))))
    exact emit_end (by decide) (by omega)
  | case3 a =>
    have ha := a.toNat_lt
    have hfirst := emit_fill v (Nat.zero_lt_succ 5) a [] o
    obtain ⟨v₁, hv₁⟩ : ∃ v₁, v₁ = v % 2 ^ 24 * 256 + a.toNat := ⟨_, rfl⟩
    have hsecond := emit_few v₁ (by decide : 0 < 0 + 2) (by decide) (o + 1)
    rw [← hv₁, show v₁ / 2 ^ (0 + 2) % 64 = a.toNat / 4 by omega] at hfirst
    rw [show v₁ * 2 ^ (6 - (0 + 2)) % 64 = a.toNat % 4 * 16 + 0 / 16 by omega] at hsecond
    refine .cons hfirst (.cons hsecond (.cons (emit_padding (by decide) (by omega))
      (.cons (emit_padding (by decide) (by omega)) (.nil ?_))))
    exact emit_end (by decide) (by omega)
  | case4 => exact .nil (emit_end le_rfl ho)

lemma o_of_emit {s s' : State} {c : UInt8} (h : s.fill.emit = some (c, s')) : s'.o = s.o + 1 := by
  have hfill : s.fill.o = s.o := by
    rw [State.fill]
    split
    · rfl
    · split_ifs
      · rfl
      · rfl
  rw [State.emit] at h
  by_cases hbits : s.fill.numBits > 0
  · rw [if_pos hbits] at h
    obtain ⟨-, rfl⟩ := Prod.mk.inj (Option.some.inj h)
    exact congrArg (· + 1) hfill
  · rw [if_neg hbits] at h
    by_cases hpadded : s.fill.o % 4 ≠ 0
    · rw [if_pos hpadded] at h
      obtain ⟨-, rfl⟩ := Prod.mk.inj (Option.some.inj h)
      exact congrArg (· + 1) hfill
    · rw [if_neg hpadded] at h
      cases h

/-- What is put out is written as far as there is room, and a zero is behind it. -/
lemma strBase64Loop_spec {s : State} {cs : List UInt8} (h : Outputs s cs) {written tail : List UInt8}
    (ho : written.length = s.o) (behind : List UInt8) :
    ∃ garbage, strBase64Loop tail.length s (written ++ (tail ++ 0 :: behind)) =
        some (written ++ (cs.take tail.length ++ 0 :: (garbage ++ behind))) ∧
      (cs.take tail.length).length + garbage.length = tail.length := by
  induction tail generalizing s cs written with
  | nil => exact ⟨[], rfl, rfl⟩
  | cons t tail ih =>
    rw [List.length_cons, strBase64Loop]
    cases h with
    | nil hend =>
      refine ⟨tail ++ [0], ?_, ?_⟩
      · rw [hend]
        dsimp only
        rw [← ho, List.cons_append, writeBytes_zero]
        simp only [List.take_nil, List.nil_append, List.append_assoc, List.cons_append]
      · rw [List.take_nil, List.length_nil, Nat.zero_add, List.length_append, List.length_singleton]
    | @cons _ s' c cs hemit hrest =>
      have hwrite := @writeBytes_replace written (tail ++ 0 :: behind) [c] [t] rfl
      obtain ⟨garbage, hloop, hlength⟩ := @ih s' cs hrest (written ++ [c]) (by
        rw [o_of_emit hemit, List.length_append, ho, List.length_singleton])
      refine ⟨garbage, ?_, ?_⟩
      · rw [hemit]
        dsimp only
        rw [List.append_assoc] at hloop
        rw [← ho, List.cons_append, ← List.singleton_append, hwrite, Option.bind_some, hloop, List.take_succ_cons]
        simp only [List.append_assoc, List.cons_append, List.nil_append]
      · rw [List.take_succ_cons, List.length_cons]
        omega

/-- What is written by `str_base64` is what fits of the encoding, and a zero. -/
theorem strBase64_spec {dst : List UInt8} (hdst : dst ≠ []) (data behind : List UInt8) :
    ∃ garbage, strBase64 (dst ++ behind) dst.length data =
        some ((base64 data).take (dst.length - 1) ++ 0 :: (garbage ++ behind)) ∧
      ((base64 data).take (dst.length - 1)).length + 1 + garbage.length = dst.length := by
  obtain ⟨tail, last, rfl⟩ : ∃ tail last, dst = tail ++ [last] :=
    ⟨_, _, (List.dropLast_append_getLast hdst).symm⟩
  have hroom : (tail ++ [last]).length - 1 = tail.length := by
    rw [List.length_append, List.length_singleton, Nat.add_sub_cancel]
  have hwrite := writeBytes_zero tail last behind
  obtain ⟨garbage, hloop, hlength⟩ :=
    @strBase64Loop_spec _ _ (outputs_base64 data 0 (Nat.zero_mod 4)) [] tail rfl behind
  rw [hroom]
  refine ⟨garbage, ?_, ?_⟩
  · rw [strBase64, hroom, List.append_assoc, List.singleton_append, hwrite, Option.bind_some]
    exact hloop
  · rw [List.length_append, List.length_singleton]
    omega

/-! ### Digits -/

lemma base64DigitValue_digit : ∀ n < 64, base64DigitValue (digit n) = some n := by decide +kernel

lemma digit_of_value {c : UInt8} {n : ℕ} (h : base64DigitValue c = some n) : n < 64 ∧ digit n = c := by
  have hall : ∀ k < 256, ∀ n ∈ base64DigitValue (UInt8.ofNat k), n < 64 ∧ digit n = UInt8.ofNat k := by decide +kernel
  have hc := hall c.toNat c.toNat_lt n (by rwa [UInt8.ofNat_toNat])
  rwa [UInt8.ofNat_toNat] at hc

lemma base64DigitValue_padding : base64DigitValue padding = none := rfl

lemma digit_ne_padding {n : ℕ} (hn : n < 64) : digit n ≠ padding := by
  intro h
  have hvalue := base64DigitValue_digit n hn
  rw [h, base64DigitValue_padding] at hvalue
  exact nomatch hvalue

lemma padded_two (a b : ℕ) : (group a b 0).take 3 ++ [padding] =
    [digit (a / 4), digit (a % 4 * 16 + b / 16), digit (b % 16 * 4 + 0 / 64), padding] := rfl

lemma padded_one (a : ℕ) : (group a 0 0).take 2 ++ [padding, padding] =
    [digit (a / 4), digit (a % 4 * 16 + 0 / 16), padding, padding] := rfl

/-- The value of four digits, and its bytes. -/
lemma byteValue_group {d0 d1 d2 d3 : ℕ} (h0 : d0 < 64) (h1 : d1 < 64) (h2 : d2 < 64) (h3 : d3 < 64) :
    let value := (d0 <<< 18) ||| (d1 <<< 12) ||| (d2 <<< 6) ||| d3
    byteValue value 0 = UInt8.ofNat (d0 * 4 + d1 / 16) ∧ byteValue value 1 = UInt8.ofNat (d1 % 16 * 16 + d2 / 4) ∧
      byteValue value 2 = UInt8.ofNat (d2 % 4 * 64 + d3) := by
  have hvalue : (d0 <<< 18) ||| (d1 <<< 12) ||| (d2 <<< 6) ||| d3 = d0 * 2 ^ 18 + d1 * 2 ^ 12 + d2 * 2 ^ 6 + d3 := by
    have hfirst : (d0 <<< 18) ||| (d1 <<< 12) = (d0 * 2 ^ 6 + d1) <<< 12 := by
      rw [show d0 <<< 18 = (d0 <<< 6) <<< 12 by rw [← Nat.shiftLeft_add], ← Nat.shiftLeft_or_distrib,
        ← Nat.shiftLeft_add_eq_or_of_lt (show d1 < 2 ^ 6 from h1), Nat.shiftLeft_eq d0]
    have hsecond : (d0 * 2 ^ 6 + d1) <<< 12 ||| (d2 <<< 6) = ((d0 * 2 ^ 6 + d1) * 2 ^ 6 + d2) <<< 6 := by
      rw [show (d0 * 2 ^ 6 + d1) <<< 12 = ((d0 * 2 ^ 6 + d1) <<< 6) <<< 6 by rw [← Nat.shiftLeft_add],
        ← Nat.shiftLeft_or_distrib, ← Nat.shiftLeft_add_eq_or_of_lt (show d2 < 2 ^ 6 from h2),
        Nat.shiftLeft_eq (d0 * 2 ^ 6 + d1)]
    rw [hfirst, hsecond, ← Nat.shiftLeft_add_eq_or_of_lt (show d3 < 2 ^ 6 from h3), Nat.shiftLeft_eq]
    omega
  have hbyte : ∀ n m : ℕ, n % 256 = m % 256 → UInt8.ofNat (n &&& 0xff) = UInt8.ofNat m := by
    intro n m h
    refine UInt8.toNat_inj.1 ?_
    rw [Lib.toNat_ofNat_and, UInt8.toNat_ofNat']
    exact h
  dsimp only
  rw [hvalue]
  refine ⟨hbyte _ _ ?_, hbyte _ _ ?_, hbyte _ _ ?_⟩
  · rw [Nat.shiftRight_eq_div_pow]
    omega
  · rw [Nat.shiftRight_eq_div_pow]
    omega
  · rw [Nat.shiftRight_eq_div_pow]
    omega

/-! ### Groups -/

lemma groupBytes_write {value num b : ℕ} (hb : b < num) (bs : List ℕ) (written : List UInt8) (x : UInt8)
    (tail : List UInt8) :
    groupBytes value num (b :: bs) written.length (written ++ x :: tail) =
      groupBytes value num bs (written ++ [byteValue value b]).length ((written ++ [byteValue value b]) ++ tail) := by
  have hwrite := @writeBytes_replace written tail [byteValue value b] [x] rfl
  rw [groupBytes, if_pos hb, ← List.singleton_append, hwrite, Option.bind_some, List.length_append,
    List.length_singleton, List.append_assoc]

/-- The bytes of a group behind those that are written have to be zero. -/
lemma groupBytes_skip {value num b : ℕ} (hb : ¬b < num) (bs : List ℕ) (o : ℕ) (dst : List UInt8) :
    groupBytes value num (b :: bs) o dst =
      if byteValue value b ≠ 0 then some (false, o, dst) else groupBytes value num bs o dst := by
  rw [groupBytes, if_neg hb]

/-- An encoding that is not empty starts with a group. -/
lemma base64_eq_cons {x rest : List UInt8} {c0 c1 c2 c3 : UInt8} (h : base64 x = c0 :: c1 :: c2 :: c3 :: rest) :
    (∃ a b c x', x = a :: b :: c :: x' ∧ [c0, c1, c2, c3] = group a.toNat b.toNat c.toNat ∧ base64 x' = rest) ∨
    (∃ a b, x = [a, b] ∧ [c0, c1, c2, c3] = (group a.toNat b.toNat 0).take 3 ++ [padding] ∧ rest = []) ∨
    (∃ a, x = [a] ∧ [c0, c1, c2, c3] = (group a.toNat 0 0).take 2 ++ [padding, padding] ∧ rest = []) := by
  have hfour : ∀ {a b c d : UInt8} {r : List UInt8}, a :: b :: c :: d :: r = c0 :: c1 :: c2 :: c3 :: rest →
      [c0, c1, c2, c3] = [a, b, c, d] ∧ r = rest := by
    rintro a b c d r ⟨⟩
    exact ⟨rfl, rfl⟩
  rcases x with _ | ⟨a, _ | ⟨b, _ | ⟨c, x⟩⟩⟩
  · exact nomatch h
  · obtain ⟨hgroup, hrest⟩ := hfour h
    exact .inr (.inr ⟨a, rfl, hgroup, hrest.symm⟩)
  · obtain ⟨hgroup, hrest⟩ := hfour h
    exact .inr (.inl ⟨a, b, rfl, hgroup, hrest.symm⟩)
  · obtain ⟨hgroup, hrest⟩ := hfour h
    exact .inl ⟨a, b, c, x, rfl, hgroup, hrest⟩

/-- Four digits make a group of the bytes of their value. -/
lemma group_of_values {c0 c1 c2 c3 : UInt8} {d0 d1 d2 d3 : ℕ} (h0 : base64DigitValue c0 = some d0)
    (h1 : base64DigitValue c1 = some d1) (h2 : base64DigitValue c2 = some d2) (h3 : base64DigitValue c3 = some d3) :
    let value := (d0 <<< 18) ||| (d1 <<< 12) ||| (d2 <<< 6) ||| d3
    group (byteValue value 0).toNat (byteValue value 1).toNat (byteValue value 2).toNat = [c0, c1, c2, c3] := by
  obtain ⟨hd0, rfl⟩ := digit_of_value h0
  obtain ⟨hd1, rfl⟩ := digit_of_value h1
  obtain ⟨hd2, rfl⟩ := digit_of_value h2
  obtain ⟨hd3, rfl⟩ := digit_of_value h3
  obtain ⟨hb0, hb1, hb2⟩ := byteValue_group hd0 hd1 hd2 hd3
  dsimp only
  rw [hb0, hb1, hb2, Lib.toNat_ofNat_of_lt (by omega), Lib.toNat_ofNat_of_lt (by omega),
    Lib.toNat_ofNat_of_lt (by omega), group, show (d0 * 4 + d1 / 16) / 4 = d0 by omega,
    show (d0 * 4 + d1 / 16) % 4 * 16 + (d1 % 16 * 16 + d2 / 4) / 16 = d1 by omega,
    show (d1 % 16 * 16 + d2 / 4) % 16 * 4 + (d2 % 4 * 64 + d3) / 64 = d2 by omega,
    show (d2 % 4 * 64 + d3) % 64 = d3 by omega]

/-- The characters of a group are digits. -/
lemma values_of_group {a b c : ℕ} (ha : a < 256) (hb : b < 256) (hc : c < 256) {c0 c1 c2 c3 : UInt8}
    (h : [c0, c1, c2, c3] = group a b c) :
    base64DigitValue c0 = some (a / 4) ∧ base64DigitValue c1 = some (a % 4 * 16 + b / 16) ∧
      base64DigitValue c2 = some (b % 16 * 4 + c / 64) ∧ base64DigitValue c3 = some (c % 64) := by
  simp only [group, List.cons.injEq, and_true] at h
  obtain ⟨rfl, rfl, rfl, rfl⟩ := h
  exact ⟨base64DigitValue_digit _ (by omega), base64DigitValue_digit _ (by omega),
    base64DigitValue_digit _ (by omega), base64DigitValue_digit _ (by omega)⟩

lemma group_injective {a b c a' b' c' : UInt8} (h : group a.toNat b.toNat c.toNat = group a'.toNat b'.toNat c'.toNat) :
    a = a' ∧ b = b' ∧ c = c' := by
  have ha := a.toNat_lt
  have hb := b.toNat_lt
  have hc := c.toNat_lt
  have ha' := a'.toNat_lt
  have hb' := b'.toNat_lt
  have hc' := c'.toNat_lt
  obtain ⟨h0, h1, h2, h3⟩ := values_of_group ha' hb' hc' h
  obtain ⟨hd0, hd1, hd2, hd3⟩ := values_of_group ha hb hc rfl
  have e0 := Option.some.inj (hd0.symm.trans h0)
  have e1 := Option.some.inj (hd1.symm.trans h1)
  have e2 := Option.some.inj (hd2.symm.trans h2)
  have e3 := Option.some.inj (hd3.symm.trans h3)
  exact ⟨UInt8.toNat_inj.1 (by omega), UInt8.toNat_inj.1 (by omega), UInt8.toNat_inj.1 (by omega)⟩

/-! ### The last group -/

lemma unpad_three (isLast : Bool) (c2 : UInt8) {c3 : UInt8} (hc3 : c3 ≠ padding) : unpad isLast c2 c3 = (c2, c3, 3) := by
  rw [unpad, beq_eq_false_iff_ne.2 hc3, Bool.and_false]
  rfl

lemma unpad_two {c2 : UInt8} (hc2 : c2 ≠ padding) : unpad true c2 padding = (c2, 65, 2) := by
  rw [unpad, beq_eq_false_iff_ne.2 hc2]
  rfl

lemma unpad_one : unpad true padding padding = (65, 65, 1) := rfl

/-- The bytes of the last group that are not written are zero. -/
def Zeroed (num : ℕ) (b c : UInt8) : Prop := (num ≤ 2 → c = 0) ∧ (num ≤ 1 → b = 0)

instance (num : ℕ) (b c : UInt8) : Decidable (Zeroed num b c) := inferInstanceAs (Decidable (_ ∧ _))

/-- The last group without its padding is the one of the last bytes and zeros. -/
lemma group_of_base64_last {x : List UInt8} {c0 c1 c2 c3 e2 e3 : UInt8} {num : ℕ}
    (hunpad : unpad true c2 c3 = (e2, e3, num)) (hx : base64 x = [c0, c1, c2, c3]) :
    ∃ a b c : UInt8, group a.toNat b.toNat c.toNat = [c0, c1, e2, e3] ∧ Zeroed num b c := by
  rcases base64_eq_cons hx with ⟨a, b, c, x, -, hgroup, -⟩ | ⟨a, b, -, hgroup, -⟩ | ⟨a, -, hgroup, -⟩
  · have hvalue := (values_of_group a.toNat_lt b.toNat_lt c.toNat_lt hgroup).2.2.2
    have hc3 : c3 ≠ padding := by
      rintro rfl
      exact nomatch base64DigitValue_padding.symm.trans hvalue
    obtain ⟨rfl, hrest⟩ := Prod.mk.inj ((unpad_three true c2 hc3).symm.trans hunpad)
    obtain ⟨rfl, rfl⟩ := Prod.mk.inj hrest
    exact ⟨a, b, c, hgroup.symm, fun h => absurd h (by decide), fun h => absurd h (by decide)⟩
  · rw [padded_two] at hgroup
    simp only [List.cons.injEq,
      and_true] at hgroup
    obtain ⟨h0, h1, rfl, rfl⟩ := hgroup
    have hb := b.toNat_lt
    obtain ⟨rfl, hrest⟩ := Prod.mk.inj ((unpad_two (digit_ne_padding (by omega))).symm.trans hunpad)
    obtain ⟨rfl, rfl⟩ := Prod.mk.inj hrest
    exact ⟨a, b, 0, by rw [group, h0, h1]; rfl, fun _ => rfl, fun h => absurd h (by decide)⟩
  · rw [padded_one] at hgroup
    simp only [List.cons.injEq,
      and_true] at hgroup
    obtain ⟨h0, h1, rfl, rfl⟩ := hgroup
    obtain ⟨rfl, hrest⟩ := Prod.mk.inj (unpad_one.symm.trans hunpad)
    obtain ⟨rfl, rfl⟩ := Prod.mk.inj hrest
    exact ⟨a, 0, 0, by rw [group, h0, h1]; rfl, fun _ => rfl, fun _ => rfl⟩

lemma base64_last_of_group {a b c : UInt8} {c0 c1 c2 c3 e2 e3 : UInt8} {num : ℕ}
    (hunpad : unpad true c2 c3 = (e2, e3, num)) (hgroup : group a.toNat b.toNat c.toNat = [c0, c1, e2, e3])
    (hzeroed : Zeroed num b c) : base64 ([a, b, c].take num) = [c0, c1, c2, c3] := by
  by_cases hc3 : c3 = padding
  · subst hc3
    by_cases hc2 : c2 = padding
    · subst hc2
      obtain ⟨rfl, hrest⟩ := Prod.mk.inj (unpad_one.symm.trans hunpad)
      obtain ⟨rfl, rfl⟩ := Prod.mk.inj hrest
      obtain rfl := hzeroed.2 le_rfl
      simp only [group, List.cons.injEq, and_true] at hgroup
      rw [← hgroup.1, ← hgroup.2.1]
      rfl
    · obtain ⟨rfl, hrest⟩ := Prod.mk.inj ((unpad_two hc2).symm.trans hunpad)
      obtain ⟨rfl, rfl⟩ := Prod.mk.inj hrest
      obtain rfl := hzeroed.1 le_rfl
      simp only [group, List.cons.injEq, and_true] at hgroup
      rw [← hgroup.1, ← hgroup.2.1, ← hgroup.2.2.1]
      rfl
  · obtain ⟨rfl, hrest⟩ := Prod.mk.inj ((unpad_three true c2 hc3).symm.trans hunpad)
    obtain ⟨rfl, rfl⟩ := Prod.mk.inj hrest
    rw [List.take_succ_cons, List.take_succ_cons, List.take_succ_cons, base64, hgroup]
    rfl

lemma num_of_unpad (isLast : Bool) (c2 c3 : UInt8) : 1 ≤ (unpad isLast c2 c3).2.2 ∧ (unpad isLast c2 c3).2.2 ≤ 3 := by
  rw [unpad]
  split_ifs <;> simp

/-- The bytes of a group are written, and the others are checked. -/
lemma groupBytes_spec (value : ℕ) {num : ℕ} (hpos : 1 ≤ num) (hle : num ≤ 3) (written : List UInt8) (x0 x1 x2 : UInt8)
    (tail : List UInt8) :
    groupBytes value num [0, 1, 2] written.length (written ++ x0 :: x1 :: x2 :: tail) =
      some (decide (Zeroed num (byteValue value 1) (byteValue value 2)), written.length + num,
        written ++ ([byteValue value 0, byteValue value 1, byteValue value 2].take num ++
          (x0 :: x1 :: x2 :: tail).drop num)) := by
  have hlength : ∀ (w : List UInt8) (x : UInt8), (w ++ [x]).length = w.length + 1 := fun w x => by
    rw [List.length_append, List.length_singleton]
  rw [groupBytes_write (by omega)]
  obtain rfl | rfl | rfl : num = 1 ∨ num = 2 ∨ num = 3 := by omega
  · rw [groupBytes_skip (by decide), groupBytes_skip (by decide), groupBytes, hlength]
    by_cases h1 : byteValue value 1 = 0
    · by_cases h2 : byteValue value 2 = 0
      · simp [Zeroed, h1, h2]
      · simp [Zeroed, h1, h2]
    · simp [Zeroed, h1]
  · rw [groupBytes_write (by decide), groupBytes_skip (by decide), groupBytes, hlength, hlength]
    by_cases h2 : byteValue value 2 = 0
    · simp [Zeroed, h2]
    · simp [Zeroed, h2]
  · rw [groupBytes_write (by decide), groupBytes_write (by decide), groupBytes, hlength, hlength, hlength]
    simp [Zeroed]

/-! ### What is decoded -/

/-- What the loop of `str_base64_decode` makes of some data: it is decoded if it is an encoding, and an error
otherwise. -/
def Decodes (data written tail : List UInt8) (result : ℤ) (out : List UInt8) : Prop :=
  out.length = tail.length ∧
    ((∃ x, base64 x = data ∧ result = (written.length + x.length : ℕ) ∧ out = x ++ tail.drop x.length) ∨
      (result < 0 ∧ ∀ x, base64 x ≠ data))

/-- A group is decoded if all its characters are digits. -/
lemma decodeLoop_cons (c0 c1 c2 c3 : UInt8) (data : List UInt8) {e2 e3 : UInt8} {num : ℕ}
    (hunpad : unpad data.isEmpty c2 c3 = (e2, e3, num)) (o : ℕ) (dst : List UInt8) :
    (∃ value, group (byteValue value 0).toNat (byteValue value 1).toNat (byteValue value 2).toNat = [c0, c1, e2, e3] ∧
      strBase64DecodeLoop (c0 :: c1 :: c2 :: c3 :: data) o dst =
        (groupBytes value num [0, 1, 2] o dst).bind fun (zeroed, o, dst) =>
          if zeroed then strBase64DecodeLoop data o dst else some (-2, dst)) ∨
    ((∀ a b c : UInt8, group a.toNat b.toNat c.toNat ≠ [c0, c1, e2, e3]) ∧
      strBase64DecodeLoop (c0 :: c1 :: c2 :: c3 :: data) o dst = some (-1, dst)) := by
  rw [strBase64DecodeLoop, hunpad]
  dsimp only
  by_cases hgroup : ∃ a b c : UInt8, group a.toNat b.toNat c.toNat = [c0, c1, e2, e3]
  · obtain ⟨a, b, c, hgroup⟩ := hgroup
    obtain ⟨h0, h1, h2, h3⟩ := values_of_group a.toNat_lt b.toNat_lt c.toNat_lt hgroup.symm
    have hbytes := group_of_values h0 h1 h2 h3
    rw [h0, h1, h2, h3]
    exact .inl ⟨_, hbytes, rfl⟩
  · refine .inr ⟨fun a b c h => hgroup ⟨a, b, c, h⟩, ?_⟩
    split
    · rename_i d0 d1 d2 d3 h0 h1 h2 h3
      exact absurd ⟨_, _, _, group_of_values h0 h1 h2 h3⟩ hgroup
    · rfl

lemma decode_last (c0 c1 c2 c3 : UInt8) (written : List UInt8) (x0 x1 x2 : UInt8) (tail behind : List UInt8) :
    ∃ result out, strBase64DecodeLoop [c0, c1, c2, c3] written.length
        (written ++ x0 :: x1 :: x2 :: (tail ++ behind)) = some (result, written ++ (out ++ behind)) ∧
      Decodes [c0, c1, c2, c3] written (x0 :: x1 :: x2 :: tail) result out := by
  obtain ⟨e2, e3, num, hunpad⟩ : ∃ e2 e3 num, unpad true c2 c3 = (e2, e3, num) := ⟨_, _, _, rfl⟩
  obtain ⟨hpos, hle⟩ : 1 ≤ num ∧ num ≤ 3 := by
    have h := num_of_unpad true c2 c3
    rwa [hunpad] at h
  rcases decodeLoop_cons c0 c1 c2 c3 [] hunpad written.length (written ++ x0 :: x1 :: x2 :: (tail ++ behind)) with
    ⟨value, hgroup, hloop⟩ | ⟨hnot, hloop⟩
  · have hdrop : (x0 :: x1 :: x2 :: (tail ++ behind)).drop num = (x0 :: x1 :: x2 :: tail).drop num ++ behind := by
      rw [← List.cons_append, ← List.cons_append, ← List.cons_append, List.drop_append_of_le_length]
      simp only [List.length_cons]
      omega
    rw [groupBytes_spec value hpos hle, Option.bind_some, hdrop] at hloop
    dsimp only at hloop
    have htake : ([byteValue value 0, byteValue value 1, byteValue value 2].take num).length = num := by
      rw [List.length_take]
      exact Nat.min_eq_left hle
    have hlength : ([byteValue value 0, byteValue value 1, byteValue value 2].take num ++
        (x0 :: x1 :: x2 :: tail).drop num).length = (x0 :: x1 :: x2 :: tail).length := by
      rw [List.length_append, htake, List.length_drop]
      simp only [List.length_cons]
      omega
    rw [← List.append_assoc (List.take _ _)] at hloop
    by_cases hzeroed : Zeroed num (byteValue value 1) (byteValue value 2)
    · rw [decide_eq_true hzeroed, if_pos rfl] at hloop
      refine ⟨_, _, hloop, hlength, .inl ⟨_, base64_last_of_group hunpad hgroup hzeroed, ?_, ?_⟩⟩
      · rw [htake]
      · rw [htake]
    · rw [decide_eq_false hzeroed, if_neg Bool.false_ne_true] at hloop
      refine ⟨_, _, hloop, hlength, .inr ⟨by decide, fun x hx => hzeroed ?_⟩⟩
      obtain ⟨a, b, c, hother, hzero⟩ := group_of_base64_last hunpad hx
      obtain ⟨-, rfl, rfl⟩ := group_injective (hother.trans hgroup.symm)
      exact hzero
  · refine ⟨-1, x0 :: x1 :: x2 :: tail, hloop, rfl, .inr ⟨by decide, fun x hx => ?_⟩⟩
    obtain ⟨a, b, c, hgroup, -⟩ := group_of_base64_last hunpad hx
    exact hnot a b c hgroup

/-- The loop decodes the encodings, and nothing else. -/
lemma strBase64DecodeLoop_spec {n : ℕ} {data : List UInt8} (hdata : data.length = 4 * n) (written : List UInt8)
    {tail : List UInt8} (htail : 3 * n ≤ tail.length) (behind : List UInt8) :
    ∃ result out, strBase64DecodeLoop data written.length (written ++ (tail ++ behind)) =
        some (result, written ++ (out ++ behind)) ∧ Decodes data written tail result out := by
  induction n generalizing data written tail with
  | zero =>
    obtain rfl := List.eq_nil_of_length_eq_zero hdata
    exact ⟨written.length, tail, rfl, rfl, .inl ⟨[], rfl, rfl, rfl⟩⟩
  | succ n ih =>
    obtain ⟨x0, x1, x2, tail, rfl⟩ : ∃ x0 x1 x2 rest, tail = x0 :: x1 :: x2 :: rest := by
      rcases tail with _ | ⟨x0, _ | ⟨x1, _ | ⟨x2, tail⟩⟩⟩
      all_goals simp only [List.length_nil, List.length_cons] at htail
      · omega
      · omega
      · omega
      · exact ⟨x0, x1, x2, tail, rfl⟩
    obtain ⟨c0, c1, c2, c3, data, rfl⟩ : ∃ c0 c1 c2 c3 rest, data = c0 :: c1 :: c2 :: c3 :: rest := by
      rcases data with _ | ⟨c0, _ | ⟨c1, _ | ⟨c2, _ | ⟨c3, data⟩⟩⟩⟩
      all_goals simp only [List.length_nil, List.length_cons] at hdata
      · omega
      · omega
      · omega
      · omega
      · exact ⟨c0, c1, c2, c3, data, rfl⟩
    simp only [List.length_cons] at htail hdata
    rw [List.cons_append, List.cons_append, List.cons_append]
    by_cases hlast : data = []
    · subst hlast
      exact decode_last c0 c1 c2 c3 written x0 x1 x2 tail behind
    have hunpad : unpad data.isEmpty c2 c3 = (c2, c3, 3) := by
      rw [unpad, List.isEmpty_eq_false_iff.2 hlast, Bool.false_and]
      rfl
    -- only a group of three bytes is in front of another group
    have hgroup_of : ∀ {x : List UInt8}, base64 x = c0 :: c1 :: c2 :: c3 :: data →
        ∃ a b c x', x = a :: b :: c :: x' ∧ group a.toNat b.toNat c.toNat = [c0, c1, c2, c3] ∧ base64 x' = data := by
      intro x hx
      rcases base64_eq_cons hx with ⟨a, b, c, x', rfl, hgroup, hrest⟩ | ⟨a, b, -, -, hnil⟩ | ⟨a, -, -, hnil⟩
      · exact ⟨a, b, c, x', rfl, hgroup.symm, hrest⟩
      · exact absurd hnil hlast
      · exact absurd hnil hlast
    rcases decodeLoop_cons c0 c1 c2 c3 data hunpad written.length (written ++ x0 :: x1 :: x2 :: (tail ++ behind)) with
      ⟨value, hgroup, hloop⟩ | ⟨hnot, hloop⟩
    · obtain ⟨result, out, hrest, hlength, hout⟩ := @ih data (by omega)
        (written ++ [byteValue value 0, byteValue value 1, byteValue value 2]) tail (by omega)
      have hwritten : (written ++ [byteValue value 0, byteValue value 1, byteValue value 2]).length =
          written.length + 3 := List.length_append
      have hzeroed : Zeroed 3 (byteValue value 1) (byteValue value 2) :=
        ⟨fun h => absurd h (by decide), fun h => absurd h (by decide)⟩
      rw [groupBytes_spec value (by decide) le_rfl, decide_eq_true hzeroed, Option.bind_some] at hloop
      dsimp only at hloop
      rw [hwritten, List.append_assoc, List.append_assoc] at hrest
      rw [if_pos rfl, List.drop_succ_cons, List.drop_succ_cons, List.drop_succ_cons, List.drop_zero,
        List.take_of_length_le (by simp), hrest] at hloop
      refine ⟨result, [byteValue value 0, byteValue value 1, byteValue value 2] ++ out, ?_, ?_, ?_⟩
      · rw [hloop, List.append_assoc]
      · rw [List.length_append, hlength]
        simp only [List.length_cons, List.length_nil]
        omega
      · rcases hout with ⟨x, hx, hresult, rfl⟩ | ⟨hresult, hnone⟩
        · refine .inl ⟨byteValue value 0 :: byteValue value 1 :: byteValue value 2 :: x, ?_, ?_, ?_⟩
          · rw [base64, hgroup, hx]
            rfl
          · rw [hresult, hwritten]
            simp only [List.length_cons]
            congr 1
            omega
          · rfl
        · refine .inr ⟨hresult, fun x hx => ?_⟩
          obtain ⟨a, b, c, x', -, -, hrest'⟩ := hgroup_of hx
          exact hnone x' hrest'
    · refine ⟨-1, x0 :: x1 :: x2 :: tail, hloop, rfl, .inr ⟨by decide, fun x hx => ?_⟩⟩
      obtain ⟨a, b, c, x', -, hgroup, -⟩ := hgroup_of hx
      exact hnot a b c hgroup

/-! ### The codec -/

lemma length_base64_mod (data : List UInt8) : (base64 data).length % 4 = 0 := by
  fun_induction base64 data with
  | case1 a b c data ih =>
    rw [List.length_append, group]
    simp only [List.length_cons, List.length_nil]
    omega
  | case2 a b => simp [padded_two]
  | case3 a => simp [padded_one]
  | case4 => rfl

lemma base64_injective {x y : List UInt8} (h : base64 x = base64 y) : x = y := by
  fun_induction base64 y generalizing x with
  | case1 a b c y ih =>
    have hlast : digit (c.toNat % 64) ≠ padding := digit_ne_padding (by omega)
    rcases base64_eq_cons h with ⟨a', b', c', x, rfl, hgroup, hrest⟩ | ⟨a', b', -, hgroup, -⟩ | ⟨a', -, hgroup, -⟩
    · obtain ⟨rfl, rfl, rfl⟩ := group_injective hgroup
      rw [ih hrest]
    · rw [padded_two] at hgroup
      simp only [List.cons.injEq] at hgroup
      exact absurd hgroup.2.2.2.1 hlast
    · rw [padded_one] at hgroup
      simp only [List.cons.injEq] at hgroup
      exact absurd hgroup.2.2.2.1 hlast
  | case2 a b =>
    have hb := b.toNat_lt
    have hlast : digit (b.toNat % 16 * 4 + 0 / 64) ≠ padding := digit_ne_padding (by omega)
    rcases base64_eq_cons h with ⟨a', b', c', x, -, hgroup, -⟩ | ⟨a', b', rfl, hgroup, -⟩ | ⟨a', -, hgroup, -⟩
    · have hvalue := (values_of_group a'.toNat_lt b'.toNat_lt c'.toNat_lt hgroup).2.2.2
      exact nomatch base64DigitValue_padding.symm.trans hvalue
    · have hsame : group a.toNat b.toNat (0 : UInt8).toNat = group a'.toNat b'.toNat (0 : UInt8).toNat := by
        rw [padded_two] at hgroup
        simp only [List.cons.injEq,
          and_true] at hgroup
        rw [group, group, hgroup.1, hgroup.2.1, UInt8.toNat_zero, hgroup.2.2]
      obtain ⟨rfl, rfl, -⟩ := group_injective hsame
      rfl
    · rw [padded_one] at hgroup
      simp only [List.cons.injEq] at hgroup
      exact absurd hgroup.2.2.1 hlast
  | case3 a =>
    rcases base64_eq_cons h with ⟨a', b', c', x, -, hgroup, -⟩ | ⟨a', b', -, hgroup, -⟩ | ⟨a', rfl, hgroup, -⟩
    · have hvalue := (values_of_group a'.toNat_lt b'.toNat_lt c'.toNat_lt hgroup).2.2.2
      exact nomatch base64DigitValue_padding.symm.trans hvalue
    · have hb := b'.toNat_lt
      have hlast : digit (b'.toNat % 16 * 4 + 0 / 64) ≠ padding := digit_ne_padding (by omega)
      rw [padded_two] at hgroup
      simp only [List.cons.injEq] at hgroup
      exact absurd hgroup.2.2.1.symm hlast
    · have hsame : group a.toNat (0 : UInt8).toNat (0 : UInt8).toNat =
          group a'.toNat (0 : UInt8).toNat (0 : UInt8).toNat := by
        rw [padded_one] at hgroup
        simp only [List.cons.injEq,
          and_true] at hgroup
        rw [group, group, hgroup.1, UInt8.toNat_zero, hgroup.2]
      obtain ⟨rfl, -, -⟩ := group_injective hsame
      rfl
  | case4 =>
    rcases x with _ | ⟨a, _ | ⟨b, _ | ⟨c, x⟩⟩⟩
    · rfl
    · exact nomatch h
    · exact nomatch h
    · exact nomatch h

lemma zero_notMem_base64 (data : List UInt8) : 0 ∉ base64 data := by
  have hdigit : ∀ {n : ℕ}, n < 64 → (0 : UInt8) ≠ digit n := fun hn h =>
    nomatch (show base64DigitValue 0 = none from rfl).symm.trans ((congrArg base64DigitValue h).trans
      (base64DigitValue_digit _ hn))
  have hgroup : ∀ {a b c : ℕ}, a < 256 → b < 256 → c < 256 → (0 : UInt8) ∉ group a b c := by
    intro a b c ha hb hc
    simp only [group, List.mem_cons, List.not_mem_nil, or_false, not_or]
    exact ⟨hdigit (by omega), hdigit (by omega), hdigit (by omega), hdigit (by omega)⟩
  fun_induction base64 data with
  | case1 a b c data ih =>
    rw [List.mem_append, not_or]
    exact ⟨hgroup a.toNat_lt b.toNat_lt c.toNat_lt, ih⟩
  | case2 a b =>
    rw [List.mem_append, not_or]
    exact ⟨fun h => hgroup a.toNat_lt b.toNat_lt (by norm_num) (List.mem_of_mem_take h), by decide⟩
  | case3 a =>
    rw [List.mem_append, not_or]
    exact ⟨fun h => hgroup a.toNat_lt (by norm_num) (by norm_num) (List.mem_of_mem_take h), by decide⟩
  | case4 => exact List.not_mem_nil

/-- What is decoded into a destination that is large enough: the encodings, and nothing else. -/
theorem strBase64Decode_spec (data : List UInt8) {out : List UInt8} (hout : data.length / 4 * 3 ≤ out.length)
    (behind : List UInt8) :
    ∃ result out', strBase64Decode (out ++ behind) out.length data = some (result, out' ++ behind) ∧
      Decodes data [] out result out' := by
  rw [strBase64Decode]
  by_cases hmod : data.length % 4 = 0
  · rw [if_neg (not_not.2 hmod), if_neg (Nat.not_lt.2 hout)]
    obtain ⟨result, out', hloop, hdecodes⟩ := @strBase64DecodeLoop_spec (data.length / 4) data (by omega) [] out
      (by omega) behind
    exact ⟨result, out', hloop, hdecodes⟩
  · rw [if_pos hmod]
    refine ⟨-3, out, rfl, rfl, .inr ⟨by decide, fun x hx => hmod ?_⟩⟩
    rw [← hx]
    exact length_base64_mod x

end Base64

open Base64

/-- `str_base64` leaves what fits of the encoding in its destination, and a zero; what it encodes is decoded; what
`str_base64_decode` accepts are the encodings; and no byte behind a destination is changed. -/
theorem base64_codec :
    (∀ data dst behind : List UInt8, dst ≠ [] →
      ∃ garbage, strBase64 (dst ++ behind) dst.length data =
          some ((base64 data).take (dst.length - 1) ++ 0 :: (garbage ++ behind)) ∧
        ((base64 data).take (dst.length - 1)).length + 1 + garbage.length = dst.length) ∧
    (∀ data dst out behind : List UInt8, (base64 data).length < dst.length → (base64 data).length / 4 * 3 ≤ out.length →
      ∃ dst', strBase64 dst dst.length data = some dst' ∧
        strBase64Decode (out ++ behind) out.length (cstrOf dst') =
          some ((data.length : ℤ), data ++ (out.drop data.length ++ behind))) ∧
    (∀ s out behind : List UInt8, ∃ result out',
      strBase64Decode (out ++ behind) out.length s = some (result, out' ++ behind) ∧ out'.length = out.length ∧
        (s.length / 4 * 3 ≤ out.length → (0 ≤ result ↔ ∃ data, base64 data = s) ∧
          (0 ≤ result → base64 (out'.take result.toNat) = s))) := by
  refine ⟨fun data dst behind hdst => strBase64_spec hdst data behind, ?_, ?_⟩
  · intro data dst out behind hdst hout
    obtain ⟨garbage, hencode, -⟩ := strBase64_spec (List.ne_nil_of_length_pos (Nat.zero_lt_of_lt hdst)) data []
    rw [List.append_nil, List.append_nil, List.take_of_length_le (by omega)] at hencode
    obtain ⟨result, out', hdecode, -, ⟨x, hx, hresult, hout'⟩ | ⟨-, hnone⟩⟩ :=
      strBase64Decode_spec (base64 data) hout behind
    · obtain rfl := base64_injective hx
      refine ⟨_, hencode, ?_⟩
      rw [cstrOf_append (zero_notMem_base64 x), hdecode, hresult, hout', List.length_nil, Nat.zero_add,
        List.append_assoc]
    · exact absurd rfl (hnone data)
  · intro s out behind
    by_cases hout : s.length / 4 * 3 ≤ out.length
    · obtain ⟨result, out', hdecode, hlength, ⟨x, hx, hresult, hout'⟩ | ⟨hresult, hnone⟩⟩ :=
        strBase64Decode_spec s hout behind
      · rw [List.length_nil, Nat.zero_add] at hresult
        refine ⟨result, out', hdecode, hlength, fun _ => ⟨iff_of_true (by omega) ⟨x, hx⟩, fun _ => ?_⟩⟩
        rw [hresult, Int.toNat_natCast, hout', List.take_left, hx]
      · refine ⟨result, out', hdecode, hlength, fun _ => ⟨iff_of_false (by omega) ?_, fun h => absurd hresult ?_⟩⟩
        · rintro ⟨x, hx⟩
          exact hnone x hx
        · omega
    · rw [strBase64Decode]
      by_cases hmod : s.length % 4 = 0
      · rw [if_neg (not_not.2 hmod), if_pos (Nat.lt_of_not_le hout)]
        exact ⟨-2, out, rfl, rfl, fun h => absurd h hout⟩
      · rw [if_pos hmod]
        exact ⟨-3, out, rfl, rfl, fun h => absurd h hout⟩

/-- One byte is encoded, cut in a destination of four bytes, and decoded. -/
theorem base64_sample :
    (∃ garbage, strBase64 ([7, 7, 7, 7] ++ [9]) 4 [255] = some ([47, 119, 61] ++ 0 :: (garbage ++ [9])) ∧
      3 + 1 + garbage.length = 4) ∧
    ∃ dst', strBase64 [7, 7, 7, 7, 7] 5 [255] = some dst' ∧
      strBase64Decode ([7, 7, 7] ++ [9]) 3 (cstrOf dst') = some (1, [255] ++ ([7, 7] ++ [9])) :=
  ⟨base64_codec.1 [255] [7, 7, 7, 7] [9] (by decide),
    base64_codec.2.1 [255] [7, 7, 7, 7, 7] [7, 7, 7] [9] (by decide) (by decide)⟩

end DDNet
