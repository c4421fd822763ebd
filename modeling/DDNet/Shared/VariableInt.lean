/-
Variable-length integers (`CVariableInt` of `engine/shared/compression.cpp`).

The first byte of a packed int holds an extend bit, a sign bit and six data bits, every
further byte an extend bit and seven data bits: `ESDDDDDD EDDDDDDD EDD...`.  A 32-bit int
is `BitVec 32`; after the sign has been taken off, what is packed is a number below
`2 ^ 31`.
-/
import DDNet.Lib.Bits

namespace DDNet

open Lib

namespace CVariableInt

/-- The maximum number of bytes in a packed int. -/
def maxBytesPacked : ℕ := 5

/-- The loop of `CVariableInt::Pack`: the bytes after the byte `cur`, seven bits each, as
long as there are bits left and room for one more byte.  The extend bit of `cur` is set
when a further byte follows.  The result is the list of all bytes stored and whether the
int has been stored completely. -/
def packLoop (cur : ℕ) (i : ℕ) (dstSize : ℕ) : List UInt8 × Bool :=
  if i = 0 then ([UInt8.ofNat cur], true)
  else
    match dstSize with
    | 0 => ([UInt8.ofNat cur], false)
    | dstSize + 1 =>
        let r := packLoop (i &&& 0x7F) (i >>> 7) dstSize
        (UInt8.ofNat (cur ||| 0x80) :: r.1, r.2)

/-- `CVariableInt::Pack`: the bytes stored at the destination and whether the int fitted
into `dstSize` bytes. -/
def pack (i : BitVec 32) (dstSize : ℤ) : List UInt8 × Bool :=
  if dstSize ≤ 0 then ([], false)
  else
    let sign := if i.toInt < 0 then 0x40 else 0
    let v := (if i.toInt < 0 then ~~~i else i).toNat
    packLoop (sign ||| (v &&& 0x3F)) (v >>> 6) (dstSize - 1).toNat

/-- The masks and shifts of the extension bytes. -/
def masksShifts : List (ℕ × ℕ) := [(0x7F, 6), (0x7F, 6 + 7), (0x7F, 6 + 7 + 7), (0x0F, 6 + 7 + 7 + 7)]

/-- The loop of `CVariableInt::Unpack` after the byte `cur`: at most four extension bytes
are added to `value`; `none` if the source ends too early. -/
def unpackLoop (cur : UInt8) (value : ℕ) : List (ℕ × ℕ) → List UInt8 → Option (ℕ × List UInt8)
  | [], src => some (value, src)
  | (mask, shift) :: ms, src =>
      if cur.toNat &&& 0x80 = 0 then some (value, src)
      else
        match src with
        | [] => none
        | b :: src => unpackLoop b (value ||| ((b.toNat &&& mask) <<< shift)) ms src

/-- `CVariableInt::Unpack`: the int at the front of the source and the bytes behind it. -/
def unpack : List UInt8 → Option (BitVec 32 × List UInt8)
  | [] => none
  | b :: src =>
      let sign := (b.toNat >>> 6) &&& 1
      match unpackLoop b (b.toNat &&& 0x3F) masksShifts src with
      | none => none
      | some (value, rest) =>
          some (BitVec.ofNat 32 value ^^^ -(BitVec.ofNat 32 sign), rest)

/-! ### The loops, step by step -/

lemma packLoop_zero (cur dstSize : ℕ) : packLoop cur 0 dstSize = ([UInt8.ofNat cur], true) := by
  cases dstSize <;> simp [packLoop]

lemma packLoop_full {cur i : ℕ} (hi : i ≠ 0) : packLoop cur i 0 = ([UInt8.ofNat cur], false) := by
  simp [packLoop, hi]

lemma packLoop_succ {cur i : ℕ} (hi : i ≠ 0) (dstSize : ℕ) :
    packLoop cur i (dstSize + 1) =
      (UInt8.ofNat (cur ||| 0x80) :: (packLoop (i % 128) (i / 128) dstSize).1,
        (packLoop (i % 128) (i / 128) dstSize).2) := by
  have hlow : i &&& 0x7F = i % 128 := and_mask i 7
  have hhigh : i >>> 7 = i / 128 := Nat.shiftRight_eq_div_pow i 7
  simp [packLoop, hi, hlow, hhigh]

lemma unpackLoop_last {cur : UInt8} (h : cur.toNat &&& 0x80 = 0) (value : ℕ)
    (ms : List (ℕ × ℕ)) (src : List UInt8) : unpackLoop cur value ms src = some (value, src) := by
  cases ms with
  | nil => rw [unpackLoop]
  | cons m ms => simp [unpackLoop.eq_def, h]

lemma unpackLoop_more {cur : UInt8} (h : cur.toNat &&& 0x80 ≠ 0) (value mask shift : ℕ)
    (ms : List (ℕ × ℕ)) (b : UInt8) (src : List UInt8) :
    unpackLoop cur value ((mask, shift) :: ms) (b :: src) =
      unpackLoop b (value ||| ((b.toNat &&& mask) <<< shift)) ms src := by
  rw [unpackLoop.eq_def]
  simp [h]

/-! ### The bytes that are stored -/

lemma packLoop_length_le (cur i dstSize : ℕ) :
    (packLoop cur i dstSize).1.length ≤ dstSize + 1 := by
  by_cases hi : i = 0
  · subst hi
    rw [packLoop_zero]
    simp
  · induction dstSize generalizing cur i with
    | zero => rw [packLoop_full hi]; simp
    | succ n ih =>
      rw [packLoop_succ hi]
      by_cases hi' : i / 128 = 0
      · rw [hi', packLoop_zero]
        simp
      · simpa using ih _ _ hi'

/-- No byte is stored behind the destination, whether the int fits or not. -/
lemma pack_length_le (i : BitVec 32) (dstSize : ℤ) :
    ((pack i dstSize).1.length : ℤ) ≤ max 0 dstSize := by
  unfold pack
  split
  · simp
  · have := packLoop_length_le ((if i.toInt < 0 then 0x40 else 0) |||
      ((if i.toInt < 0 then ~~~i else i).toNat &&& 0x3F))
      ((if i.toInt < 0 then ~~~i else i).toNat >>> 6) (dstSize - 1).toNat
    simp only
    omega

/-- An int of few digits is stored completely, in at most as many bytes. -/
lemma packLoop_ok {cur i n dstSize : ℕ} (hi : i < 128 ^ n) (hn : n ≤ dstSize) :
    (packLoop cur i dstSize).2 = true ∧ (packLoop cur i dstSize).1.length ≤ n + 1 := by
  by_cases h : i = 0
  · subst h
    rw [packLoop_zero]
    exact ⟨rfl, Nat.succ_le_succ (Nat.zero_le _)⟩
  · induction n generalizing cur i dstSize with
    | zero => omega
    | succ n ih =>
      obtain ⟨dstSize, rfl⟩ := Nat.exists_eq_add_of_le' (Nat.one_le_of_lt (Nat.lt_of_succ_le hn))
      have hdiv : i / 128 < 128 ^ n := by
        rw [Nat.div_lt_iff_lt_mul (by omega), ← pow_succ]
        exact hi
      rw [packLoop_succ h]
      by_cases hrest : i / 128 = 0
      · rw [hrest, packLoop_zero]
        exact ⟨rfl, by simp⟩
      · obtain ⟨hok, hlength⟩ := @ih (i % 128) (i / 128) dstSize hdiv (by omega) hrest
        exact ⟨hok, Nat.succ_le_succ hlength⟩

lemma packLoop_length_pos (cur i dstSize : ℕ) : 0 < (packLoop cur i dstSize).1.length := by
  rw [packLoop.eq_def]
  split_ifs
  · exact Nat.one_pos
  · cases dstSize <;> exact Nat.succ_pos _

/-- What is stored completely is stored in any room that is long enough. -/
lemma packLoop_of_ok {cur i dstSize dstSize' : ℕ} (hok : (packLoop cur i dstSize).2 = true)
    (hroom : (packLoop cur i dstSize).1.length ≤ dstSize' + 1) :
    packLoop cur i dstSize' = packLoop cur i dstSize := by
  by_cases h : i = 0
  · subst h
    rw [packLoop_zero, packLoop_zero]
  · induction dstSize generalizing cur i dstSize' with
    | zero =>
      rw [packLoop_full h] at hok
      exact absurd hok Bool.false_ne_true
    | succ dstSize ih =>
      rw [packLoop_succ h] at hok hroom ⊢
      rw [List.length_cons] at hroom
      have hpos := packLoop_length_pos (i % 128) (i / 128) dstSize
      obtain ⟨dstSize', rfl⟩ := Nat.exists_eq_succ_of_ne_zero (by omega : dstSize' ≠ 0)
      rw [packLoop_succ h]
      by_cases hrest : i / 128 = 0
      · rw [hrest, packLoop_zero, packLoop_zero]
      · rw [ih hok (by omega) hrest]

lemma pack_of_pos (i : BitVec 32) {dstSize : ℤ} (h : ¬ dstSize ≤ 0) :
    pack i dstSize = packLoop ((if i.toInt < 0 then 0x40 else 0) |||
      ((if i.toInt < 0 then ~~~i else i).toNat &&& 0x3F)) ((if i.toInt < 0 then ~~~i else i).toNat >>> 6)
      (dstSize - 1).toNat :=
  if_neg h

lemma pack_of_ok {i : BitVec 32} {dstSize dstSize' : ℤ} (hok : (pack i dstSize).2 = true)
    (hroom : ((pack i dstSize).1.length : ℤ) ≤ dstSize') : pack i dstSize' = pack i dstSize := by
  have hpos : ¬ dstSize ≤ 0 := by
    intro h
    rw [pack, if_pos h] at hok
    exact absurd hok Bool.false_ne_true
  rw [pack_of_pos i hpos] at hok hroom ⊢
  have hlength := packLoop_length_pos ((if i.toInt < 0 then 0x40 else 0) |||
    ((if i.toInt < 0 then ~~~i else i).toNat &&& 0x3F)) ((if i.toInt < 0 then ~~~i else i).toNat >>> 6)
    (dstSize - 1).toNat
  rw [pack_of_pos i (by omega)]
  exact packLoop_of_ok hok (by omega)

/-! ### Reading a packed int back -/

lemma extend_bit_clear {x : ℕ} (h : x < 128) : (UInt8.ofNat x).toNat &&& 0x80 = 0 := by
  rw [toNat_ofNat_of_lt (by omega)]
  have hmask : x &&& 0x80 = x / 2 ^ 7 * 2 ^ 7 :=
    and_high_mask (x := x) (k := 7) (m := 8) (by omega) (by norm_num)
  rw [hmask]
  omega

lemma extend_bit_set {x : ℕ} (h : x < 128) : (UInt8.ofNat (x ||| 0x80)).toNat = x + 128 := by
  have hor : x ||| 0x80 = 2 ^ 7 * 1 + x := or_mul_pow (a := 1) (k := 7) h
  rw [hor, toNat_ofNat_of_lt (by omega)]
  omega

lemma extend_bit_set_ne {x : ℕ} (h : x < 128) :
    (UInt8.ofNat (x ||| 0x80)).toNat &&& 0x80 ≠ 0 := by
  have hmask : (x + 128) &&& 0x80 = (x + 128) / 2 ^ 7 * 2 ^ 7 :=
    and_high_mask (x := x + 128) (k := 7) (m := 8) (by omega) (by norm_num)
  rw [extend_bit_set h, hmask]
  omega

/-- The extend bit is not part of the data: a mask of at most seven bits removes it. -/
lemma and_mask_of_extend {x m : ℕ} (hm : m &&& 0x7F = m) (hx : x < 128) :
    (x + 128) &&& m = x &&& m := by
  have hlow : (x + 128) &&& 0x7F = x := by
    have : (x + 128) &&& 0x7F = (x + 128) % 2 ^ 7 := and_mask (x + 128) 7
    omega
  calc (x + 128) &&& m = (x + 128) &&& (0x7F &&& m) := by rw [Nat.land_comm 0x7F m, hm]
    _ = x &&& m := by rw [← Nat.land_assoc, hlow]

/-- The rest `ms` of the mask table takes all data bits of `i`, seven a byte from bit
`shift` on. -/
def Adequate : List (ℕ × ℕ) → ℕ → ℕ → Prop
  | [], _, i => i = 0
  | (mask, s) :: ms, shift, i =>
      s = shift ∧ mask &&& 0x7F = mask ∧ (i % 128) &&& mask = i % 128 ∧
        Adequate ms (shift + 7) (i / 128)

/-- What `Pack` stores after a byte, `Unpack` adds to the value it has so far. -/
lemma unpackLoop_packLoop {ms : List (ℕ × ℕ)} {src : List UInt8} :
    ∀ {cur value shift i dstSize : ℕ}, cur < 128 → value < 2 ^ shift → Adequate ms shift i →
      (packLoop cur i dstSize).2 = true →
      ∃ b bs, (packLoop cur i dstSize).1 = b :: bs ∧
        (b.toNat = cur ∨ b.toNat = cur + 128) ∧
        unpackLoop b value ms (bs ++ src) = some (2 ^ shift * i + value, src) := by
  induction ms with
  | nil =>
    intro cur value shift i dstSize hcur _ hi _
    have hi0 : i = 0 := hi
    subst hi0
    refine ⟨UInt8.ofNat cur, [], by rw [packLoop_zero],
      Or.inl (toNat_ofNat_of_lt (by omega)), ?_⟩
    simp [unpackLoop]
  | cons m ms ih =>
    obtain ⟨mask, s⟩ := m
    intro cur value shift i dstSize hcur hvalue hi hok
    obtain ⟨rfl, hm7, hmask, hrest⟩ := hi
    by_cases hi0 : i = 0
    · subst hi0
      refine ⟨UInt8.ofNat cur, [], by rw [packLoop_zero],
        Or.inl (toNat_ofNat_of_lt (by omega)), ?_⟩
      rw [unpackLoop_last (extend_bit_clear hcur)]
      simp
    · cases dstSize with
      | zero =>
        rw [packLoop_full hi0] at hok
        exact absurd hok (by simp)
      | succ n =>
        rw [packLoop_succ hi0] at hok ⊢
        -- the data bits of the next byte join the value below the remaining ones
        have hjoin : value ||| ((i % 128) <<< s) = 2 ^ s * (i % 128) + value :=
          or_shiftLeft hvalue
        have hvalue' : 2 ^ s * (i % 128) + value < 2 ^ (s + 7) := by
          have hlt : i % 128 < 128 := Nat.mod_lt _ (by norm_num)
          have hle : 2 ^ s * (i % 128) ≤ 2 ^ s * 127 := Nat.mul_le_mul_left _ (by omega)
          rw [pow_add]
          omega
        obtain ⟨b, bs, hbytes, hb, hunpack⟩ :=
          ih (Nat.mod_lt _ (by norm_num)) hvalue' hrest hok
        have hdata : b.toNat &&& mask = i % 128 := by
          rcases hb with hb | hb
          · rw [hb, hmask]
          · rw [hb, and_mask_of_extend hm7 (Nat.mod_lt _ (by norm_num)), hmask]
        refine ⟨_, b :: bs, by rw [hbytes], Or.inr (extend_bit_set hcur), ?_⟩
        rw [List.cons_append, unpackLoop_more (extend_bit_set_ne hcur), hdata, hjoin, hunpack]
        congr 2
        have hdiv := Nat.div_add_mod i 128
        calc 2 ^ (s + 7) * (i / 128) + (2 ^ s * (i % 128) + value)
            = 2 ^ s * (128 * (i / 128) + i % 128) + value := by rw [pow_add]; ring
          _ = 2 ^ s * i + value := by rw [hdiv]

lemma adequate_masksShifts {v : ℕ} (hv : v < 2 ^ 31) : Adequate masksShifts 6 (v / 64) := by
  have hmask : ∀ x : ℕ, x % 128 &&& 0x7F = x % 128 := fun x => by
    have : x % 128 &&& 0x7F = x % 128 % 2 ^ 7 := and_mask _ 7
    omega
  refine ⟨rfl, rfl, hmask _, rfl, rfl, hmask _, rfl, rfl, hmask _, rfl, rfl, ?_, ?_⟩
  · have hlast : v / 64 / 128 / 128 / 128 % 128 &&& 0x0F =
        v / 64 / 128 / 128 / 128 % 128 % 2 ^ 4 := and_mask _ 4
    omega
  · change v / 64 / 128 / 128 / 128 / 128 = 0
    omega

/-- The number that is packed: the int itself or its complement. -/
lemma magnitude_lt (i : BitVec 32) : (if i.toInt < 0 then ~~~i else i).toNat < 2 ^ 31 := by
  have hlt := i.isLt
  rw [BitVec.toInt_eq_toNat_cond]
  by_cases h : 2 * i.toNat < 2 ^ 32
  · rw [if_pos h, if_neg (by omega)]
    omega
  · rw [if_neg h, if_pos (by omega), BitVec.toNat_not]
    omega

/-- Five bytes are enough for every int. -/
lemma pack_ok (i : BitVec 32) {dstSize : ℤ} (h : (maxBytesPacked : ℤ) ≤ dstSize) :
    (pack i dstSize).2 = true ∧ (pack i dstSize).1.length ≤ maxBytesPacked := by
  rw [maxBytesPacked] at h ⊢
  have hlt := magnitude_lt i
  have hhigh : (if i.toInt < 0 then ~~~i else i).toNat >>> 6 < 128 ^ 4 := by
    rw [Nat.shiftRight_eq_div_pow]
    omega
  rw [pack, if_neg (by omega)]
  exact packLoop_ok hhigh (by omega)

/-- Taking the sign off and putting it back. -/
lemma restore_sign (i : BitVec 32) :
    (if i.toInt < 0 then ~~~i else i) ^^^ -(BitVec.ofNat 32 (if i.toInt < 0 then 1 else 0)) = i := by
  split
  · have hneg : -(BitVec.ofNat 32 1) = BitVec.allOnes 32 := by decide
    rw [hneg, BitVec.xor_allOnes, BitVec.not_not]
  · simp

/-- `Unpack` reads back every int that `Pack` stored, and stops behind it. -/
theorem unpack_pack {i : BitVec 32} {dstSize : ℤ} (hok : (pack i dstSize).2 = true)
    (src : List UInt8) : unpack ((pack i dstSize).1 ++ src) = some (i, src) := by
  have hpos : ¬ dstSize ≤ 0 := by
    intro h
    rw [pack, if_pos h] at hok
    exact absurd hok (by simp)
  rw [pack, if_neg hpos] at hok ⊢
  simp only at hok ⊢
  set v := (if i.toInt < 0 then ~~~i else i).toNat with hv
  have hvlt : v < 2 ^ 31 := magnitude_lt i
  have hlow : v &&& 0x3F = v % 64 := and_mask v 6
  have hhigh : v >>> 6 = v / 64 := Nat.shiftRight_eq_div_pow v 6
  have hsign : (if i.toInt < 0 then 0x40 else 0 : ℕ) = 2 ^ 6 * (if i.toInt < 0 then 1 else 0) := by
    split <;> rfl
  set sign : ℕ := if i.toInt < 0 then 1 else 0 with hsdef
  have hs1 : sign ≤ 1 := by rw [hsdef]; split <;> omega
  have hcur : 2 ^ 6 * sign ||| v % 64 = 2 ^ 6 * sign + v % 64 :=
    mul_pow_or (Nat.mod_lt _ (by norm_num))
  rw [hlow, hhigh, hsign, hcur] at hok ⊢
  obtain ⟨b, bs, hbytes, hb, hunpack⟩ :=
    @unpackLoop_packLoop _ src _ (v % 64) _ _ _ (by omega) (Nat.mod_lt _ (by norm_num))
      (adequate_masksShifts hvlt) hok
  rw [hbytes, List.cons_append, unpack]
  have hdata : b.toNat &&& 0x3F = v % 64 := by
    have : b.toNat &&& 0x3F = b.toNat % 2 ^ 6 := and_mask _ 6
    omega
  have hsignbit : (b.toNat >>> 6) &&& 1 = sign := by
    have : (b.toNat >>> 6) &&& 1 = b.toNat >>> 6 % 2 ^ 1 := and_mask _ 1
    rw [this, Nat.shiftRight_eq_div_pow]
    omega
  have hsum : 2 ^ 6 * (v / 64) + v % 64 = v := Nat.div_add_mod v 64
  simp only [hdata, hsignbit, hunpack, hsum]
  rw [hv, BitVec.ofNat_toNat, BitVec.setWidth_eq, hsdef, restore_sign]

end CVariableInt

end DDNet
