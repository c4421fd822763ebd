/-
Arrays of ints: their differences (`CSnapshotDelta::DiffItem` and `UndiffItem`), and the arrays as variable-length
integers (`CVariableInt::Compress` and `CVariableInt::Decompress`).

An int takes one to five bytes, so `Compress` can need more room than its source has; it fails if and only if the packed
ints are longer than the destination.
-/
import DDNet.Shared.VariableInt

namespace DDNet

/-- `DiffItem`; all items of a type have the same size. -/
def diffItem (past current : List (BitVec 32)) : List (BitVec 32) := List.zipWith (fun p c => c - p) past current

/-- `UndiffItem`. -/
def undiffItem (past diff : List (BitVec 32)) : List (BitVec 32) := List.zipWith (fun p d => p + d) past diff

lemma length_diffItem {past current : List (BitVec 32)} (h : past.length = current.length) :
    (diffItem past current).length = current.length := by
  rw [diffItem, List.length_zipWith, h, Nat.min_self]

/-- The differences undo each other. -/
lemma undiffItem_diffItem {past current : List (BitVec 32)} (h : past.length = current.length) :
    undiffItem past (diffItem past current) = current := by
  induction past generalizing current with
  | nil =>
    obtain rfl := List.length_eq_zero_iff.mp h.symm
    rfl
  | cons p past ih =>
    cases current with
    | nil => exact nomatch h
    | cons c current =>
      have hrest := ih (Nat.succ.inj h)
      rw [undiffItem, diffItem] at hrest
      rw [undiffItem, diffItem, List.zipWith_cons_cons, List.zipWith_cons_cons, hrest, BitVec.add_comm, BitVec.sub_add_cancel]

namespace CVariableInt

/-- `Compress`; `none` for `-1`. -/
def compress : List (BitVec 32) → ℤ → Option (List UInt8)
  | [], _ => some []
  | i :: src, dstSize =>
      let r := pack i dstSize
      if r.2 then (compress src (dstSize - r.1.length)).map (r.1 ++ ·) else none

/-- `Decompress` into an array of `room` ints; `none` for `-1`.  Every int takes a byte of the source, which bounds the
number of rounds. -/
def decompressLoop : ℕ → List UInt8 → ℕ → Option (List (BitVec 32))
  | _, [], _ => some []
  | 0, _ :: _, _ => none
  | _ + 1, _ :: _, 0 => none
  | n + 1, b :: src, room + 1 =>
      match unpack (b :: src) with
      | none => none
      | some (i, rest) => (decompressLoop n rest room).map (i :: ·)

def decompress (src : List UInt8) (room : ℕ) : Option (List (BitVec 32)) := decompressLoop src.length src room

/-! ### Sizes -/

/-- The bytes an int takes, by its magnitude: six bits in the first byte and seven in each further one. -/
def intBytes (i : BitVec 32) : ℕ :=
  let v := (if i.toInt < 0 then ~~~i else i).toNat
  if v < 2 ^ 6 then 1 else if v < 2 ^ 13 then 2 else if v < 2 ^ 20 then 3 else if v < 2 ^ 27 then 4 else 5

/-- The bytes of a packed int. -/
def packed (i : BitVec 32) : List UInt8 := (pack i maxBytesPacked).1

/-- The bytes of packed ints. -/
def packedInts (src : List (BitVec 32)) : List UInt8 := src.flatMap packed

lemma pack_maxBytesPacked_ok (i : BitVec 32) : (pack i maxBytesPacked).2 = true := (pack_ok i (le_refl _)).1

lemma length_packed_le (i : BitVec 32) : (packed i).length ≤ 5 := (pack_ok i (le_refl _)).2

lemma length_packed_pos (i : BitVec 32) : 0 < (packed i).length := by
  rw [packed, pack_of_pos i (by decide)]
  exact packLoop_length_pos _ _ _

/-- The number of bytes is the number of digits in base 128 and one byte more. -/
lemma length_packLoop {cur i k n : ℕ} (hi : i < 128 ^ k) (hk : k = 0 ∨ 128 ^ (k - 1) ≤ i) (hn : k ≤ n) :
    (packLoop cur i n).1.length = k + 1 := by
  induction k generalizing cur i n with
  | zero =>
    obtain rfl : i = 0 := by omega
    rw [packLoop_zero]
    rfl
  | succ k ih =>
    obtain ⟨n, rfl⟩ := Nat.exists_eq_add_of_le' (Nat.one_le_of_lt (Nat.lt_of_succ_le hn))
    have hle : 128 ^ k ≤ i := hk.resolve_left (Nat.succ_ne_zero k)
    have hpos : 0 < 128 ^ k := Nat.pow_pos (by omega)
    rw [packLoop_succ (by omega), List.length_cons, ih]
    · rwa [Nat.div_lt_iff_lt_mul (by omega), ← pow_succ]
    · cases k with
      | zero => exact .inl rfl
      | succ k =>
        right
        rw [Nat.le_div_iff_mul_le (by omega), Nat.add_sub_cancel, ← pow_succ]
        exact hle
    · omega

lemma length_packed (i : BitVec 32) : (packed i).length = intBytes i := by
  have hlt := magnitude_lt i
  rw [packed, pack_of_pos i (by decide), intBytes]
  generalize (if i.toInt < 0 then ~~~i else i).toNat = v at hlt ⊢
  have hdiv : v >>> 6 = v / 64 := Nat.shiftRight_eq_div_pow v 6
  rw [hdiv]
  generalize ((if i.toInt < 0 then 0x40 else 0) ||| (v &&& 0x3F)) = cur
  split_ifs with h1 h2 h3 h4
  · exact length_packLoop (by omega) (.inl rfl) (by decide)
  · exact length_packLoop (by omega) (.inr (by omega)) (by decide)
  · exact length_packLoop (by omega) (.inr (by omega)) (by decide)
  · exact length_packLoop (by omega) (.inr (by omega)) (by decide)
  · exact length_packLoop (by omega) (.inr (by omega)) (by decide)

lemma length_packedInts (src : List (BitVec 32)) : (packedInts src).length = (src.map intBytes).sum := by
  rw [packedInts, List.length_flatMap]
  simp only [length_packed]

/-- An int is stored if there is room for it. -/
lemma pack_of_le {i : BitVec 32} {dstSize : ℤ} (h : ((packed i).length : ℤ) ≤ dstSize) :
    pack i dstSize = (packed i, true) := by
  rw [pack_of_ok (pack_maxBytesPacked_ok i) h]
  exact Prod.ext rfl (pack_maxBytesPacked_ok i)

lemma pack_of_gt {i : BitVec 32} {dstSize : ℤ} (h : dstSize < (packed i).length) : (pack i dstSize).2 = false := by
  by_contra hok
  rw [Bool.not_eq_false] at hok
  have hlength := pack_length_le i dstSize
  have hle := length_packed_le i
  have hpos := length_packed_pos i
  have hsame : pack i maxBytesPacked = pack i dstSize := by
    refine pack_of_ok hok ?_
    rw [maxBytesPacked]
    omega
  rw [← hsame] at hlength
  rw [packed] at *
  omega

lemma compress_eq (src : List (BitVec 32)) {dstSize : ℤ} (h : 0 ≤ dstSize) :
    compress src dstSize = if ((packedInts src).length : ℤ) ≤ dstSize then some (packedInts src) else none := by
  induction src generalizing dstSize with
  | nil => exact (if_pos h).symm
  | cons i src ih =>
    have hall : packedInts (i :: src) = packed i ++ packedInts src := rfl
    rw [compress, hall, List.length_append]
    by_cases hroom : ((packed i).length : ℤ) ≤ dstSize
    · simp only [pack_of_le hroom, if_true]
      rw [ih (by omega)]
      by_cases hrest : ((packedInts src).length : ℤ) ≤ dstSize - (packed i).length
      · rw [if_pos hrest, if_pos (by push_cast; omega)]
        rfl
      · rw [if_neg hrest, if_neg (by push_cast; omega)]
        rfl
    · simp only [pack_of_gt (not_le.mp hroom)]
      rw [if_neg Bool.false_ne_true, if_neg (by push_cast; omega)]

/-- What was compressed is decompressed. -/
lemma decompressLoop_packedInts {src : List (BitVec 32)} {n room : ℕ} (hn : src.length ≤ n) (hroom : src.length ≤ room) :
    decompressLoop n (packedInts src) room = some src := by
  induction src generalizing n room with
  | nil => cases n <;> rfl
  | cons i src ih =>
    obtain ⟨n, rfl⟩ := Nat.exists_eq_succ_of_ne_zero (Nat.ne_of_gt (Nat.zero_lt_of_lt hn))
    obtain ⟨room, rfl⟩ := Nat.exists_eq_succ_of_ne_zero (Nat.ne_of_gt (Nat.zero_lt_of_lt hroom))
    have hunpack : unpack (packedInts (i :: src)) = some (i, packedInts src) :=
      unpack_pack (pack_maxBytesPacked_ok i) (packedInts src)
    cases hbytes : packedInts (i :: src) with
    | nil =>
      rw [hbytes] at hunpack
      exact nomatch hunpack
    | cons b bytes =>
      rw [hbytes] at hunpack
      rw [decompressLoop, hunpack]
      simp only
      rw [ih (Nat.le_of_succ_le_succ hn) (Nat.le_of_succ_le_succ hroom)]
      rfl

lemma length_le_packedInts (src : List (BitVec 32)) : src.length ≤ (packedInts src).length := by
  induction src with
  | nil => exact le_refl 0
  | cons i src ih =>
    have hpos := length_packed_pos i
    have hall : packedInts (i :: src) = packed i ++ packedInts src := rfl
    rw [hall, List.length_append, List.length_cons]
    omega

lemma decompress_packedInts {src : List (BitVec 32)} {room : ℕ} (hroom : src.length ≤ room) :
    decompress (packedInts src) room = some src :=
  decompressLoop_packedInts (length_le_packedInts src) hroom

end CVariableInt

end DDNet
