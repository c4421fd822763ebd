/-
Bit strings and the numbers that hold them.

A number is read as a string of bits from its lowest bit on.  Codecs that fill bytes from
the lowest bit keep such a number as an accumulator: appending bits to the string is
adding a multiple of a power of two, taking bits off its front is a division.
-/
import DDNet.Lib.Bits

namespace DDNet.Lib

/-- The lowest `n` bits of a number, lowest first. -/
def toBits (v : ℕ) : ℕ → List Bool
  | 0 => []
  | n + 1 => (v % 2 = 1) :: toBits (v / 2) n

/-- The number with the given bits, lowest first. -/
def ofBits : List Bool → ℕ
  | [] => 0
  | b :: bs => b.toNat + 2 * ofBits bs

@[simp] lemma toBits_zero (v : ℕ) : toBits v 0 = [] := rfl

lemma toBits_succ (v n : ℕ) : toBits v (n + 1) = decide (v % 2 = 1) :: toBits (v / 2) n := rfl

@[simp] lemma length_toBits (v n : ℕ) : (toBits v n).length = n := by
  induction n generalizing v with
  | zero => rfl
  | succ n ih => simp [toBits_succ, ih]

lemma toBits_of_zero (n : ℕ) : toBits 0 n = List.replicate n false := by
  induction n with
  | zero => rfl
  | succ n ih => simp [toBits_succ, ih, List.replicate_succ]

lemma ofBits_lt (bs : List Bool) : ofBits bs < 2 ^ bs.length := by
  induction bs with
  | nil => simp [ofBits]
  | cons b bs ih =>
    have hb : b.toNat ≤ 1 := Bool.toNat_le b
    rw [ofBits, List.length_cons, pow_succ]
    omega

/-- The bits of a sum whose high part starts above the string. -/
lemma toBits_ofBits_add (bs : List Bool) (x : ℕ) :
    toBits (ofBits bs + 2 ^ bs.length * x) bs.length = bs := by
  induction bs with
  | nil => rfl
  | cons b bs ih =>
    have hpow : ofBits (b :: bs) + 2 ^ (b :: bs).length * x =
        b.toNat + 2 * (ofBits bs + 2 ^ bs.length * x) := by
      rw [ofBits, List.length_cons, pow_succ]
      ring
    rw [hpow, List.length_cons, toBits_succ]
    have hdiv : (b.toNat + 2 * (ofBits bs + 2 ^ bs.length * x)) / 2 =
        ofBits bs + 2 ^ bs.length * x := by
      have hb : b.toNat ≤ 1 := Bool.toNat_le b
      omega
    rw [hdiv, ih]
    congr 1
    cases b <;> simp

lemma toBits_ofBits (bs : List Bool) : toBits (ofBits bs) bs.length = bs := by
  simpa using toBits_ofBits_add bs 0

/-- The first bits of a string of bits, and the rest. -/
lemma toBits_add (v m n : ℕ) : toBits v (m + n) = toBits v m ++ toBits (v / 2 ^ m) n := by
  induction m generalizing v with
  | zero => simp
  | succ m ih =>
    rw [show m + 1 + n = m + n + 1 by omega, toBits_succ, toBits_succ, ih, List.cons_append,
      Nat.div_div_eq_div_mul, pow_succ, Nat.mul_comm]

/-- Only the low bits matter. -/
lemma toBits_mod (v : ℕ) {m n : ℕ} (h : n ≤ m) : toBits (v % 2 ^ m) n = toBits v n := by
  induction n generalizing v m with
  | zero => rfl
  | succ n ih =>
    obtain ⟨m, rfl⟩ : ∃ k, m = k + 1 := ⟨m - 1, by omega⟩
    rw [toBits_succ, toBits_succ]
    have hdiv : v % 2 ^ (m + 1) / 2 = v / 2 % 2 ^ m := by
      rw [pow_succ, Nat.mul_comm, Nat.mod_mul_right_div_self]
    have hmod : v % 2 ^ (m + 1) % 2 = v % 2 := Nat.mod_mod_of_dvd v ⟨2 ^ m, by rw [pow_succ]; ring⟩
    rw [hdiv, hmod, ih _ (by omega)]

/-- Appending a string above the bits of a number. -/
lemma toBits_append {v : ℕ} {n : ℕ} (hv : v < 2 ^ n) (bs : List Bool) :
    toBits (v + 2 ^ n * ofBits bs) (n + bs.length) = toBits v n ++ bs := by
  rw [toBits_add]
  have hlow : toBits (v + 2 ^ n * ofBits bs) n = toBits v n := by
    rw [← toBits_mod _ le_rfl, Nat.add_mul_mod_self_left, Nat.mod_eq_of_lt hv]
  have hhigh : (v + 2 ^ n * ofBits bs) / 2 ^ n = ofBits bs := by
    rw [Nat.add_mul_div_left _ _ (by positivity), Nat.div_eq_of_lt hv, zero_add]
  rw [hlow, hhigh, toBits_ofBits]

/-- A number below `2 ^ n` is the one that its `n` bits describe. -/
lemma ofBits_toBits {v n : ℕ} (hv : v < 2 ^ n) : ofBits (toBits v n) = v := by
  induction n generalizing v with
  | zero =>
    have : v = 0 := by simpa using hv
    rw [this]
    rfl
  | succ n ih =>
    rw [pow_succ] at hv
    rw [toBits_succ, ofBits, ih (by omega)]
    by_cases h : v % 2 = 1
    · simp only [h, decide_true, Bool.toNat_true]
      omega
    · simp only [h, decide_false, Bool.toNat_false]
      omega

/-- The bits of a byte. -/
def byteBits (b : UInt8) : List Bool := toBits b.toNat 8

/-- The bits of a byte string. -/
def bytesBits (bs : List UInt8) : List Bool := bs.flatMap byteBits

@[simp] lemma bytesBits_nil : bytesBits [] = [] := rfl

@[simp] lemma bytesBits_cons (b : UInt8) (bs : List UInt8) :
    bytesBits (b :: bs) = byteBits b ++ bytesBits bs := rfl

lemma bytesBits_append (bs cs : List UInt8) : bytesBits (bs ++ cs) = bytesBits bs ++ bytesBits cs := by
  simp [bytesBits]

@[simp] lemma length_byteBits (b : UInt8) : (byteBits b).length = 8 := length_toBits _ _

lemma length_bytesBits (bs : List UInt8) : (bytesBits bs).length = 8 * bs.length := by
  induction bs with
  | nil => rfl
  | cons b bs ih => rw [bytesBits_cons, List.length_append, ih, length_byteBits, List.length_cons]; ring

end DDNet.Lib
