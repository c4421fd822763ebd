/-
Bit fields of natural numbers.

The code packs several small numbers into one byte or word with shifts, masks and
bitwise or.  On fields that do not overlap these operations are a multiplication by a
power of two, a remainder and an addition, and the lemmas below say so; linear
arithmetic does the rest.
-/
import Mathlib.Tactic
import Mathlib.Data.Nat.Bitwise

namespace DDNet.Lib

/-- A low field is taken out of a number by its mask. -/
lemma and_mask (x k : ℕ) : x &&& (2 ^ k - 1) = x % 2 ^ k :=
  Nat.and_two_pow_sub_one_eq_mod x k

/-- A field below bit `k` is joined to a number whose low `k` bits are clear. -/
lemma mul_pow_or {a b k : ℕ} (hb : b < 2 ^ k) : 2 ^ k * a ||| b = 2 ^ k * a + b :=
  (Nat.two_pow_add_eq_or_of_lt hb a).symm

/-- The same field joined from the other side. -/
lemma or_mul_pow {a b k : ℕ} (hb : b < 2 ^ k) : b ||| 2 ^ k * a = 2 ^ k * a + b := by
  rw [Nat.or_comm, mul_pow_or hb]

/-- A number shifted above a field that is already there. -/
lemma or_shiftLeft {a b k : ℕ} (hb : b < 2 ^ k) : b ||| (a <<< k) = 2 ^ k * a + b := by
  rw [Nat.shiftLeft_eq, Nat.mul_comm a, or_mul_pow hb]

/-- A field put below a number that has been shifted out of its way. -/
lemma shiftLeft_or {a b k : ℕ} (hb : b < 2 ^ k) : (a <<< k) ||| b = 2 ^ k * a + b := by
  rw [Nat.or_comm, or_shiftLeft hb]

/-- A mask whose low `k` bits are clear keeps the multiple of `2 ^ k` of an `m`-bit
number. -/
lemma and_high_mask {x k m : ℕ} (hx : x < 2 ^ m) (hk : k ≤ m) :
    x &&& (2 ^ m - 2 ^ k) = x / 2 ^ k * 2 ^ k := by
  have hpow : 2 ^ m = 2 ^ k * 2 ^ (m - k) := by rw [← pow_add, Nat.add_sub_cancel' hk]
  have hhigh : 2 ^ m - 2 ^ k = (2 ^ (m - k) - 1) * 2 ^ k := by
    rw [Nat.sub_mul, one_mul, hpow, Nat.mul_comm]
  have hdiv : x / 2 ^ k < 2 ^ (m - k) := by
    rw [Nat.div_lt_iff_lt_mul (by positivity), Nat.mul_comm, ← hpow]
    exact hx
  apply Nat.eq_of_testBit_eq
  intro i
  rw [hhigh, Nat.testBit_and, Nat.testBit_mul_two_pow, Nat.testBit_mul_two_pow]
  by_cases hi : k ≤ i
  · have hmask : (2 ^ (m - k) - 1).testBit (i - k) = decide (i - k < m - k) :=
      Nat.testBit_two_pow_sub_one _ _
    have hshift : (x / 2 ^ k).testBit (i - k) = x.testBit i := by
      rw [Nat.testBit_div_two_pow, Nat.sub_add_cancel hi]
    simp only [hi, decide_true, Bool.true_and, hmask, hshift]
    by_cases him : i - k < m - k
    · simp [him]
    · have hxi : x.testBit i = false :=
        Nat.testBit_lt_two_pow (lt_of_lt_of_le hx (Nat.pow_le_pow_right (by norm_num) (by omega)))
      simp [hxi]
  · simp [hi]

/-- The value of a byte that is stored from an integer. -/
lemma toNat_ofNat_of_lt {n : ℕ} (h : n < 256) : (UInt8.ofNat n).toNat = n := by
  rw [UInt8.toNat_ofNat']
  exact Nat.mod_eq_of_lt h

/-- The value of the lowest byte of an integer. -/
lemma toNat_ofNat_and (x : ℕ) : (UInt8.ofNat (x &&& 0xff)).toNat = x % 256 := by
  have hmask : x &&& 0xff = x % 256 := and_mask x 8
  rw [hmask, toNat_ofNat_of_lt (Nat.mod_lt _ (by norm_num))]

end DDNet.Lib
