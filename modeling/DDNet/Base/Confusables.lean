/-
Names that look the same (`base/unicode/confusables.cpp`).

A string is compared by its skeleton, in which every code point of the table of confusables is replaced by the code points
it looks like.  The table is generated data; what it says about parentheses and digits is part of its type.
-/
import DDNet.Base.Str
import DDNet.Lib.Json

namespace DDNet

open Utf8 Lib.Json

/-- What the digits look like: `0` like the letter O, and `1` like the letter i. -/
def digitSkeleton (c : ℤ) : ℤ := if c = 48 then 79 else if c = 49 then 105 else c

/-- The table of `confusables_data.h`. -/
structure Confusables where
  /-- `str_utf8_skeleton`; `none` for a code point that is not in the table. -/
  decomp : ℤ → Option (List ℤ)
  decomp_ne_zero : ∀ c s, decomp c = some s → ∀ d ∈ s, d ≠ 0
  decomp_paren : decomp 40 = none ∧ decomp 41 = none
  decomp_digit : ∀ c, 48 ≤ c → c ≤ 57 → (decomp c).getD [c] = [digitSkeleton c]

namespace Confusables

variable (table : Confusables)

/-- The code points that `str_utf8_skeleton_next` returns. -/
def skeleton (str : List UInt8) : List ℤ :=
  match str with
  | [] => []
  | b :: str' =>
    let r := strUtf8Decode (b :: str')
    if r.1 = 0 then [] else (table.decomp r.1).getD [r.1] ++ skeleton r.2
termination_by str.length
decreasing_by exact strUtf8Decode_length b str'

/-- The loop of `str_utf8_comp_confusable`. -/
def compSkeletons : List ℤ → List ℤ → ℤ
  | [], [] => 0
  | [], _ :: _ => 1
  | _ :: _, [] => 1
  | ch1 :: skel1, ch2 :: skel2 => if ch1 ≠ ch2 then 1 else compSkeletons skel1 skel2

/-- `str_utf8_comp_confusable`. -/
def strUtf8CompConfusable (str1 str2 : List UInt8) : ℤ := compSkeletons (table.skeleton str1) (table.skeleton str2)

lemma compSkeletons_eq_zero {skel1 skel2 : List ℤ} : compSkeletons skel1 skel2 = 0 ↔ skel1 = skel2 := by
  induction skel1 generalizing skel2 with
  | nil => cases skel2 <;> simp [compSkeletons]
  | cons ch1 skel1 ih =>
    cases skel2 with
    | nil => simp [compSkeletons]
    | cons ch2 skel2 =>
      rw [compSkeletons, List.cons.injEq, ← ih]
      by_cases hch : ch1 = ch2 <;> simp [hch]

lemma strUtf8CompConfusable_eq_zero {str1 str2 : List UInt8} :
    table.strUtf8CompConfusable str1 str2 = 0 ↔ table.skeleton str1 = table.skeleton str2 := compSkeletons_eq_zero

/-! ### Numbers in parentheses -/

/-- The skeleton of an ASCII character before the rest of the string. -/
lemma skeleton_cons {b : UInt8} (hb : b ≠ 0) (hascii : b < 128) (str : List UInt8) :
    table.skeleton (b :: str) = (table.decomp b.toNat).getD [(b.toNat : ℤ)] ++ table.skeleton str := by
  have hle : b.toNat ≤ 0x7F := Nat.le_of_lt_succ (UInt8.lt_iff_toNat_lt.1 hascii)
  have hdecode : strUtf8Decode (b :: str) = ((b.toNat : ℤ), str) := by rw [strUtf8Decode, if_pos hle]
  have hne : (b.toNat : ℤ) ≠ 0 := fun h => hb (UInt8.toNat_inj.1 (by rw [Int.ofNat_eq_zero.1 h]; rfl))
  rw [skeleton, hdecode]
  dsimp only
  rw [if_neg hne]

lemma skeleton_digits {digits : List UInt8} (hdigits : ∀ d ∈ digits, IsDigit d) (str : List UInt8) :
    table.skeleton (digits ++ str) = digits.map (fun d => digitSkeleton d.toNat) ++ table.skeleton str := by
  induction digits with
  | nil => rfl
  | cons d digits ih =>
    obtain ⟨hlow, hhigh⟩ := hdigits d List.mem_cons_self
    rw [UInt8.le_iff_toNat_le] at hlow hhigh
    have hlow' : 48 ≤ d.toNat := hlow
    have hhigh' : d.toNat ≤ 57 := hhigh
    have hne : d ≠ 0 := by
      rintro rfl
      exact absurd hlow' (by decide)
    have hascii : d < 128 := UInt8.lt_iff_toNat_lt.2 (Nat.lt_of_le_of_lt hhigh' (by decide))
    rw [List.cons_append, table.skeleton_cons hne hascii, table.decomp_digit _ (by omega) (by omega),
      ih fun d hd => hdigits d (List.mem_cons_of_mem _ hd)]
    rfl

/-- The number that the digits stand for. -/
def digitsValue (digits : List UInt8) : ℕ := digits.foldl (fun value d => 10 * value + (d.toNat - 48)) 0

lemma digitsValue_decimal (n : ℕ) : digitsValue (decimal n) = n := by
  have hdigit : ∀ k, k < 10 → (UInt8.ofNat (48 + k)).toNat - 48 = k := by
    intro k hk
    rw [UInt8.toNat_ofNat']
    omega
  induction n using Nat.strong_induction_on with
  | _ n ih =>
    by_cases hlt : n < 10
    · rw [decimal_of_lt hlt, digitsValue, List.foldl_cons, List.foldl_nil, hdigit n hlt, Nat.mul_zero, Nat.zero_add]
    · rw [decimal_of_le (not_lt.1 hlt), digitsValue, List.foldl_append, ← digitsValue, ih _ (by omega),
        List.foldl_cons, List.foldl_nil, hdigit _ (Nat.mod_lt _ (by norm_num))]
      omega

lemma decimal_injective {i j : ℕ} (h : decimal i = decimal j) : i = j := by
  rw [← digitsValue_decimal i, h, digitsValue_decimal]

lemma isDigit_decimal {n : ℕ} (hn : 0 < n) : ∀ d ∈ decimal n, IsDigit d := by
  obtain ⟨c, s, heq, ⟨hlow, hhigh⟩, hs⟩ := decimal_pos hn
  intro d hd
  rw [heq] at hd
  obtain rfl | hd := List.mem_cons.1 hd
  · exact ⟨UInt8.le_trans (by decide : (48 : UInt8) ≤ 49) hlow, hhigh⟩
  · exact hs d hd

lemma digitSkeleton_injective {c d : UInt8} (hc : IsDigit c) (hd : IsDigit d)
    (h : digitSkeleton c.toNat = digitSkeleton d.toNat) : c = d := by
  have hle : ∀ {x : UInt8}, IsDigit x → 48 ≤ x.toNat ∧ x.toNat ≤ 57 := fun hx =>
    ⟨UInt8.le_iff_toNat_le.1 hx.1, UInt8.le_iff_toNat_le.1 hx.2⟩
  obtain ⟨hc1, hc2⟩ := hle hc
  obtain ⟨hd1, hd2⟩ := hle hd
  rw [digitSkeleton, digitSkeleton] at h
  refine UInt8.toNat_inj.1 ?_
  split_ifs at h <;> omega

lemma map_digitSkeleton_injective {cs ds : List UInt8} (hcs : ∀ c ∈ cs, IsDigit c) (hds : ∀ d ∈ ds, IsDigit d)
    (h : cs.map (fun c => digitSkeleton c.toNat) = ds.map fun d => digitSkeleton d.toNat) : cs = ds := by
  induction cs generalizing ds with
  | nil => exact (List.map_eq_nil_iff.1 h.symm).symm
  | cons c cs ih =>
    cases ds with
    | nil => exact absurd h (List.cons_ne_nil _ _)
    | cons d ds =>
      rw [List.map_cons, List.map_cons, List.cons.injEq] at h
      rw [digitSkeleton_injective (hcs c List.mem_cons_self) (hds d List.mem_cons_self) h.1,
        ih (fun c hc => hcs c (List.mem_cons_of_mem _ hc)) (fun d hd => hds d (List.mem_cons_of_mem _ hd)) h.2]

/-- Different numbers in parentheses before the names make them look different. -/
lemma number_unique {i j : ℕ} (hi : 0 < i) (hj : 0 < j) {name name' : List UInt8}
    (h : table.skeleton (40 :: (decimal i ++ 41 :: name)) = table.skeleton (40 :: (decimal j ++ 41 :: name'))) :
    i = j := by
  have hskeleton : ∀ n : ℕ, 0 < n → ∀ rest : List UInt8, table.skeleton (40 :: (decimal n ++ 41 :: rest)) =
      40 :: ((decimal n).map (fun d => digitSkeleton d.toNat) ++ 41 :: table.skeleton rest) := by
    intro n hn rest
    have hopen : table.decomp ((40 : UInt8).toNat : ℤ) = none := table.decomp_paren.1
    have hclose : table.decomp ((41 : UInt8).toNat : ℤ) = none := table.decomp_paren.2
    rw [table.skeleton_cons (by decide) (by decide), hopen, table.skeleton_digits (isDigit_decimal hn),
      table.skeleton_cons (by decide) (by decide), hclose]
    rfl
  have hnotMem : ∀ n : ℕ, 0 < n → ∀ c ∈ (decimal n).map fun d => digitSkeleton d.toNat, (c != 41) = true := by
    intro n hn c hc
    obtain ⟨d, hd, rfl⟩ := List.mem_map.1 hc
    obtain ⟨hlow, hhigh⟩ := isDigit_decimal hn d hd
    rw [UInt8.le_iff_toNat_le] at hlow
    have hlow' : 48 ≤ d.toNat := hlow
    rw [bne_iff_ne, digitSkeleton]
    split_ifs <;> omega
  rw [hskeleton i hi, hskeleton j hj, List.cons.injEq] at h
  -- the digits end at the closing parenthesis
  have htake := congrArg (List.takeWhile (· != 41)) h.2
  rw [List.takeWhile_append_of_pos (hnotMem i hi), List.takeWhile_append_of_pos (hnotMem j hj)] at htake
  have hmap : (decimal i).map (fun d => digitSkeleton d.toNat) = (decimal j).map fun d => digitSkeleton d.toNat := by
    simpa using htake
  exact decimal_injective (map_digitSkeleton_injective (isDigit_decimal hi) (isDigit_decimal hj) hmap)

end Confusables

end DDNet
