/-
JSON texts as lists of bytes: the grammar, and a layout with every member and every element on a line of its own.

A `Fragment` is the text of a value at an indentation.  The layout of an object or an array from the fragments of its
members or elements is a value of the grammar if they are (`isValue_object`, `isValue_array`), and its length is a sum over
them (`length_block`).
-/
import Mathlib.Data.List.Basic
import Mathlib.Algebra.BigOperators.Group.List.Basic
import Mathlib.Tactic.Common
import Mathlib.Tactic.IntervalCases

namespace DDNet.Lib.Json

/-! ### The grammar -/

/-- Insignificant whitespace. -/
def IsWs (s : List UInt8) : Prop := ∀ c ∈ s, c = 32 ∨ c = 9 ∨ c = 10 ∨ c = 13

/-- A decimal digit. -/
def IsDigit (c : UInt8) : Prop := 48 ≤ c ∧ c ≤ 57

/-- A hexadecimal digit. -/
def IsHex (c : UInt8) : Prop := IsDigit c ∨ 65 ≤ c ∧ c ≤ 70 ∨ 97 ≤ c ∧ c ≤ 102

instance (c : UInt8) : Decidable (IsDigit c) := inferInstanceAs (Decidable (_ ∧ _))

instance (c : UInt8) : Decidable (IsHex c) := inferInstanceAs (Decidable (_ ∨ _))

/-- What stands between the quotes of a string. -/
inductive IsChars : List UInt8 → Prop
  | nil : IsChars []
  | char {c : UInt8} {s : List UInt8} (hc : 32 ≤ c) (hquote : c ≠ 34) (hbackslash : c ≠ 92) (hs : IsChars s) :
      IsChars (c :: s)
  | escape {c : UInt8} {s : List UInt8} (hc : c ∈ [34, 92, 47, 98, 102, 110, 114, 116]) (hs : IsChars s) :
      IsChars (92 :: c :: s)
  | unicode {digits s : List UInt8} (hlen : digits.length = 4) (hdigits : ∀ d ∈ digits, IsHex d) (hs : IsChars s) :
      IsChars (92 :: 117 :: (digits ++ s))

/-- A string with its quotes. -/
inductive IsString : List UInt8 → Prop
  | mk {s : List UInt8} (hs : IsChars s) : IsString (34 :: (s ++ [34]))

/-- Digits without a leading zero. -/
inductive IsNat : List UInt8 → Prop
  | zero : IsNat [48]
  | pos {c : UInt8} {s : List UInt8} (hc : 49 ≤ c ∧ c ≤ 57) (hs : ∀ d ∈ s, IsDigit d) : IsNat (c :: s)

/-- At least one digit. -/
def IsDigits (s : List UInt8) : Prop := s ≠ [] ∧ ∀ d ∈ s, IsDigit d

/-- A number: a minus, the integer, the fraction and the exponent. -/
inductive IsNumber : List UInt8 → Prop
  | mk {sign int frac exp : List UInt8} (hsign : sign = [] ∨ sign = [45]) (hint : IsNat int)
      (hfrac : frac = [] ∨ ∃ d, IsDigits d ∧ frac = 46 :: d)
      (hexp : exp = [] ∨ ∃ e s d, (e = 69 ∨ e = 101) ∧ (s = [] ∨ s = [43] ∨ s = [45]) ∧ IsDigits d ∧ exp = e :: (s ++ d)) :
      IsNumber (sign ++ int ++ frac ++ exp)

mutual

/-- A value. -/
inductive IsValue : List UInt8 → Prop
  | string {s : List UInt8} (hs : IsString s) : IsValue s
  | number {s : List UInt8} (hs : IsNumber s) : IsValue s
  | litTrue : IsValue [116, 114, 117, 101]
  | litFalse : IsValue [102, 97, 108, 115, 101]
  | litNull : IsValue [110, 117, 108, 108]
  | emptyObject {w : List UInt8} (hw : IsWs w) : IsValue (123 :: (w ++ [125]))
  | object {m : List UInt8} (hm : IsMembers m) : IsValue (123 :: (m ++ [125]))
  | emptyArray {w : List UInt8} (hw : IsWs w) : IsValue (91 :: (w ++ [93]))
  | array {m : List UInt8} (hm : IsElements m) : IsValue (91 :: (m ++ [93]))

/-- A name with its value. -/
inductive IsMember : List UInt8 → Prop
  | mk {name w₁ w₂ value : List UInt8} (hname : IsString name) (hw₁ : IsWs w₁) (hw₂ : IsWs w₂) (hvalue : IsValue value) :
      IsMember (name ++ w₁ ++ 58 :: (w₂ ++ value))

/-- The members of an object. -/
inductive IsMembers : List UInt8 → Prop
  | last {w₁ s w₂ : List UInt8} (hw₁ : IsWs w₁) (hs : IsMember s) (hw₂ : IsWs w₂) : IsMembers (w₁ ++ s ++ w₂)
  | cons {w₁ s w₂ m : List UInt8} (hw₁ : IsWs w₁) (hs : IsMember s) (hw₂ : IsWs w₂) (hm : IsMembers m) :
      IsMembers (w₁ ++ s ++ w₂ ++ 44 :: m)

/-- The elements of an array. -/
inductive IsElements : List UInt8 → Prop
  | last {w₁ s w₂ : List UInt8} (hw₁ : IsWs w₁) (hs : IsValue s) (hw₂ : IsWs w₂) : IsElements (w₁ ++ s ++ w₂)
  | cons {w₁ s w₂ m : List UInt8} (hw₁ : IsWs w₁) (hs : IsValue s) (hw₂ : IsWs w₂) (hm : IsElements m) :
      IsElements (w₁ ++ s ++ w₂ ++ 44 :: m)

end

/-- A JSON text. -/
def IsText (s : List UInt8) : Prop := ∃ w₁ v w₂, IsWs w₁ ∧ IsValue v ∧ IsWs w₂ ∧ s = w₁ ++ v ++ w₂

/-! ### Integers -/

/-- The decimal digits of a number. -/
def decimal (n : ℕ) : List UInt8 := (Nat.toDigits 10 n).map fun c => UInt8.ofNat c.toNat

/-- An integer in decimal. -/
def integer (i : ℤ) : List UInt8 := if i < 0 then 45 :: decimal i.natAbs else decimal i.natAbs

lemma decimal_digit {n : ℕ} (hn : n < 10) : UInt8.ofNat n.digitChar.toNat = UInt8.ofNat (48 + n) := by
  interval_cases n <;> rfl

lemma isDigit_ofNat {n : ℕ} (hn : n < 10) : IsDigit (UInt8.ofNat (48 + n)) := by
  interval_cases n <;> decide

lemma decimal_of_lt {n : ℕ} (hn : n < 10) : decimal n = [UInt8.ofNat (48 + n)] := by
  rw [decimal, Nat.toDigits_of_lt_base hn, List.map_singleton, decimal_digit hn]

lemma decimal_of_le {n : ℕ} (hn : 10 ≤ n) : decimal n = decimal (n / 10) ++ [UInt8.ofNat (48 + n % 10)] := by
  rw [decimal, Nat.toDigits_of_base_le (by norm_num) hn, List.map_append, List.map_singleton,
    decimal_digit (Nat.mod_lt _ (by norm_num)), decimal]

/-- The digits of a positive number do not start with a zero. -/
lemma decimal_pos {n : ℕ} (hn : 0 < n) : ∃ c s, decimal n = c :: s ∧ (49 ≤ c ∧ c ≤ 57) ∧ ∀ d ∈ s, IsDigit d := by
  induction n using Nat.strong_induction_on with
  | _ n ih =>
    rcases Nat.lt_or_ge n 10 with hlt | hge
    · refine ⟨_, [], decimal_of_lt hlt, ?_, by simp⟩
      interval_cases n <;> decide
    · obtain ⟨c, s, heq, hc, hs⟩ := ih (n / 10) (Nat.div_lt_self hn (by norm_num)) (Nat.div_pos hge (by norm_num))
      refine ⟨c, s ++ [UInt8.ofNat (48 + n % 10)], by rw [decimal_of_le hge, heq, List.cons_append], hc, ?_⟩
      rw [List.forall_mem_append, List.forall_mem_singleton]
      exact ⟨hs, isDigit_ofNat (Nat.mod_lt _ (by norm_num))⟩

lemma isNat_decimal (n : ℕ) : IsNat (decimal n) := by
  rcases Nat.eq_zero_or_pos n with rfl | hn
  · exact IsNat.zero
  · obtain ⟨c, s, heq, hc, hs⟩ := decimal_pos hn
    exact heq ▸ IsNat.pos hc hs

/-- An integer is a value. -/
lemma isValue_integer (i : ℤ) : IsValue (integer i) := by
  have hnumber : ∀ sign, sign = [] ∨ sign = [45] → IsValue (sign ++ decimal i.natAbs) := by
    intro sign hsign
    have := IsNumber.mk hsign (isNat_decimal i.natAbs) (.inl rfl) (.inl rfl)
    rw [List.append_nil, List.append_nil] at this
    exact IsValue.number this
  rw [integer]
  split_ifs
  · exact hnumber [45] (.inr rfl)
  · exact hnumber [] (.inl rfl)

/-! ### The layout -/

/-- The text of a value or a member at an indentation. -/
abbrev Fragment := ℕ → List UInt8

/-- The end of the line, and the indentation of the next one. -/
def line (n : ℕ) : List UInt8 := 10 :: List.replicate n 9

/-- Items on lines of their own; the first one has a comma in front of it unless it is the first of all. -/
def items (n : ℕ) : Bool → List Fragment → List UInt8
  | _, [] => []
  | first, f :: l => (if first then [] else [44]) ++ line n ++ f n ++ items n false l

/-- The items between brackets. -/
def block (left right : UInt8) (l : List Fragment) : Fragment :=
  fun n => left :: (items (n + 1) true l ++ line n ++ [right])

/-- An object. -/
def object (l : List Fragment) : Fragment := block 123 125 l

/-- An array. -/
def array (l : List Fragment) : Fragment := block 91 93 l

/-- A member of an object. -/
def member (name : List UInt8) (value : Fragment) : Fragment := fun n => name ++ [58, 32] ++ value n

lemma isWs_line (n : ℕ) : IsWs (line n) := by
  intro c hc
  rcases List.mem_cons.1 hc with rfl | hc
  · exact .inr (.inr (.inl rfl))
  · exact .inr (.inl (List.eq_of_mem_replicate hc))

lemma items_append (n : ℕ) (first : Bool) (l l' : List Fragment) :
    items n first (l ++ l') = items n first l ++ items n (first && l.isEmpty) l' := by
  cases l with
  | nil => simp [items]
  | cons f l =>
    have htail : ∀ l, items n false (l ++ l') = items n false l ++ items n false l' := by
      intro l
      induction l with
      | nil => rfl
      | cons g l ih => simp only [List.cons_append, items, ih, List.append_assoc]
    simp only [List.cons_append, items, htail, List.append_assoc, List.isEmpty_cons, Bool.and_false]

/-- A member with a value is a member. -/
lemma isMember_member {name : List UInt8} {f : Fragment} {n : ℕ} (hname : IsString name) (hf : IsValue (f n)) :
    IsMember (member name f n) := by
  have hmem := @IsMember.mk name [] [32] (f n) hname (by simp [IsWs]) (by simp [IsWs]) hf
  rw [List.append_nil] at hmem
  rw [member, List.append_assoc]
  exact hmem

/-- Items that are members are the members of an object. -/
lemma isMembers_items {n : ℕ} {w : List UInt8} (hw : IsWs w) (f : Fragment) (l : List Fragment)
    (hl : ∀ g ∈ f :: l, IsMember (g n)) : IsMembers (items n true (f :: l) ++ w) := by
  induction l generalizing f with
  | nil =>
    have := IsMembers.last (isWs_line n) (hl f List.mem_cons_self) hw
    simpa [items] using this
  | cons g l ih =>
    have := IsMembers.cons (isWs_line n) (hl f List.mem_cons_self) (show IsWs [] by simp [IsWs])
      (ih g fun x hx => hl x (List.mem_cons_of_mem _ hx))
    simpa [items] using this

/-- Items that are values are the elements of an array. -/
lemma isElements_items {n : ℕ} {w : List UInt8} (hw : IsWs w) (f : Fragment) (l : List Fragment)
    (hl : ∀ g ∈ f :: l, IsValue (g n)) : IsElements (items n true (f :: l) ++ w) := by
  induction l generalizing f with
  | nil =>
    have := IsElements.last (isWs_line n) (hl f List.mem_cons_self) hw
    simpa [items] using this
  | cons g l ih =>
    have := IsElements.cons (isWs_line n) (hl f List.mem_cons_self) (show IsWs [] by simp [IsWs])
      (ih g fun x hx => hl x (List.mem_cons_of_mem _ hx))
    simpa [items] using this

/-- The layout of an object is a value. -/
lemma isValue_object {l : List Fragment} {n : ℕ} (hl : ∀ f ∈ l, IsMember (f (n + 1))) : IsValue (object l n) := by
  rw [object, block]
  cases l with
  | nil => exact IsValue.emptyObject (isWs_line n)
  | cons f l => exact IsValue.object (isMembers_items (isWs_line n) f l hl)

/-- The layout of an array is a value. -/
lemma isValue_array {l : List Fragment} {n : ℕ} (hl : ∀ f ∈ l, IsValue (f (n + 1))) : IsValue (array l n) := by
  rw [array, block]
  cases l with
  | nil => exact IsValue.emptyArray (isWs_line n)
  | cons f l => exact IsValue.array (isElements_items (isWs_line n) f l hl)

/-! ### The length of a layout -/

@[simp] lemma length_line (n : ℕ) : (line n).length = n + 1 := by simp [line]

@[simp] lemma length_member (name : List UInt8) (f : Fragment) (n : ℕ) :
    (member name f n).length = name.length + 2 + (f n).length := by
  simp only [member, List.length_append, List.length_cons, List.length_nil]

lemma length_items_false (n : ℕ) (l : List Fragment) :
    (items n false l).length = (l.map fun f => (f n).length + n + 2).sum := by
  induction l with
  | nil => rfl
  | cons f l ih =>
    rw [items, List.length_append, ih, List.map_cons, List.sum_cons]
    simp only [Bool.false_eq_true, if_false, List.length_append, List.length_singleton, length_line]
    omega

/-- A line for every item and one for the bracket, and commas between the items. -/
lemma length_block (left right : UInt8) (l : List Fragment) (n : ℕ) :
    (block left right l n).length + (if l = [] then 0 else 1) =
      (l.map fun f => (f (n + 1)).length + n + 3).sum + n + 3 := by
  cases l with
  | nil => simp [block, items]
  | cons f l =>
    have htail := length_items_false (n + 1) l
    have hsum : (l.map fun f => (f (n + 1)).length + (n + 1) + 2) = l.map fun f => (f (n + 1)).length + n + 3 :=
      List.map_congr_left fun f _ => by omega
    rw [hsum] at htail
    rw [block, items, if_neg (List.cons_ne_nil _ _), List.map_cons, List.sum_cons]
    simp only [if_true, List.length_cons, List.length_append, List.length_nil, length_line, htail]
    omega

end DDNet.Lib.Json
