/-
Edit scripts and the Levenshtein distance.

The distance of two words is the least number of insertions, deletions and substitutions that turn one into the other.
It is computed by recursion on the first letters (`isLeast_editDistance`); it does not change if both words are reversed,
so that the recursion can as well be one on the last letters (`editDistance_reverse`).
-/
import Mathlib.Order.Bounds.Defs
import Mathlib.Order.Lattice.Nat
import Mathlib.Tactic.Common

namespace DDNet.Lib

variable {α : Type}

/-- One letter is inserted, deleted or substituted. -/
inductive Edit : List α → List α → Prop
  | insert (u : List α) (x : α) (v : List α) : Edit (u ++ v) (u ++ x :: v)
  | delete (u : List α) (x : α) (v : List α) : Edit (u ++ x :: v) (u ++ v)
  | substitute (u : List α) (x y : α) (v : List α) : Edit (u ++ x :: v) (u ++ y :: v)

/-- A word is turned into another one by a number of edits. -/
inductive Edits : ℕ → List α → List α → Prop
  | refl (a : List α) : Edits 0 a a
  | head {n : ℕ} {a b c : List α} : Edit a b → Edits n b c → Edits (n + 1) a c

variable {a b c : List α} {m n : ℕ}

/-! ### Scripts -/

lemma Edit.symm (h : Edit a b) : Edit b a := by
  cases h with
  | insert u x v => exact .delete u x v
  | delete u x v => exact .insert u x v
  | substitute u x y v => exact .substitute u y x v

lemma Edit.reverse (h : Edit a b) : Edit a.reverse b.reverse := by
  cases h with
  | insert u x v => simpa using Edit.insert v.reverse x u.reverse
  | delete u x v => simpa using Edit.delete v.reverse x u.reverse
  | substitute u x y v => simpa using Edit.substitute v.reverse x y u.reverse

lemma Edit.cons (z : α) (h : Edit a b) : Edit (z :: a) (z :: b) := by
  cases h with
  | insert u x v => exact .insert (z :: u) x v
  | delete u x v => exact .delete (z :: u) x v
  | substitute u x y v => exact .substitute (z :: u) x y v

lemma Edits.trans (hab : Edits m a b) (hbc : Edits n b c) : Edits (m + n) a c := by
  induction hab with
  | refl a => rwa [Nat.zero_add]
  | head hedit _ ih =>
    rw [Nat.add_right_comm]
    exact .head hedit (ih hbc)

lemma Edits.symm (h : Edits n a b) : Edits n b a := by
  induction h with
  | refl a => exact .refl a
  | head hedit _ ih => exact ih.trans (.head hedit.symm (.refl _))

lemma Edits.reverse (h : Edits n a b) : Edits n a.reverse b.reverse := by
  induction h with
  | refl a => exact .refl _
  | head hedit _ ih => exact .head hedit.reverse ih

lemma Edits.cons (z : α) (h : Edits n a b) : Edits n (z :: a) (z :: b) := by
  induction h with
  | refl a => exact .refl _
  | head hedit _ ih => exact .head (hedit.cons z) ih

/-! ### The distance -/

variable [DecidableEq α]

/-- The distance of two words, by their first letters. -/
def editDistance : List α → List α → ℕ
  | [], b => b.length
  | a, [] => a.length
  | x :: a, y :: b =>
    min (editDistance a (y :: b) + 1)
      (min (editDistance (x :: a) b + 1) (editDistance a b + if x = y then 0 else 1))
termination_by a b => a.length + b.length

@[simp] lemma editDistance_nil_left (b : List α) : editDistance [] b = b.length := by
  cases b <;> rw [editDistance]

@[simp] lemma editDistance_nil_right (a : List α) : editDistance a [] = a.length := by
  cases a
  · rw [editDistance]
  · rw [editDistance]
    exact List.cons_ne_nil _ _

lemma editDistance_cons (x y : α) (a b : List α) :
    editDistance (x :: a) (y :: b) =
      min (editDistance a (y :: b) + 1)
        (min (editDistance (x :: a) b + 1) (editDistance a b + if x = y then 0 else 1)) := by
  rw [editDistance]

lemma editDistance_self (a : List α) : editDistance a a = 0 := by
  induction a with
  | nil => exact editDistance_nil_left []
  | cons x a ih =>
    rw [editDistance_cons, ih, if_pos rfl]
    omega

/-- The distance is reached by a script. -/
lemma edits_editDistance (a b : List α) : Edits (editDistance a b) a b := by
  induction a generalizing b with
  | nil =>
    rw [editDistance_nil_left]
    induction b with
    | nil => exact .refl _
    | cons y b ih => exact ih.trans (.head (.insert [] y b) (.refl _))
  | cons x a iha =>
    induction b with
    | nil =>
      have h := iha []
      rw [editDistance_nil_right] at h ⊢
      exact .head (.delete [] x a) h
    | cons y b ihb =>
      have hdelete : Edits (editDistance a (y :: b) + 1) (x :: a) (y :: b) := .head (.delete [] x a) (iha (y :: b))
      have hinsert : Edits (editDistance (x :: a) b + 1) (x :: a) (y :: b) := .head (.insert [] y (x :: a)) (ihb.cons y)
      have hkeep : Edits (editDistance a b + if x = y then 0 else 1) (x :: a) (y :: b) := by
        split_ifs with hxy
        · subst hxy
          exact (iha b).cons x
        · exact .head (.substitute [] x y a) ((iha b).cons y)
      rw [editDistance_cons]
      rcases min_choice (editDistance (x :: a) b + 1) (editDistance a b + if x = y then 0 else 1) with h | h
      · rw [h]
        rcases min_choice (editDistance a (y :: b) + 1) (editDistance (x :: a) b + 1) with h | h
        · rwa [h]
        · rwa [h]
      · rw [h]
        rcases min_choice (editDistance a (y :: b) + 1) (editDistance a b + if x = y then 0 else 1) with h | h
        · rwa [h]
        · rwa [h]

lemma editDistance_cons_right_le (y : α) (a b : List α) : editDistance a (y :: b) ≤ editDistance a b + 1 := by
  cases a with
  | nil =>
    rw [editDistance_nil_left, editDistance_nil_left]
    exact le_rfl
  | cons x a =>
    rw [editDistance_cons]
    exact (min_le_right _ _).trans (min_le_left _ _)

lemma editDistance_cons_left_le (x : α) (a b : List α) : editDistance (x :: a) b ≤ editDistance a b + 1 := by
  cases b with
  | nil =>
    rw [editDistance_nil_right, editDistance_nil_right]
    exact le_rfl
  | cons y b =>
    rw [editDistance_cons]
    exact min_le_left _ _

lemma editDistance_le_cons_left (x : α) (a b : List α) : editDistance a b ≤ editDistance (x :: a) b + 1 := by
  induction b with
  | nil =>
    rw [editDistance_nil_right, editDistance_nil_right, List.length_cons]
    omega
  | cons y b ih =>
    have hright := editDistance_cons_right_le y a b
    rw [editDistance_cons]
    omega

lemma editDistance_substitute_le (x x' : α) (a b : List α) :
    editDistance (x :: a) b ≤ editDistance (x' :: a) b + 1 := by
  induction b with
  | nil =>
    rw [editDistance_nil_right, editDistance_nil_right, List.length_cons, List.length_cons]
    omega
  | cons y b ih =>
    rw [editDistance_cons, editDistance_cons]
    split_ifs <;> omega

/-- Words that are close stay close behind a letter. -/
lemma editDistance_cons_le {a a' : List α} (h : ∀ b, editDistance a b ≤ editDistance a' b + 1) (z : α) (b : List α) :
    editDistance (z :: a) b ≤ editDistance (z :: a') b + 1 := by
  induction b with
  | nil =>
    have hnil := h []
    rw [editDistance_nil_right, editDistance_nil_right] at hnil ⊢
    exact Nat.succ_le_succ hnil
  | cons y b ih =>
    have hall := h (y :: b)
    have hrest := h b
    rw [editDistance_cons, editDistance_cons]
    omega

/-- An edit changes the distance by no more than one. -/
lemma Edit.editDistance_le (h : Edit a b) (c : List α) : editDistance a c ≤ editDistance b c + 1 := by
  have happend : ∀ (u : List α) {s t : List α}, (∀ c, editDistance s c ≤ editDistance t c + 1) →
      ∀ c, editDistance (u ++ s) c ≤ editDistance (u ++ t) c + 1 := by
    intro u s t hst
    induction u with
    | nil => exact hst
    | cons z u ih => exact editDistance_cons_le ih z
  cases h with
  | insert u x v => exact happend u (editDistance_le_cons_left x v) c
  | delete u x v => exact happend u (editDistance_cons_left_le x v) c
  | substitute u x y v => exact happend u (editDistance_substitute_le x y v) c

/-- No script is shorter than the distance. -/
lemma Edits.editDistance_le (h : Edits n a b) : editDistance a b ≤ n := by
  induction h with
  | refl a => rw [editDistance_self]
  | head hedit _ ih => exact (hedit.editDistance_le _).trans (Nat.succ_le_succ ih)

/-- The distance is the least number of edits that turn one word into the other. -/
theorem isLeast_editDistance (a b : List α) : IsLeast {n | Edits n a b} (editDistance a b) :=
  ⟨edits_editDistance a b, fun _ h => h.editDistance_le⟩

lemma editDistance_comm (a b : List α) : editDistance a b = editDistance b a :=
  le_antisymm (edits_editDistance b a).symm.editDistance_le (edits_editDistance a b).symm.editDistance_le

lemma editDistance_triangle (a b c : List α) : editDistance a c ≤ editDistance a b + editDistance b c :=
  ((edits_editDistance a b).trans (edits_editDistance b c)).editDistance_le

lemma editDistance_reverse (a b : List α) : editDistance a.reverse b.reverse = editDistance a b := by
  refine le_antisymm (edits_editDistance a b).reverse.editDistance_le ?_
  have h := (edits_editDistance a.reverse b.reverse).reverse.editDistance_le
  rwa [List.reverse_reverse, List.reverse_reverse] at h

end DDNet.Lib
