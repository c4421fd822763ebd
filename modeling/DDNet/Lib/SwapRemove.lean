/-
Removing an element of an array by moving the last one into its place.

The order of the others changes, so up to a permutation the element is erased (`swapRemove_perm`), and every index below
the new length but that of the hole keeps its element (`getElem?_swapRemove`).
-/
import Mathlib.Data.List.Perm.Basic
import Mathlib.Tactic.Common

namespace DDNet.Lib

variable {α : Type*}

/-- The last element is moved to an index, and the list is shortened by one. -/
def swapRemove (l : List α) (i : ℕ) : List α :=
  match l.getLast? with
  | none => []
  | some x => (l.set i x).dropLast

lemma swapRemove_eq {l : List α} {x : α} (h : l.getLast? = some x) (i : ℕ) :
    swapRemove l i = (l.set i x).dropLast := by
  rw [swapRemove, h]

@[simp] lemma length_swapRemove (l : List α) (i : ℕ) : (swapRemove l i).length = l.length - 1 := by
  rw [swapRemove]
  rcases hlast : l.getLast? with _ | x
  · rw [List.getLast?_eq_none_iff.1 hlast]
    rfl
  · simp

/-- What is where afterwards. -/
lemma getElem?_swapRemove {l : List α} {i : ℕ} (hi : i < l.length) (j : ℕ) :
    (swapRemove l i)[j]? =
      if j < l.length - 1 then if j = i then l[l.length - 1]? else l[j]? else none := by
  obtain ⟨x, hx⟩ : ∃ x, l.getLast? = some x := by
    exact ⟨_, List.getLast?_eq_some_getLast (List.length_pos_iff.1 (Nat.zero_lt_of_lt hi))⟩
  rw [swapRemove_eq hx, List.getElem?_dropLast, List.length_set]
  split_ifs with hj hji
  · rw [hji, List.getElem?_set_self hi, ← hx, List.getLast?_eq_getElem?]
  · rw [List.getElem?_set_ne (Ne.symm hji)]
  · rfl

lemma swapRemove_concat (l m : List α) (x y : α) : swapRemove (l ++ x :: (m ++ [y])) l.length = l ++ y :: m := by
  have hlast : (l ++ x :: (m ++ [y])).getLast? = some y := by
    rw [show l ++ x :: (m ++ [y]) = (l ++ x :: m) ++ [y] by simp]
    exact List.getLast?_concat
  rw [swapRemove_eq hlast, List.set_append_right _ _ (Nat.le_refl _), Nat.sub_self, List.set_cons_zero,
    show l ++ y :: (m ++ [y]) = (l ++ y :: m) ++ [y] by simp, List.dropLast_concat]

lemma swapRemove_last (l : List α) (x : α) : swapRemove (l ++ [x]) l.length = l := by
  rw [swapRemove_eq List.getLast?_concat, List.set_append_right _ _ (Nat.le_refl _), Nat.sub_self, List.set_cons_zero,
    List.dropLast_concat]

/-- Up to the order the element is erased. -/
lemma swapRemove_perm {l : List α} {i : ℕ} (hi : i < l.length) : (swapRemove l i).Perm (l.eraseIdx i) := by
  have hsplit : l.take i ++ l[i] :: l.drop (i + 1) = l := by
    rw [← List.drop_eq_getElem_cons hi, List.take_append_drop]
  have hlen : (l.take i).length = i := by
    rw [List.length_take]
    omega
  rw [List.eraseIdx_eq_take_drop_succ]
  rcases List.eq_nil_or_concat (l.drop (i + 1)) with hnil | ⟨m, y, hm⟩
  · have hlast := swapRemove_last (l.take i) l[i]
    rw [hnil] at hsplit ⊢
    rw [hsplit, hlen] at hlast
    rw [hlast, List.append_nil]
  · have hconcat := swapRemove_concat (l.take i) m l[i] y
    rw [List.concat_eq_append] at hm
    rw [hm] at hsplit ⊢
    rw [hsplit, hlen] at hconcat
    rw [hconcat]
    exact (@List.perm_append_comm _ [y] m).append_left _

/-- Removing the first occurrence of an element. -/
lemma swapRemove_idxOf_perm [DecidableEq α] {l : List α} {x : α} (hx : x ∈ l) :
    (swapRemove l (l.idxOf x)).Perm (l.erase x) := by
  rw [List.erase_eq_eraseIdx_of_idxOf rfl]
  exact swapRemove_perm (List.idxOf_lt_length_iff.2 hx)

end DDNet.Lib
