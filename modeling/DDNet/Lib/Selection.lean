/-
Partial selection: a list whose first elements are not behind the others in the order of a key.

Nothing is said about the order within the two parts.  How many of the first elements have a small key is known all the
same (`NthElement.countP_take`).
-/
import Mathlib.Data.List.Sort
import Mathlib.Order.Defs.LinearOrder

namespace DDNet.Lib

variable {α β : Type} [LinearOrder β]

/-- The list `l'` holds the elements of `l`, and none of its first `k` has a higher key than one of the others. -/
structure NthElement (key : α → β) (k : ℕ) (l l' : List α) : Prop where
  perm : l'.Perm l
  le : ∀ a ∈ l'.take k, ∀ b ∈ l'.drop k, key a ≤ key b

namespace NthElement

variable {key : α → β} {k : ℕ} {l l' : List α}

/-- A sorted list is selected at each place. -/
theorem of_pairwise (hperm : l'.Perm l) (hsorted : l'.Pairwise fun a b => key a ≤ key b) (k : ℕ) :
    NthElement key k l l' := by
  rw [← List.take_append_drop k l'] at hsorted
  exact ⟨hperm, fun a ha b hb => (List.pairwise_append.1 hsorted).2.2 a ha b hb⟩

lemma mem (h : NthElement key k l l') {a : α} (ha : a ∈ l'.take k) : a ∈ l :=
  h.perm.mem_iff.1 (List.mem_of_mem_take ha)

lemma nodup_take (h : NthElement key k l l') (hl : l.Nodup) : (l'.take k).Nodup :=
  (h.perm.nodup_iff.2 hl).sublist (List.take_sublist k l')

lemma length_take (h : NthElement key k l l') (hk : k ≤ l.length) : (l'.take k).length = k := by
  rw [List.length_take, h.perm.length_eq, Nat.min_eq_left hk]

/-- An element that is not among the first ones has a key that is not below theirs. -/
lemma le_of_notMem (h : NthElement key k l l') {a b : α} (ha : a ∈ l'.take k) (hb : b ∈ l) (hnot : b ∉ l'.take k) :
    key a ≤ key b := by
  have hb' : b ∈ l' := h.perm.mem_iff.2 hb
  rw [← List.take_append_drop k l', List.mem_append] at hb'
  exact h.le a ha b (hb'.resolve_left hnot)

/-- The first ones hold as many small keys as they can. -/
theorem countP_take (h : NthElement key k l l') (hk : k ≤ l.length) (p : β → Prop) [DecidablePred p]
    (hp : ∀ x y, x ≤ y → p y → p x) :
    (l'.take k).countP (fun a => p (key a)) = min k (l.countP fun a => p (key a)) := by
  have hsplit : l.countP (fun a => p (key a)) =
      (l'.take k).countP (fun a => p (key a)) + (l'.drop k).countP fun a => p (key a) := by
    rw [← List.countP_append, List.take_append_drop, h.perm.countP_eq]
  have hlength := h.length_take hk
  have hle := List.countP_le_length (p := fun a => decide (p (key a))) (l := l'.take k)
  by_cases hdrop : ∃ b ∈ l'.drop k, p (key b)
  · -- a small key that is left out: all of the first ones are small
    obtain ⟨b, hb, hpb⟩ := hdrop
    have hall : (l'.take k).countP (fun a => p (key a)) = k := by
      conv_rhs => rw [← hlength]
      exact List.countP_eq_length.2 fun a ha => decide_eq_true (hp _ _ (h.le a ha b hb) hpb)
    omega
  · have hnone : (l'.drop k).countP (fun a => p (key a)) = 0 :=
      List.countP_eq_zero.2 fun b hb hpb => hdrop ⟨b, hb, of_decide_eq_true hpb⟩
    omega

end NthElement

end DDNet.Lib
