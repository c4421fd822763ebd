/-
An index and its inverse.

`owner` gives each entry `a` the key it belongs to, `members` gives each key the list of its
entries.  The two say the same if the members of a key are exactly the entries it owns; the list of
a key is kept sorted, and a key without entries has no list.  An entry changes its key by being
detached from the old key and attached to the new one.
-/
import Mathlib.Order.Lattice
import Mathlib.Logic.Function.Basic
import Mathlib.Data.List.Sort

open Function

namespace DDNet

variable {α κ : Type*} [LinearOrder α] [DecidableEq κ]
variable {owner : α → Option κ} {members : κ → Option (List α)} {a : α} {k : κ} {l : List α}

/-- `members` lists, key by key, the entries that `owner` gives to the key. -/
structure Inverse (owner : α → Option κ) (members : κ → Option (List α)) : Prop where
  mem_iff : ∀ k a, (∃ l, members k = some l ∧ a ∈ l) ↔ owner a = some k
  ne_nil : ∀ k l, members k = some l → l ≠ []
  sorted : ∀ k l, members k = some l → l.Pairwise (· < ·)

namespace Inverse

/-! ### Looking up -/

lemma mem (h : Inverse owner members) (hl : members k = some l) : a ∈ l ↔ owner a = some k := by
  rw [← h.mem_iff k a]
  constructor
  · intro ha
    exact ⟨l, hl, ha⟩
  · rintro ⟨l', hl', ha⟩
    rwa [Option.some.inj (hl.symm.trans hl')]

/-- The key of an entry has a list, and the entry is in it. -/
lemma exists_members (h : Inverse owner members) (ha : owner a = some k) : ∃ l, members k = some l ∧ a ∈ l :=
  (h.mem_iff k a).mpr ha

lemma ne_of_members_none (h : Inverse owner members) (hk : members k = none) : owner a ≠ some k := by
  intro ha
  obtain ⟨l, hl, -⟩ := h.exists_members ha
  exact nomatch hl.symm.trans hk

/-- Every entry is in the list of its key exactly once. -/
lemma count (h : Inverse owner members) (hl : members k = some l) (ha : owner a = some k) : l.count a = 1 :=
  List.count_eq_one_of_mem ((h.sorted k l hl).imp ne_of_lt) ((h.mem hl).mpr ha)

lemma empty : Inverse (fun _ : α => (none : Option κ)) fun _ => none :=
  ⟨fun k a => by simp, fun k l hl => (nomatch hl), fun k l hl => (nomatch hl)⟩

/-! ### Detaching and attaching -/

/-- Take `a` out of the list of its key, and drop the list when it gets empty. -/
lemma detach (h : Inverse owner members) (hl : members k = some l) (ha : owner a = some k) :
    Inverse (update owner a none)
      (update members k (if l.filter (· ≠ a) = [] then none else some (l.filter (· ≠ a)))) where
  mem_iff k' b := by
    by_cases hb : b = a
    · subst hb
      rw [update_self]
      by_cases hk : k' = k
      · subst hk
        simp
      · rw [update_of_ne hk, h.mem_iff, ha]
        simp [Ne.symm hk]
    · rw [update_of_ne hb, ← h.mem_iff]
      by_cases hk : k' = k
      · subst hk
        rw [update_self, hl]
        constructor
        · rintro ⟨l', hl', hmem⟩
          split at hl'
          · exact nomatch hl'
          · rw [← Option.some.inj hl'] at hmem
            exact ⟨l, rfl, (List.mem_filter.mp hmem).1⟩
        · rintro ⟨l', hl', hmem⟩
          rw [← Option.some.inj hl'] at hmem
          have hmem' : b ∈ l.filter (· ≠ a) := List.mem_filter.mpr ⟨hmem, by simpa using hb⟩
          rw [if_neg (List.ne_nil_of_mem hmem')]
          exact ⟨_, rfl, hmem'⟩
      · rw [update_of_ne hk]
  ne_nil k' l' hl' := by
    by_cases hk : k' = k
    · subst hk
      rw [update_self] at hl'
      split at hl'
      · exact nomatch hl'
      · rwa [← Option.some.inj hl']
    · rw [update_of_ne hk] at hl'
      exact h.ne_nil k' l' hl'
  sorted k' l' hl' := by
    by_cases hk : k' = k
    · subst hk
      rw [update_self] at hl'
      split at hl'
      · exact nomatch hl'
      · rw [← Option.some.inj hl']
        exact (h.sorted k' l hl).filter _
    · rw [update_of_ne hk] at hl'
      exact h.sorted k' l' hl'

/-- Give the free entry `a` to the key `k`: the new list of the key has `a` besides its old entries. -/
lemma attach (h : Inverse owner members) (ha : owner a = none)
    (hmem : ∀ b, b ∈ l ↔ b = a ∨ owner b = some k) (hsorted : l.Pairwise (· < ·)) :
    Inverse (update owner a (some k)) (update members k (some l)) where
  mem_iff k' b := by
    by_cases hk : k' = k
    · subst hk
      rw [update_self]
      have hb : b ∈ l ↔ update owner a (some k') b = some k' := by
        rw [hmem]
        by_cases hb : b = a
        · simp [hb]
        · simp [hb, update_of_ne hb]
      constructor
      · rintro ⟨l', hl', hbl⟩
        rw [← Option.some.inj hl'] at hbl
        exact hb.mp hbl
      · intro ho
        exact ⟨l, rfl, hb.mpr ho⟩
    · rw [update_of_ne hk, h.mem_iff]
      by_cases hb : b = a
      · subst hb
        rw [update_self, ha]
        simp [Ne.symm hk]
      · rw [update_of_ne hb]
  ne_nil k' l' hl' := by
    by_cases hk : k' = k
    · subst hk
      rw [update_self] at hl'
      rw [← Option.some.inj hl']
      exact List.ne_nil_of_mem ((hmem a).mpr (.inl rfl))
    · rw [update_of_ne hk] at hl'
      exact h.ne_nil k' l' hl'
  sorted k' l' hl' := by
    by_cases hk : k' = k
    · subst hk
      rw [update_self] at hl'
      rwa [← Option.some.inj hl']
    · rw [update_of_ne hk] at hl'
      exact h.sorted k' l' hl'

/-- Attach `a` to a key that has no list. -/
lemma attach_new (h : Inverse owner members) (ha : owner a = none) (hk : members k = none) :
    Inverse (update owner a (some k)) (update members k (some [a])) := by
  refine h.attach ha (fun b => ?_) (List.pairwise_singleton _ _)
  simp [h.ne_of_members_none hk]

/-- Sorting a list without repetitions makes it strictly increasing. -/
lemma pairwise_lt_mergeSort (hl : l.Nodup) : (l.mergeSort (· ≤ ·)).Pairwise (· < ·) := by
  have hle : (l.mergeSort (· ≤ ·)).Pairwise fun x y => decide (x ≤ y) = true :=
    List.pairwise_mergeSort (fun x y z hxy hyz => by simp only [decide_eq_true_eq] at *; exact hxy.trans hyz)
      (fun x y => by simpa using le_total x y) l
  have hne : (l.mergeSort (· ≤ ·)).Nodup := (List.mergeSort_perm l _).nodup_iff.mpr hl
  refine (hle.and hne).imp fun {x y} hxy => lt_of_le_of_ne ?_ hxy.2
  simpa using hxy.1

/-- Attach `a` to a key that has the list `l`: push it to the list and sort. -/
lemma attach_push (h : Inverse owner members) (ha : owner a = none) (hl : members k = some l) :
    Inverse (update owner a (some k)) (update members k (some ((l ++ [a]).mergeSort (· ≤ ·)))) := by
  refine h.attach ha (fun b => ?_) (pairwise_lt_mergeSort ?_)
  · rw [(List.mergeSort_perm _ _).mem_iff, List.mem_append, List.mem_singleton, h.mem hl, or_comm]
  · have hnot : a ∉ l := by
      rw [h.mem hl, ha]
      simp
    rw [List.nodup_append_comm, List.singleton_append]
    exact List.nodup_cons.mpr ⟨hnot, (h.sorted k l hl).imp ne_of_lt⟩

end Inverse

end DDNet
