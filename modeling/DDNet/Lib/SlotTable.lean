/-
Tables of slots, each free or taken by a peer, and the tables in which no peer has two slots.

What an implementation does to its slots is one of three things here: slots are given up (`Below`), a
free slot is taken by a peer that has none (`Unique.take`), or a slot takes over the peer of another one
(`Unique.move`).
-/
import Mathlib.Data.List.FinRange
import Mathlib.Data.List.Induction
import Mathlib.Logic.Function.Basic

namespace DDNet.Lib

/-- The peer of every slot; `none` for a slot that is free. -/
abbrev SlotTable (ι α : Type*) := ι → Option α

namespace SlotTable

variable {ι α : Type*}

/-- No peer has two slots. -/
def Unique (t : SlotTable ι α) : Prop := ∀ ⦃i j a⦄, t i = some a → t j = some a → i = j

/-- A peer has a slot. -/
def Has (t : SlotTable ι α) (a : α) : Prop := ∃ i, t i = some a

/-- The first table has the peers of the second one in the same slots, but for some that are free. -/
def Below (t t' : SlotTable ι α) : Prop := ∀ ⦃i a⦄, t i = some a → t' i = some a

lemma Below.refl (t : SlotTable ι α) : Below t t := fun _ _ h => h

lemma Below.trans {t t' t'' : SlotTable ι α} (h : Below t t') (h' : Below t' t'') : Below t t'' :=
  fun _ _ hi => h' (h hi)

lemma Below.unique {t t' : SlotTable ι α} (h : Below t t') (hunique : Unique t') : Unique t :=
  fun _ _ _ hi hj => hunique (h hi) (h hj)

lemma Below.has {t t' : SlotTable ι α} (h : Below t t') {a : α} (ha : Has t a) : Has t' a := by
  obtain ⟨i, hi⟩ := ha
  exact ⟨i, h hi⟩

lemma unique_of_free {t : SlotTable ι α} (h : ∀ i, t i = none) : Unique t := by
  intro i j a hi
  rw [h i] at hi
  exact absurd hi (Option.some_ne_none a).symm

lemma not_has_of_free {t : SlotTable ι α} (h : ∀ i, t i = none) (a : α) : ¬ Has t a := by
  rintro ⟨i, hi⟩
  rw [h i] at hi
  exact absurd hi (Option.some_ne_none a).symm

variable [DecidableEq ι]

/-- A slot is taken by a peer. -/
def take (t : SlotTable ι α) (i : ι) (a : α) : SlotTable ι α := Function.update t i (some a)

/-- A slot takes over the peer of another slot, which is free then. -/
def move (t : SlotTable ι α) (i j : ι) : SlotTable ι α := Function.update (Function.update t i (t j)) j none

lemma take_self (t : SlotTable ι α) (i : ι) (a : α) : t.take i a i = some a := Function.update_self i _ t

lemma take_of_ne (t : SlotTable ι α) {i j : ι} (h : j ≠ i) (a : α) : t.take i a j = t j :=
  Function.update_of_ne h _ t

lemma Unique.take {t : SlotTable ι α} (h : Unique t) {a : α} (ha : ¬ Has t a) (i : ι) :
    Unique (t.take i a) := by
  have hother : ∀ {j b}, j ≠ i → t.take i a j = some b → t j = some b ∧ b ≠ a := by
    rintro j b hj hb
    rw [take_of_ne t hj] at hb
    refine ⟨hb, ?_⟩
    rintro rfl
    exact ha ⟨j, hb⟩
  intro j k b hj hk
  by_cases hji : j = i
  · by_cases hki : k = i
    · exact hji.trans hki.symm
    · obtain ⟨-, hne⟩ := hother hki hk
      rw [hji, take_self] at hj
      exact absurd (Option.some.inj hj).symm hne
  · obtain ⟨hj', hne⟩ := hother hji hj
    by_cases hki : k = i
    · rw [hki, take_self] at hk
      exact absurd (Option.some.inj hk).symm hne
    · exact h hj' (hother hki hk).1

lemma has_take {t : SlotTable ι α} {i : ι} {a b : α} (h : Has (t.take i a) b) : b = a ∨ Has t b := by
  obtain ⟨j, hj⟩ := h
  by_cases hji : j = i
  · rw [hji, take_self] at hj
    exact .inl (Option.some.inj hj).symm
  · rw [take_of_ne t hji] at hj
    exact .inr ⟨j, hj⟩

lemma move_eq_some {t : SlotTable ι α} {i j k : ι} {a : α} (h : t.move i j k = some a) :
    k ≠ j ∧ (k = i ∧ t j = some a ∨ k ≠ i ∧ t k = some a) := by
  have hkj : k ≠ j := by
    rintro rfl
    rw [move, Function.update_self] at h
    exact absurd h (Option.some_ne_none a).symm
  refine ⟨hkj, ?_⟩
  rw [move, Function.update_of_ne hkj] at h
  by_cases hki : k = i
  · rw [hki, Function.update_self] at h
    exact .inl ⟨hki, h⟩
  · rw [Function.update_of_ne hki] at h
    exact .inr ⟨hki, h⟩

lemma Unique.move {t : SlotTable ι α} (h : Unique t) (i j : ι) : Unique (t.move i j) := by
  intro k l a hk hl
  obtain ⟨hkj, hk'⟩ := move_eq_some hk
  obtain ⟨hlj, hl'⟩ := move_eq_some hl
  rcases hk' with ⟨rfl, hk'⟩ | ⟨-, hk'⟩ <;> rcases hl' with ⟨rfl, hl'⟩ | ⟨-, hl'⟩
  · rfl
  · exact absurd (h hl' hk') hlj
  · exact absurd (h hk' hl') hkj
  · exact h hk' hl'

lemma has_move {t : SlotTable ι α} {i j : ι} {a : α} (h : Has (t.move i j) a) : Has t a := by
  obtain ⟨k, hk⟩ := h
  rcases (move_eq_some hk).2 with ⟨-, hj⟩ | ⟨-, hk⟩
  · exact ⟨j, hj⟩
  · exact ⟨k, hk⟩

/-! ### The search for a peer -/

/-- The last index of a list that satisfies a predicate. -/
def findLast (p : ι → Bool) (l : List ι) : Option ι := l.foldl (fun found i => if p i then some i else found) none

omit [DecidableEq ι] in
lemma findLast_concat (p : ι → Bool) (l : List ι) (i : ι) :
    findLast p (l ++ [i]) = if p i then some i else findLast p l := by
  rw [findLast, List.foldl_append]
  rfl

omit [DecidableEq ι] in
lemma of_findLast {p : ι → Bool} {l : List ι} {i : ι} (h : findLast p l = some i) : i ∈ l ∧ p i = true := by
  induction l using List.reverseRecOn with
  | nil => exact absurd h (Option.some_ne_none i).symm
  | append_singleton l j ih =>
    rw [findLast_concat] at h
    split_ifs at h with hj
    · obtain rfl := Option.some.inj h
      exact ⟨List.mem_append_right l (List.mem_singleton_self j), hj⟩
    · exact ⟨List.mem_append_left _ (ih h).1, (ih h).2⟩

omit [DecidableEq ι] in
lemma findLast_eq_none {p : ι → Bool} {l : List ι} : findLast p l = none ↔ ∀ i ∈ l, p i = false := by
  induction l using List.reverseRecOn with
  | nil => exact iff_of_true rfl fun i hi => absurd hi List.not_mem_nil
  | append_singleton l j ih =>
    rw [findLast_concat]
    constructor
    · intro h i hi
      split_ifs at h with hj
      rcases List.mem_append.1 hi with hi | hi
      · exact ih.1 h i hi
      · rw [List.mem_singleton.1 hi]
        exact Bool.eq_false_iff.2 hj
    · intro h
      rw [if_neg (Bool.eq_false_iff.1 (h j (List.mem_append_right l (List.mem_singleton_self j))))]
      exact ih.2 fun i hi => h i (List.mem_append_left _ hi)

end SlotTable

end DDNet.Lib
