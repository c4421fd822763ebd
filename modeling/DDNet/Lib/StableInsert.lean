/-
Insertion into a list that is sorted already.

Sorting a sorted list with one element added at its end amounts to one insertion, behind everything that may stand in
front of the new element.  Read from the other end of the list it is an insertion in front of the first such element.
-/
import Mathlib.Data.List.Sort

namespace DDNet.Lib

variable {α β : Type*}

section Insert

variable (r : α → α → Prop) [DecidableRel r]

/-- `x` is inserted behind the elements at the front that may stand before it. -/
def insertLast (x : α) : List α → List α
  | [] => [x]
  | y :: l => if r y x then y :: insertLast x l else x :: y :: l

/-- `x` is inserted in front of the first element that may stand before it in the reversed order. -/
def insertFirst (x : α) : List α → List α
  | [] => [x]
  | y :: l => if r y x then x :: y :: l else y :: insertFirst x l

variable {r}

lemma orderedInsert_insertLast [Std.Total r] [IsTrans α r] (a x : α) (l : List α) :
    (insertLast r x l).orderedInsert r a = insertLast r x (l.orderedInsert r a) := by
  induction l with
  | nil =>
    by_cases hax : r a x
    · simp [insertLast, hax]
    · simp [insertLast, hax]
  | cons y l ih =>
    by_cases hyx : r y x
    · by_cases hay : r a y
      · have hax : r a x := IsTrans.trans a y x hay hyx
        simp [insertLast, hyx, hay, hax]
      · simp [insertLast, hyx, hay, ih]
    · by_cases hax : r a x
      · by_cases hay : r a y
        · simp [insertLast, hyx, hay, hax]
        · -- `y` stands before `a` and `a` before `x`
          exact absurd (IsTrans.trans y a x ((Std.Total.total a y).resolve_left hay) hax) hyx
      · by_cases hay : r a y
        · simp [insertLast, hyx, hay, hax]
        · simp [insertLast, hyx, hay, hax]

/-- Sorting a list with an element at its end. -/
lemma insertionSort_append_singleton [Std.Total r] [IsTrans α r] (l : List α) (x : α) :
    (l ++ [x]).insertionSort r = insertLast r x (l.insertionSort r) := by
  induction l with
  | nil => rfl
  | cons a l ih => rw [List.cons_append, List.insertionSort_cons, ih, orderedInsert_insertLast, List.insertionSort_cons]

lemma insertFirst_of_forall {x : α} {l : List α} (h : ∀ z ∈ l, ¬ r z x) (m : List α) :
    insertFirst r x (l ++ m) = l ++ insertFirst r x m := by
  induction l with
  | nil => rfl
  | cons y l ih =>
    rw [List.cons_append, insertFirst, if_neg (h y List.mem_cons_self),
      ih fun z hz => h z (List.mem_cons_of_mem _ hz), List.cons_append]

lemma insertFirst_of_exists {x : α} {l : List α} (h : ∃ z ∈ l, r z x) (m : List α) :
    insertFirst r x (l ++ m) = insertFirst r x l ++ m := by
  induction l with
  | nil => simp at h
  | cons y l ih =>
    rw [List.cons_append, insertFirst, insertFirst]
    split_ifs with hyx
    · rfl
    · have hrest : ∃ z ∈ l, r z x := by
        obtain ⟨z, hz, hzx⟩ := h
        rcases List.mem_cons.mp hz with rfl | hz
        · exact absurd hzx hyx
        · exact ⟨z, hz, hzx⟩
      rw [ih hrest, List.cons_append]

lemma insertFirst_nil_of_forall {x : α} {l : List α} (h : ∀ z ∈ l, ¬ r z x) : insertFirst r x l = l ++ [x] := by
  have := insertFirst_of_forall h []
  rwa [List.append_nil, insertFirst] at this

lemma insertFirst_perm (x : α) (l : List α) : (insertFirst r x l).Perm (x :: l) := by
  induction l with
  | nil => exact .rfl
  | cons y l ih =>
    rw [insertFirst]
    split_ifs
    · exact .rfl
    · exact (ih.cons y).trans (.swap x y l)

lemma insertFirst_eq (x : α) (l : List α) :
    insertFirst r x l = l.takeWhile (¬ r · x) ++ x :: l.dropWhile (¬ r · x) := by
  induction l with
  | nil => rfl
  | cons y l ih =>
    rw [insertFirst]
    split_ifs with hyx
    · simp [hyx]
    · simp [hyx, ih]

/-- The insertion keeps a list in the reversed order. -/
lemma pairwise_insertFirst [Std.Total r] [IsTrans α r] (x : α) {l : List α} (h : l.Pairwise (flip r)) :
    (insertFirst r x l).Pairwise (flip r) := by
  induction l with
  | nil => exact List.pairwise_singleton _ x
  | cons y l ih =>
    obtain ⟨hy, hl⟩ := List.pairwise_cons.mp h
    rw [insertFirst]
    split_ifs with hyx
    · refine List.pairwise_cons.mpr ⟨fun z hz => ?_, h⟩
      rcases List.mem_cons.mp hz with rfl | hz
      · exact hyx
      · exact IsTrans.trans z y x (hy z hz) hyx
    · refine List.pairwise_cons.mpr ⟨fun z hz => ?_, ih hl⟩
      rcases List.mem_cons.mp ((insertFirst_perm x l).mem_iff.mp hz) with rfl | hz
      · exact (Std.Total.total y z).resolve_left hyx
      · exact hy z hz

/-- On a sorted list the two insertions are the same, read from either end. -/
lemma reverse_insertLast [IsTrans α r] (x : α) {l : List α} (h : l.Pairwise r) :
    (insertLast r x l).reverse = insertFirst r x l.reverse := by
  induction l with
  | nil => rfl
  | cons y l ih =>
    obtain ⟨hy, hl⟩ := List.pairwise_cons.mp h
    rw [insertLast, List.reverse_cons]
    by_cases hyx : r y x
    · rw [if_pos hyx, List.reverse_cons, ih hl]
      by_cases hex : ∃ z ∈ l.reverse, r z x
      · rw [insertFirst_of_exists hex]
      · have hnone : ∀ z ∈ l.reverse, ¬ r z x := fun z hz hzx => hex ⟨z, hz, hzx⟩
        rw [insertFirst_of_forall hnone, insertFirst_nil_of_forall hnone, insertFirst, if_pos hyx, List.append_assoc]
        rfl
    · have hnone : ∀ z ∈ l.reverse, ¬ r z x := fun z hz hzx =>
        hyx (IsTrans.trans y z x (hy z (List.mem_reverse.mp hz)) hzx)
      rw [if_neg hyx, insertFirst_of_forall hnone, insertFirst, if_neg hyx, List.reverse_cons, List.reverse_cons,
        List.append_assoc]
      rfl

end Insert

lemma map_insertFirst {r : β → β → Prop} [DecidableRel r] (f : α → β) (x : α) (l : List α) :
    (insertFirst (fun y x => r (f y) (f x)) x l).map f = insertFirst r (f x) (l.map f) := by
  induction l with
  | nil => rfl
  | cons y l ih =>
    rw [insertFirst, List.map_cons, insertFirst]
    split_ifs
    · rfl
    · rw [List.map_cons, ih]

/-- Related elements are inserted at the same place. -/
lemma forall₂_insertFirst {r : α → α → Prop} [DecidableRel r] {s : β → β → Prop} [DecidableRel s] {R : α → β → Prop}
    {x : α} {y : β} {l : List α} {m : List β} (hxy : R x y) (h : List.Forall₂ R l m)
    (hiff : ∀ a b, R a b → (r a x ↔ s b y)) : List.Forall₂ R (insertFirst r x l) (insertFirst s y m) := by
  induction h with
  | nil => exact .cons hxy .nil
  | @cons a b l m hab hlm ih =>
    rw [insertFirst, insertFirst]
    by_cases hax : r a x
    · rw [if_pos hax, if_pos ((hiff a b hab).mp hax)]
      exact .cons hxy (.cons hab hlm)
    · rw [if_neg hax, if_neg fun hby => hax ((hiff a b hab).mpr hby)]
      exact .cons hab ih

end DDNet.Lib
