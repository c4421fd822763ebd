/-
Singly linked queues.

The nodes are of an arbitrary type, and `next` is the pointer of all nodes in memory.  `IsQueue q xs` says that the nodes
of the queue `q` are `xs`; a node that is not in the queue points nowhere.  While a walk takes nodes out of the queue the
pointer to its last node is out of date, so this pointer has its own rule (`Holds.isQueue`).
-/
import DDNet.Lib.LinkedList

namespace DDNet.Lib

variable {ι : Type*}

/-- The pointers of the nodes, and the first and the last node of a queue of them. -/
@[ext] structure LinkedQueue (ι : Type*) where
  first : Option ι
  last : Option ι
  next : ι → Option ι

/-- The nodes `xs` are linked in this order; `q` is the node behind the last one. -/
def Chained (next : ι → Option ι) : List ι → Option ι → Prop
  | [], _ => True
  | x :: xs, q => next x = xs.head?.or q ∧ Chained next xs q

namespace LinkedQueue

variable [DecidableEq ι]

/-- A queue without nodes. -/
def empty : LinkedQueue ι := ⟨none, none, fun _ => none⟩

/-- Put the node `x` behind the last one. -/
@[simps] def push (q : LinkedQueue ι) (x : ι) : LinkedQueue ι where
  first := if q.first.isSome then q.first else some x
  last := some x
  next := setAt q.next q.last (some x)

/-- Take out the first node `x`. -/
@[simps] def pop (q : LinkedQueue ι) (x : ι) : LinkedQueue ι where
  first := q.next x
  last := if (q.next x).isSome then q.last else none
  next := Function.update q.next x none

/-- Take out the node `x` behind the node `prev`, if there is one, but leave the pointer to the last node. -/
@[simps] def unlinkAfter (q : LinkedQueue ι) (prev : Option ι) (x : ι) : LinkedQueue ι where
  first := if prev.isSome then q.first else q.next x
  last := q.last
  next := setAt (Function.update q.next x none) prev (q.next x)

end LinkedQueue

/-! ### Chained nodes -/

section Chained

variable {next next' : ι → Option ι} {q : Option ι} {xs ys : List ι}

@[simp] lemma chained_nil : Chained next [] q := trivial

@[simp] lemma chained_cons {x : ι} : Chained next (x :: xs) q ↔ next x = xs.head?.or q ∧ Chained next xs q := Iff.rfl

lemma chained_append : Chained next (xs ++ ys) q ↔ Chained next xs (ys.head?.or q) ∧ Chained next ys q := by
  induction xs with
  | nil => simp
  | cons x xs ih => rw [List.cons_append, chained_cons, chained_cons, ih, List.head?_append, Option.or_assoc, and_assoc]

/-- Only the pointers of the nodes themselves matter. -/
lemma chained_congr (h : ∀ x ∈ xs, next' x = next x) : Chained next' xs q ↔ Chained next xs q := by
  induction xs with
  | nil => simp
  | cons x xs ih =>
    rw [chained_cons, chained_cons, h x (by simp), ih fun y hy => h y (List.mem_cons_of_mem _ hy)]

variable [DecidableEq ι]

lemma Chained.update (h : Chained next xs q) {x : ι} (hx : x ∉ xs) (p : Option ι) :
    Chained (Function.update next x p) xs q := by
  have hsame : ∀ y ∈ xs, Function.update next x p y = next y := by
    rintro y hy
    refine Function.update_of_ne ?_ _ _
    rintro rfl
    exact hx hy
  exact (chained_congr hsame).mpr h

/-- Another node behind the last one. -/
lemma Chained.setLast (h : Chained next xs q) (hnodup : xs.Nodup) (q' : Option ι) :
    Chained (setAt next xs.getLast? q') xs q' := by
  rcases List.eq_nil_or_concat' xs with rfl | ⟨init, last, rfl⟩
  · trivial
  · rw [chained_append] at h ⊢
    rw [List.getLast?_concat, setAt]
    have hlast : last ∉ init := fun hmem => (List.nodup_append.1 hnodup).2.2 last hmem last (by simp) rfl
    constructor
    · exact h.1.update hlast _
    · simp

/-- Put the node `x` behind the last one. -/
lemma Chained.concat (h : Chained next xs none) {x : ι} (hnodup : (xs ++ [x]).Nodup) :
    Chained (setAt (Function.update next x none) xs.getLast? (some x)) (xs ++ [x]) none := by
  obtain ⟨hxs, -, hdisj⟩ := List.nodup_append.1 hnodup
  have hx : x ∉ xs := fun hmem => hdisj x hmem x (by simp) rfl
  rw [chained_append]
  constructor
  · exact (h.update hx none).setLast hxs _
  · rw [chained_cons, setAt_of_ne fun hlast => hx (List.mem_of_getLast? hlast.symm), Function.update_self]
    exact ⟨rfl, chained_nil⟩

/-- Every node points to the one behind it. -/
lemma chained_of_getElem? (h : ∀ i x, xs[i]? = some x → next x = xs[i + 1]?) : Chained next xs none := by
  induction xs with
  | nil => trivial
  | cons x xs ih =>
    rw [chained_cons, Option.or_none, h 0 x rfl]
    exact ⟨by rw [List.getElem?_cons_succ, List.head?_eq_getElem?], ih fun i y hy => h (i + 1) y hy⟩

end Chained

/-! ### Queues -/

/-- The nodes from the first one on. -/
structure LinkedQueue.Holds (q : LinkedQueue ι) (xs : List ι) : Prop where
  first : q.first = xs.head?
  nodup : xs.Nodup
  chained : Chained q.next xs none
  outside : ∀ x, x ∉ xs → q.next x = none

structure LinkedQueue.IsQueue (q : LinkedQueue ι) (xs : List ι) : Prop extends q.Holds xs where
  last : q.last = xs.getLast?

namespace LinkedQueue

variable {q : LinkedQueue ι} {xs ys : List ι} {x : ι}

lemma isQueue_empty : (empty : LinkedQueue ι).IsQueue [] where
  first := rfl
  last := rfl
  nodup := List.nodup_nil
  chained := trivial
  outside _ _ := rfl

/-- The walk has reached the end, where it sets the pointer to the last node. -/
lemma Holds.isQueue (h : q.Holds xs) : IsQueue { q with last := xs.getLast? } xs where
  first := h.first
  last := rfl
  nodup := h.nodup
  chained := h.chained
  outside := h.outside

lemma IsQueue.eq_nil (h : q.IsQueue xs) (hfirst : q.first = none) : xs = [] :=
  List.head?_eq_none_iff.mp (h.first.symm.trans hfirst)

lemma Holds.next_eq (h : q.Holds (xs ++ x :: ys)) : q.next x = ys.head? := by
  have hchained := (chained_append.mp h.chained).2
  rw [chained_cons, Option.or_none] at hchained
  exact hchained.1

variable [DecidableEq ι]

lemma IsQueue.push (h : q.IsQueue xs) (hx : x ∉ xs) : (q.push x).IsQueue (xs ++ [x]) where
  first := by
    rw [push_first, h.first, List.head?_append]
    cases xs <;> rfl
  last := by rw [push_last, List.getLast?_concat]
  nodup := List.nodup_append.mpr ⟨h.nodup, List.nodup_singleton x, by
    rintro a ha b hb rfl
    exact hx (List.mem_singleton.mp hb ▸ ha)⟩
  chained := by
    have hnext : setAt q.next xs.getLast? (some x) x = none := by
      rw [setAt_of_ne, h.outside x hx]
      intro hlast
      exact hx (List.mem_of_getLast? hlast.symm)
    show Chained (setAt q.next q.last (some x)) (xs ++ [x]) none
    rw [h.last, chained_append]
    exact ⟨h.chained.setLast h.nodup _, hnext, trivial⟩
  outside y hy := by
    rw [List.mem_append, not_or] at hy
    rw [push_next, h.last, setAt_of_ne, h.outside y hy.1]
    intro hlast
    exact hy.1 (List.mem_of_getLast? hlast.symm)

lemma IsQueue.pop (h : q.IsQueue (x :: xs)) : (q.pop x).IsQueue xs := by
  have hnext : q.next x = xs.head? := Holds.next_eq (show q.Holds ([] ++ x :: xs) from h.toHolds)
  have hx : x ∉ xs := (List.nodup_cons.mp h.nodup).1
  refine ⟨⟨hnext, h.nodup.of_cons, ?_, fun y hy => ?_⟩, ?_⟩
  · exact h.chained.2.update hx _
  · by_cases hyx : y = x
    · rw [hyx, pop_next, Function.update_self]
    · rw [pop_next, Function.update_of_ne hyx, h.outside]
      rw [List.mem_cons, not_or]
      exact ⟨hyx, hy⟩
  · rw [pop_last, hnext, h.last]
    cases xs with
    | nil => rfl
    | cons y ys => rw [List.getLast?_cons_cons]; rfl

/-- A walk that has kept the nodes `xs` takes out the next one. -/
lemma Holds.unlinkAfter (h : q.Holds (xs ++ x :: ys)) : (q.unlinkAfter xs.getLast? x).Holds (xs ++ ys) := by
  have hnext : q.next x = ys.head? := h.next_eq
  obtain ⟨hxs, hys, hdisj⟩ := List.nodup_append.1 h.nodup
  obtain ⟨hxys, hys⟩ := List.nodup_cons.mp hys
  have hxxs : x ∉ xs := fun hmem => hdisj x hmem x (by simp) rfl
  have hchained := chained_append.mp h.chained
  refine ⟨?_, ?_, ?_, fun y hy => ?_⟩
  · rw [unlinkAfter_first, h.first, hnext]
    rcases List.eq_nil_or_concat' xs with rfl | ⟨init, last, rfl⟩
    · rfl
    · rw [List.getLast?_concat, List.head?_append, List.head?_append]
      cases init <;> rfl
  · exact h.nodup.sublist (List.Sublist.append_left (List.sublist_cons_self x ys) xs)
  · show Chained (setAt (Function.update q.next x none) xs.getLast? (q.next x)) (xs ++ ys) none
    rw [chained_append, hnext, Option.or_none]
    constructor
    · exact (hchained.1.update hxxs none).setLast hxs _
    · refine (chained_congr fun y hy => ?_).mpr (hchained.2.2.update hxys none)
      rw [setAt_of_ne]
      intro hlast
      exact hdisj y (List.mem_of_getLast? hlast.symm) y (List.mem_cons_of_mem _ hy) rfl
  · rw [List.mem_append, not_or] at hy
    rw [unlinkAfter_next, setAt_of_ne fun hlast => hy.1 (List.mem_of_getLast? hlast.symm)]
    by_cases hyx : y = x
    · rw [hyx, Function.update_self]
    · rw [Function.update_of_ne hyx, h.outside]
      rw [List.mem_append, List.mem_cons, not_or, not_or]
      exact ⟨hy.1, hyx, hy.2⟩

end LinkedQueue

end DDNet.Lib
