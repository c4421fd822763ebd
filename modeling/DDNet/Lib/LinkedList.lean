/-
Doubly linked lists.

The nodes are of an arbitrary type, and `next` and `prev` are the pointers of all nodes in
memory.  `IsList l xs` says that the nodes of the list `l`, from its head on, are `xs`.  The
lemma of an operation says what it does to `xs` and that it leaves the pointers of all other
nodes alone, so several lists can share the pointers (`IsList.frame`).
-/
import Mathlib.Data.List.Basic
import Mathlib.Data.List.Nodup
import Mathlib.Logic.Function.Basic
import Mathlib.Tactic.Simps.Basic

namespace DDNet.Lib

variable {ι : Type*}

/-- The pointers of the nodes, and the first node of a list of them. -/
structure DList (ι : Type*) where
  head : Option ι
  next : ι → Option ι
  prev : ι → Option ι

/-- The nodes `xs` are linked in this order; `p` is the node before the first one, and `q` the
one behind the last one. -/
def Linked (next prev : ι → Option ι) : Option ι → List ι → Option ι → Prop
  | _, [], _ => True
  | p, x :: xs, q => prev x = p ∧ next x = xs.head?.or q ∧ Linked next prev (some x) xs q

section Operations

variable [DecidableEq ι]

/-- Set the pointer of the node `x`, unless `x` is null. -/
def setAt (f : ι → Option ι) (x v : Option ι) : ι → Option ι :=
  match x with
  | some x => Function.update f x v
  | none => f

namespace DList

/-- Take the node `x` out of the list. -/
@[simps] def unlink (l : DList ι) (x : ι) : DList ι where
  head := if (l.prev x).isSome then l.head else l.next x
  next := setAt l.next (l.prev x) (l.next x)
  prev := setAt l.prev (l.next x) (l.prev x)

/-- Put the node `x` in front of the list. -/
@[simps] def pushFront (l : DList ι) (x : ι) : DList ι where
  head := some x
  next := Function.update l.next x l.head
  prev := Function.update (setAt l.prev l.head (some x)) x none

/-- Put the node `x` before the node `y` of the list. -/
@[simps] def insertBefore (l : DList ι) (y x : ι) : DList ι where
  head := if (l.prev y).isSome then l.head else some x
  next := setAt (Function.update l.next x (some y)) (l.prev y) (some x)
  prev := Function.update (Function.update l.prev x (l.prev y)) y (some x)

/-- Put the node `x` behind the last node `y` of the list. -/
@[simps] def insertLast (l : DList ι) (y x : ι) : DList ι where
  head := l.head
  next := Function.update (Function.update l.next y (some x)) x none
  prev := Function.update l.prev x (some y)

/-- Put the node `x` behind the node `last`, the last one of the list if there is one. -/
@[simps] def pushBack (l : DList ι) (last : Option ι) (x : ι) : DList ι where
  head := if last.isSome then l.head else some x
  next := setAt (Function.update l.next x none) last (some x)
  prev := Function.update l.prev x last

/-- Let the list start behind its first node `x`. -/
@[simps] def popFront (l : DList ι) (x : ι) : DList ι where
  head := l.next x
  next := l.next
  prev := setAt l.prev (l.next x) none

end DList

end Operations

/-! ### Linked nodes -/

section Linked

variable {next prev next' prev' : ι → Option ι} {p q : Option ι} {xs ys : List ι}

@[simp] lemma linked_nil : Linked next prev p [] q := trivial

@[simp] lemma linked_cons {x : ι} : Linked next prev p (x :: xs) q ↔
    prev x = p ∧ next x = xs.head?.or q ∧ Linked next prev (some x) xs q := Iff.rfl

lemma linked_append : Linked next prev p (xs ++ ys) q ↔
    Linked next prev p xs (ys.head?.or q) ∧ Linked next prev (xs.getLast?.or p) ys q := by
  induction xs generalizing p with
  | nil => simp
  | cons x xs ih =>
    have hlast : (x :: xs).getLast?.or p = xs.getLast?.or (some x) := by
      rw [List.getLast?_cons]
      cases xs.getLast? <;> rfl
    rw [List.cons_append, linked_cons, linked_cons, ih, hlast, List.head?_append, Option.or_assoc]
    tauto

/-- Only the pointers of the nodes themselves matter. -/
lemma linked_congr (h : ∀ x ∈ xs, next' x = next x ∧ prev' x = prev x) :
    Linked next' prev' p xs q ↔ Linked next prev p xs q := by
  induction xs generalizing p with
  | nil => simp
  | cons x xs ih =>
    obtain ⟨hnext, hprev⟩ := h x (by simp)
    rw [linked_cons, linked_cons, hnext, hprev, ih fun y hy => h y (List.mem_cons_of_mem _ hy)]

/-- Nodes are linked if each one points to its neighbours. -/
lemma linked_of_getElem
    (hprev : ∀ i (h : i < xs.length), prev xs[i] = if i = 0 then p else xs[i - 1]?)
    (hnext : ∀ i (h : i < xs.length), next xs[i] = xs[i + 1]?.or q) : Linked next prev p xs q := by
  induction xs generalizing p with
  | nil => trivial
  | cons x xs ih =>
    rw [linked_cons]
    refine ⟨hprev 0 (by simp), ?_, ih (fun i h => ?_) fun i h => ?_⟩
    · rw [List.head?_eq_getElem?]
      exact hnext 0 (by simp)
    · have hstep := hprev (i + 1) (by simpa using h)
      rw [List.getElem_cons_succ, if_neg i.succ_ne_zero, Nat.add_sub_cancel] at hstep
      rw [hstep]
      cases i <;> simp
    · exact hnext (i + 1) (by simpa using h)

variable [DecidableEq ι]

lemma setAt_apply (f : ι → Option ι) (x v : Option ι) (y : ι) :
    setAt f x v y = if some y = x then v else f y := by
  cases x with
  | none => simp [setAt]
  | some x => simp [setAt, Function.update_apply]

lemma setAt_of_ne {f : ι → Option ι} {x v : Option ι} {y : ι} (h : some y ≠ x) : setAt f x v y = f y := by
  rw [setAt_apply, if_neg h]

/-- Another node behind the last one. -/
lemma Linked.setNext (h : Linked next prev p xs q) (hnodup : xs.Nodup) (q' : Option ι) :
    Linked (setAt next xs.getLast? q') prev p xs q' := by
  rcases List.eq_nil_or_concat' xs with rfl | ⟨init, last, rfl⟩
  · trivial
  · rw [linked_append] at h ⊢
    rw [List.getLast?_concat]
    constructor
    · refine (linked_congr fun x hx => ?_).2 h.1
      have hne : x ≠ last := by
        rintro rfl
        exact (List.nodup_append.1 hnodup).2.2 x hx x (by simp) rfl
      rw [setAt, Function.update_of_ne hne]
      exact ⟨rfl, rfl⟩
    · simpa [setAt] using h.2.1

/-- Another node before the first one. -/
lemma Linked.setPrev (h : Linked next prev p xs q) (hnodup : xs.Nodup) (p' : Option ι) :
    Linked next (setAt prev xs.head? p') p' xs q := by
  cases xs with
  | nil => trivial
  | cons first xs =>
    rw [linked_cons] at h ⊢
    rw [List.head?_cons]
    refine ⟨by simp [setAt], h.2.1, (linked_congr fun x hx => ?_).2 h.2.2⟩
    have hne : x ≠ first := by
      rintro rfl
      exact (List.nodup_cons.1 hnodup).1 hx
    rw [setAt, Function.update_of_ne hne]
    exact ⟨rfl, rfl⟩

end Linked

/-! ### The operations -/

namespace DList

/-- The nodes of the list are `xs`. -/
structure IsList (l : DList ι) (xs : List ι) : Prop where
  head : l.head = xs.head?
  linked : Linked l.next l.prev none xs none
  nodup : xs.Nodup

/-- The pointers of the nodes that are not in `xs` are the same. -/
def SameOutside (l l' : DList ι) (xs : List ι) : Prop :=
  ∀ y ∉ xs, l'.next y = l.next y ∧ l'.prev y = l.prev y

variable {l : DList ι} {xs as bs : List ι} {x y : ι}

/-- A list keeps its nodes when an operation works on other ones. -/
lemma IsList.frame {l' : DList ι} {ys : List ι} (h : IsList l ys) (hsame : SameOutside l l' xs)
    (hdisjoint : ∀ y ∈ ys, y ∉ xs) (hhead : l'.head = l.head) : IsList l' ys :=
  ⟨hhead.trans h.head, (linked_congr fun y hy => hsame y (hdisjoint y hy)).2 h.linked, h.nodup⟩

/-- What a node in the middle of the list is linked to. -/
lemma IsList.split (h : IsList l (as ++ x :: bs)) :
    Linked l.next l.prev none as (some x) ∧ l.prev x = as.getLast? ∧ l.next x = bs.head? ∧
      Linked l.next l.prev (some x) bs none := by
  simpa using linked_append.1 h.linked

variable [DecidableEq ι]

lemma unlink_spec (h : IsList l (as ++ x :: bs)) :
    IsList (l.unlink x) (as ++ bs) ∧ SameOutside l (l.unlink x) (as ++ bs) := by
  obtain ⟨has, hprev, hnext, hbs⟩ := h.split
  obtain ⟨hnodupas, hnodupbs, hdisjoint⟩ := List.nodup_append.1 h.nodup
  have hlast : ∀ y ∈ as.getLast?, y ∈ as := fun y hy => List.mem_of_getLast? hy
  have hfirst : ∀ y ∈ bs.head?, y ∈ bs := fun y hy => List.mem_of_head? hy
  constructor
  · refine ⟨?_, ?_, h.nodup.sublist (by simp)⟩
    · rw [unlink_head, hprev, hnext, h.head]
      cases as with
      | nil => rfl
      | cons a as => simp [List.getLast?_cons]
    · rw [linked_append, Option.or_none, Option.or_none]
      constructor
      · refine (linked_congr fun y hy => ?_).2 (has.setNext hnodupas bs.head?)
        rw [unlink_next, unlink_prev, hprev, hnext]
        refine ⟨rfl, setAt_of_ne fun hfy => ?_⟩
        exact hdisjoint y hy y (List.mem_cons_of_mem _ (hfirst y hfy.symm)) rfl
      · refine (linked_congr fun y hy => ?_).2 (hbs.setPrev (List.nodup_cons.1 hnodupbs).2 as.getLast?)
        rw [unlink_next, unlink_prev, hprev, hnext]
        refine ⟨setAt_of_ne fun hly => ?_, rfl⟩
        exact hdisjoint y (hlast y hly.symm) y (List.mem_cons_of_mem _ hy) rfl
  · intro y hy
    rw [List.mem_append, not_or] at hy
    rw [unlink_next, unlink_prev, hprev, hnext]
    exact ⟨setAt_of_ne fun hly => hy.1 (hlast y hly.symm), setAt_of_ne fun hfy => hy.2 (hfirst y hfy.symm)⟩

lemma pushFront_spec (h : IsList l xs) (hx : x ∉ xs) :
    IsList (l.pushFront x) (x :: xs) ∧ SameOutside l (l.pushFront x) (x :: xs) := by
  have hfirst : ∀ y ∈ xs.head?, y ∈ xs := fun y hy => List.mem_of_head? hy
  constructor
  · refine ⟨rfl, ?_, List.nodup_cons.2 ⟨hx, h.nodup⟩⟩
    rw [linked_cons, pushFront_next, pushFront_prev, h.head]
    refine ⟨by simp, by simp, (linked_congr fun y hy => ?_).2 (h.linked.setPrev h.nodup (some x))⟩
    have hne : y ≠ x := fun heq => hx (heq ▸ hy)
    rw [pushFront_next, pushFront_prev, h.head, Function.update_of_ne hne, Function.update_of_ne hne]
    exact ⟨rfl, rfl⟩
  · intro y hy
    rw [List.mem_cons, not_or] at hy
    rw [pushFront_next, pushFront_prev, h.head, Function.update_of_ne hy.1, Function.update_of_ne hy.1]
    exact ⟨rfl, setAt_of_ne fun hfy => hy.2 (hfirst y hfy.symm)⟩

/-- What `insertBefore` does to the pointers of the other nodes. -/
lemma insertBefore_of_ne {z : ι} (hx : z ≠ x) (hy : z ≠ y) :
    (l.insertBefore y x).next z = setAt l.next (l.prev y) (some x) z ∧
      (l.insertBefore y x).prev z = l.prev z := by
  rw [insertBefore_next, insertBefore_prev, setAt_apply, setAt_apply, Function.update_of_ne hx,
    Function.update_of_ne hy, Function.update_of_ne hx]
  exact ⟨rfl, rfl⟩

lemma insertBefore_spec (h : IsList l (as ++ y :: bs)) (hx : x ∉ as ++ y :: bs) :
    IsList (l.insertBefore y x) (as ++ x :: y :: bs) ∧
      SameOutside l (l.insertBefore y x) (as ++ x :: y :: bs) := by
  obtain ⟨has, hprev, hnext, hbs⟩ := h.split
  obtain ⟨hnodupas, hnodupbs, hdisjoint⟩ := List.nodup_append.1 h.nodup
  have hnodup : (as ++ x :: y :: bs).Nodup :=
    (List.nodup_middle).2 (List.nodup_cons.2 ⟨hx, h.nodup⟩)
  rw [List.mem_append, List.mem_cons, not_or, not_or] at hx
  obtain ⟨hxas, hxy, hxbs⟩ := hx
  have hlast : ∀ z ∈ as.getLast?, z ∈ as := fun z hz => List.mem_of_getLast? hz
  have hyas : y ∉ as := fun hy => hdisjoint y hy y (by simp) rfl
  have hxlast : some x ≠ as.getLast? := fun heq => hxas (hlast x heq.symm)
  have hylast : some y ≠ as.getLast? := fun heq => hyas (hlast y heq.symm)
  constructor
  · refine ⟨?_, ?_, hnodup⟩
    · rw [insertBefore_head, hprev, h.head]
      cases as with
      | nil => rfl
      | cons a as => simp [List.getLast?_cons]
    · rw [linked_append, linked_cons, linked_cons]
      refine ⟨?_, ?_, ?_, ?_, ?_, ?_⟩
      · refine (linked_congr fun z hz => ?_).2 (has.setNext hnodupas (some x))
        have hzx : z ≠ x := fun heq => hxas (heq ▸ hz)
        have hzy : z ≠ y := fun heq => hyas (heq ▸ hz)
        rw [← hprev]
        exact insertBefore_of_ne hzx hzy
      · simp [Function.update_of_ne hxy, hprev]
      · simp [hprev, setAt_of_ne hxlast]
      · simp
      · rw [insertBefore_next, hprev, setAt_of_ne hylast, Function.update_of_ne (Ne.symm hxy), hnext,
          Option.or_none]
      · refine (linked_congr fun z hz => ?_).2 hbs
        have hzx : z ≠ x := fun heq => hxbs (heq ▸ hz)
        have hzy : z ≠ y := fun heq => (List.nodup_cons.1 hnodupbs).1 (heq ▸ hz)
        obtain ⟨hznext, hzprev⟩ := insertBefore_of_ne (l := l) hzx hzy
        refine ⟨hznext.trans (setAt_of_ne fun heq => ?_), hzprev⟩
        exact hdisjoint z (hlast z (hprev ▸ heq.symm)) z (List.mem_cons_of_mem _ hz) rfl
  · intro z hz
    simp only [List.mem_append, List.mem_cons, not_or] at hz
    obtain ⟨hzas, hzx, hzy, -⟩ := hz
    obtain ⟨hznext, hzprev⟩ := insertBefore_of_ne (l := l) hzx hzy
    exact ⟨hznext.trans (setAt_of_ne fun heq => hzas (hlast z (hprev ▸ heq.symm))), hzprev⟩

lemma insertLast_spec (h : IsList l (as ++ [y])) (hx : x ∉ as ++ [y]) :
    IsList (l.insertLast y x) (as ++ [y, x]) ∧ SameOutside l (l.insertLast y x) (as ++ [y, x]) := by
  obtain ⟨has, hprev, -, -⟩ := h.split
  obtain ⟨-, -, hdisjoint⟩ := List.nodup_append.1 h.nodup
  have hnodup : (as ++ [y, x]).Nodup := by
    have happend : (as ++ [y]) ++ [x] = as ++ [y, x] := by simp
    rw [← happend]
    exact List.nodup_append.2 ⟨h.nodup, by simp, fun a ha b hb => by
      rw [List.mem_singleton] at hb
      exact fun heq => hx (hb ▸ heq ▸ ha)⟩
  rw [List.mem_append, List.mem_singleton, not_or] at hx
  obtain ⟨hxas, hxy⟩ := hx
  have hother : ∀ z, z ≠ x → z ≠ y →
      (l.insertLast y x).next z = l.next z ∧ (l.insertLast y x).prev z = l.prev z := by
    intro z hzx hzy
    rw [insertLast_next, insertLast_prev, Function.update_of_ne hzx, Function.update_of_ne hzy,
      Function.update_of_ne hzx]
    exact ⟨rfl, rfl⟩
  constructor
  · refine ⟨?_, ?_, hnodup⟩
    · rw [insertLast_head, h.head]
      cases as <;> rfl
    · rw [linked_append, linked_cons, linked_cons]
      refine ⟨(linked_congr fun z hz => ?_).2 has, ?_, ?_, ?_, ?_, trivial⟩
      · exact hother z (fun heq => hxas (heq ▸ hz)) fun heq => hdisjoint z hz y (by simp) heq
      · simp [Function.update_of_ne (Ne.symm hxy), hprev]
      · simp [Function.update_of_ne (Ne.symm hxy)]
      · simp
      · simp
  · intro z hz
    simp only [List.mem_append, List.mem_cons, not_or] at hz
    exact hother z hz.2.2.1 hz.2.1

lemma pushBack_spec (h : IsList l xs) (hx : x ∉ xs) : IsList (l.pushBack xs.getLast? x) (xs ++ [x]) := by
  rcases List.eq_nil_or_concat' xs with rfl | ⟨init, y, rfl⟩
  · exact ⟨rfl, by simp [setAt], by simp⟩
  · have hne : x ≠ y := fun heq => hx (by simp [heq])
    have hpush : l.pushBack (some y) x = l.insertLast y x := by
      rw [pushBack, insertLast, setAt, Function.update_comm hne]
      rfl
    rw [List.getLast?_concat, hpush, List.append_assoc]
    exact (insertLast_spec h hx).1

lemma popFront_spec (h : IsList l (x :: xs)) : IsList (l.popFront x) xs := by
  obtain ⟨-, hnext, hxs⟩ := linked_cons.1 h.linked
  rw [Option.or_none] at hnext
  have hnodup := (List.nodup_cons.1 h.nodup).2
  refine ⟨hnext, ?_, hnodup⟩
  show Linked l.next (setAt l.prev (l.next x) none) none xs none
  rw [hnext]
  exact hxs.setPrev hnodup none

end DList

end DDNet.Lib
