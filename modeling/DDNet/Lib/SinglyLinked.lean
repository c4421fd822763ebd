/-
Singly linked lists in a memory.

`Segment mem p xs q` says that the nodes `xs`, each with what it holds, are linked from the pointer `p` to the pointer
`q`.  The loops over a list take the number of nodes they may look at, and fail if they need more or if they follow a
pointer to memory that is not there.
-/
import Mathlib.Data.List.Basic
import Mathlib.Data.List.Nodup
import Mathlib.Data.List.TakeWhile
import Mathlib.Logic.Function.Basic

namespace DDNet.Lib

variable {ι α : Type*}

/-- A node: what it holds, and the node behind it. -/
structure Node (ι α : Type*) where
  value : α
  next : Option ι

/-- The nodes in memory. -/
abbrev Memory (ι α : Type*) := ι → Option (Node ι α)

/-- The nodes `xs` are linked from `p` to `q`. -/
def Segment (mem : Memory ι α) : Option ι → List (ι × α) → Option ι → Prop
  | p, [], q => p = q
  | p, (x, a) :: xs, q => p = some x ∧ ∃ next, mem x = some ⟨a, next⟩ ∧ Segment mem next xs q

/-- The addresses of nodes. -/
abbrev addresses (xs : List (ι × α)) : List ι := xs.map Prod.fst

/-! ### Segments -/

section Segment

variable {mem mem' : Memory ι α} {p q q' : Option ι} {x : ι} {a : α} {xs ys : List (ι × α)}

@[simp] lemma segment_nil : Segment mem p [] q ↔ p = q := Iff.rfl

@[simp] lemma segment_cons : Segment mem p ((x, a) :: xs) q ↔
    p = some x ∧ ∃ next, mem x = some ⟨a, next⟩ ∧ Segment mem next xs q := Iff.rfl

lemma segment_append : Segment mem p (xs ++ ys) q ↔ ∃ m, Segment mem p xs m ∧ Segment mem m ys q := by
  induction xs generalizing p with
  | nil => simp
  | cons x xs ih =>
    obtain ⟨x, a⟩ := x
    simp only [List.cons_append, segment_cons, ih]
    constructor
    · rintro ⟨rfl, next, hx, m, hxs, hys⟩
      exact ⟨m, ⟨rfl, next, hx, hxs⟩, hys⟩
    · rintro ⟨m, ⟨rfl, next, hx, hxs⟩, hys⟩
      exact ⟨rfl, next, hx, m, hxs, hys⟩

/-- Only the memory of the nodes themselves matters. -/
lemma Segment.frame (h : Segment mem p xs q) (hmem : ∀ x ∈ addresses xs, mem' x = mem x) : Segment mem' p xs q := by
  induction xs generalizing p with
  | nil => exact h
  | cons x xs ih =>
    obtain ⟨x, a⟩ := x
    obtain ⟨rfl, next, hx, hxs⟩ := h
    refine ⟨rfl, next, ?_, ih hxs fun y hy => hmem y (List.mem_cons_of_mem x hy)⟩
    rw [hmem x List.mem_cons_self, hx]

lemma Segment.unique (h : Segment mem p xs none) (h' : Segment mem p ys none) : xs = ys := by
  induction xs generalizing p ys with
  | nil =>
    cases ys with
    | nil => rfl
    | cons y ys => exact absurd (h.symm.trans h'.1) (Option.some_ne_none y.1).symm
  | cons x xs ih =>
    obtain ⟨x, a⟩ := x
    obtain ⟨rfl, next, hx, hxs⟩ := h
    cases ys with
    | nil => exact absurd h' (Option.some_ne_none x)
    | cons y ys =>
      obtain ⟨y, b⟩ := y
      obtain ⟨heq, next', hy, hys⟩ := h'
      obtain rfl := Option.some.inj heq
      rw [hx, Option.some_inj, Node.mk.injEq] at hy
      obtain ⟨rfl, rfl⟩ := hy
      rw [ih hxs hys]

lemma Segment.mem_ne_none (h : Segment mem p xs q) (hx : x ∈ addresses xs) : mem x ≠ none := by
  induction xs generalizing p with
  | nil => exact absurd hx List.not_mem_nil
  | cons y xs ih =>
    obtain ⟨y, b⟩ := y
    obtain ⟨rfl, next, hy, hxs⟩ := h
    obtain rfl | hx := List.mem_cons.1 hx
    · rw [hy]
      exact Option.some_ne_none _
    · exact ih hxs hx

/-- A list that ends has no cycle. -/
lemma Segment.nodup (h : Segment mem p xs none) : (addresses xs).Nodup := by
  induction xs generalizing p with
  | nil => exact List.nodup_nil
  | cons x xs ih =>
    obtain ⟨x, a⟩ := x
    obtain ⟨rfl, next, hx, hxs⟩ := h
    refine List.nodup_cons.2 ⟨fun hmem => ?_, ih hxs⟩
    -- the list from the second occurrence on would be the whole list
    obtain ⟨⟨x', b⟩, hxb, rfl⟩ := List.mem_map.1 hmem
    obtain ⟨as, bs, rfl⟩ := List.append_of_mem hxb
    obtain ⟨m, -, hm, hrest⟩ := segment_append.1 hxs
    have hwhole : Segment mem (some x') ((x', a) :: (as ++ (x', b) :: bs)) none := ⟨rfl, next, hx, hxs⟩
    have htail : Segment mem (some x') ((x', b) :: bs) none := ⟨rfl, hrest⟩
    have hlength := congrArg List.length (hwhole.unique htail)
    simp only [List.length_cons, List.length_append] at hlength
    omega

/-- The nodes with other values are freed. -/
lemma Segment.free (h : Segment mem p xs q) {f : α → Bool} (hf : ∀ x ∈ xs, f x.2 = true) :
    Segment (fun x => (mem x).filter (f ·.value)) p xs q := by
  induction xs generalizing p with
  | nil => exact h
  | cons x xs ih =>
    obtain ⟨x, a⟩ := x
    obtain ⟨rfl, next, hx, hxs⟩ := h
    refine ⟨rfl, next, ?_, ih hxs fun y hy => hf y (List.mem_cons_of_mem _ hy)⟩
    simp [hx, hf (x, a) List.mem_cons_self]

variable [DecidableEq ι]

/-- A node that is not of the segment is written. -/
lemma Segment.write (h : Segment mem p xs q) (hx : x ∉ addresses xs) (node : Node ι α) :
    Segment (Function.update mem x (some node)) p xs q :=
  h.frame fun y hy => Function.update_of_ne (by rintro rfl; exact hx hy) _ _

variable {as bs : List (ι × α)} {y : ι} {b : α}

/-- A node of a list points to the next one, and the others do not see a change of it. -/
lemma Segment.split (h : Segment mem p (as ++ (y, b) :: bs) none) (node : Node ι α) :
    ∃ next, mem y = some ⟨b, next⟩ ∧ Segment (Function.update mem y (some node)) p as (some y) ∧
      Segment (Function.update mem y (some node)) next bs none := by
  have hnodup := h.nodup
  simp only [addresses, List.map_append, List.map_cons, List.nodup_middle, List.nodup_cons, List.mem_append,
    not_or] at hnodup
  obtain ⟨m, has, rfl, next, hy, hbs⟩ := segment_append.1 h
  exact ⟨next, hy, has.write hnodup.1.1 node, hbs.write hnodup.1.2 node⟩

/-- The value of a node is changed. -/
lemma Segment.setValue (h : Segment mem p (as ++ (y, b) :: bs) none) (b' : α) :
    ∃ next, mem y = some ⟨b, next⟩ ∧
      Segment (Function.update mem y (some ⟨b', next⟩)) p (as ++ (y, b') :: bs) none := by
  obtain ⟨next, hy, -⟩ := h.split ⟨b', none⟩
  obtain ⟨next', hy', has, hbs⟩ := h.split ⟨b', next⟩
  obtain rfl : next = next' := by simpa [hy] using hy'
  exact ⟨next, hy, segment_append.2 ⟨some y, has, rfl, next, Function.update_self .., hbs⟩⟩

/-- A node is linked behind another one. -/
lemma Segment.insertAfter (h : Segment mem p (as ++ (y, b) :: bs) none) (hx : x ∉ addresses (as ++ (y, b) :: bs)) :
    ∃ next, mem y = some ⟨b, next⟩ ∧
      Segment (Function.update (Function.update mem x (some ⟨a, next⟩)) y (some ⟨b, some x⟩)) p
        (as ++ (y, b) :: (x, a) :: bs) none := by
  obtain ⟨next, hy, -⟩ := h.split ⟨b, some x⟩
  have hyx : y ≠ x := by
    rintro rfl
    exact hx (List.mem_map_of_mem (List.mem_append_right as List.mem_cons_self))
  obtain ⟨next', hy', has, hbs⟩ := (h.write hx ⟨a, next⟩).split ⟨b, some x⟩
  obtain rfl : next = next' := by simpa [hy, Function.update_of_ne hyx] using hy'
  refine ⟨next, hy, segment_append.2 ⟨some y, has, rfl, some x, Function.update_self .., rfl, next, ?_, hbs⟩⟩
  rw [Function.update_of_ne hyx.symm, Function.update_self]

/-- The node behind another one is taken out. -/
lemma Segment.removeAfter (h : Segment mem p (as ++ (y, b) :: (x, a) :: bs) none) :
    ∃ next, mem y = some ⟨b, some x⟩ ∧ mem x = some ⟨a, next⟩ ∧
      Segment (Function.update mem y (some ⟨b, next⟩)) p (as ++ (y, b) :: bs) none := by
  obtain ⟨m, -, rfl, next, hy, rfl, next', hx, -⟩ := segment_append.1 h
  obtain ⟨next'', hy', has, hrest⟩ := h.split ⟨b, next'⟩
  obtain rfl : next'' = some x := by simpa [hy] using hy'.symm
  obtain ⟨-, after, hx', hbs⟩ := hrest
  have hyx : x ≠ y := by
    rintro rfl
    have hnodup := h.nodup
    simp [List.nodup_middle] at hnodup
  obtain rfl : after = next' := by simpa [Function.update_of_ne hyx, hx] using hx'.symm
  exact ⟨after, hy, hx, segment_append.2 ⟨some y, has, rfl, after, Function.update_self .., hbs⟩⟩

end Segment

/-! ### Loops -/

section Loops

variable {mem mem' : Memory ι α} {f : α → Bool} {p : Option ι} {x : ι} {a : α} {xs : List (ι × α)} {n : ℕ}

/-- The first node that satisfies `f`. -/
def findNode (mem : Memory ι α) (f : α → Bool) : ℕ → Option ι → Option (Option ι)
  | _, none => some none
  | 0, some _ => none
  | n + 1, some x => (mem x).bind fun node =>
      if f node.value then some (some x) else findNode mem f n node.next

/-- The node, from `x` on, before the first one behind `x` that satisfies `f`; the last node if none does. -/
def findBefore (mem : Memory ι α) (f : α → Bool) : ℕ → ι → Option ι
  | 0, _ => none
  | n + 1, x => (mem x).bind fun node =>
      match node.next with
      | none => some x
      | some y => (mem y).bind fun next => if f next.value then some x else findBefore mem f n y

/-- Every node behind `x` that satisfies `f` is taken out. -/
def unlinkBehind [DecidableEq ι] (mem : Memory ι α) (f : α → Bool) : ℕ → Option ι → Option (Memory ι α)
  | _, none => some mem
  | 0, some _ => none
  | n + 1, some x => (mem x).bind fun node =>
      (findNode mem (!f ·) n node.next).bind fun next =>
        unlinkBehind (Function.update mem x (some { node with next := next })) f n next

lemma findNode_eq (h : Segment mem p xs none) (hn : xs.length ≤ n) :
    findNode mem f n p = some ((xs.find? (f ·.2)).map Prod.fst) := by
  induction xs generalizing p n with
  | nil =>
    obtain rfl : p = none := h
    rw [findNode]
    rfl
  | cons x xs ih =>
    obtain ⟨x, a⟩ := x
    obtain ⟨rfl, next, hx, hxs⟩ := h
    obtain ⟨n, rfl⟩ := Nat.exists_eq_add_of_le' (Nat.one_le_of_lt hn)
    rw [findNode, hx, Option.bind_some]
    cases hfa : f a with
    | true => simp [hfa]
    | false => simpa [hfa] using ih hxs (by simpa using hn)

lemma findBefore_eq (h : Segment mem (some x) ((x, a) :: xs) none) (hn : xs.length < n) :
    ∃ as y b, (x, a) :: xs.takeWhile (!f ·.2) = as ++ [(y, b)] ∧ findBefore mem f n x = some y := by
  induction xs generalizing x a n with
  | nil =>
    obtain ⟨n, rfl⟩ := Nat.exists_eq_add_of_le' hn
    obtain ⟨-, next, hx, rfl⟩ := h
    refine ⟨[], x, a, rfl, ?_⟩
    simp only [findBefore, hx, Option.bind_some]
  | cons y xs ih =>
    obtain ⟨y, b⟩ := y
    obtain ⟨n, rfl⟩ := Nat.exists_eq_add_of_le' (Nat.one_le_of_lt hn)
    obtain ⟨-, next, hx, rfl, next', hy, hxs⟩ := h
    simp only [findBefore, hx, hy, Option.bind_some]
    cases hfb : f b with
    | true => exact ⟨[], x, a, by simp [hfb], rfl⟩
    | false =>
      obtain ⟨as, z, c, hsplit, hz⟩ := ih ⟨rfl, next', hy, hxs⟩ (by simpa using hn)
      refine ⟨(x, a) :: as, z, c, ?_, hz⟩
      rw [List.takeWhile_cons_of_pos (by simp [hfb]), hsplit, List.cons_append]

lemma segment_dropWhile (h : Segment mem p xs none) (f : ι × α → Bool) :
    Segment mem (((xs.dropWhile f).head?).map Prod.fst) (xs.dropWhile f) none := by
  rw [← List.takeWhile_append_dropWhile (p := f) (l := xs)] at h
  obtain ⟨m, -, hm⟩ := segment_append.1 h
  cases hdrop : xs.dropWhile f with
  | nil => rfl
  | cons y ys =>
    rw [hdrop] at hm
    obtain ⟨y, b⟩ := y
    obtain ⟨rfl, hys⟩ := hm
    exact ⟨rfl, hys⟩

lemma head?_dropWhile {β : Type*} {f : β → Bool} {l : List β} {y : β} (h : y ∈ (l.dropWhile f).head?) :
    f y = false := by
  have hnot := List.head?_dropWhile_not f l
  rw [Option.mem_def.1 h] at hnot
  simpa using hnot

lemma filter_dropWhile {β : Type*} (f : β → Bool) (l : List β) :
    (l.dropWhile f).filter (!f ·) = l.filter (!f ·) := by
  have htake : (l.takeWhile f).filter (!f ·) = [] :=
    List.filter_eq_nil_iff.2 fun y hy => by simpa using List.mem_takeWhile_imp hy
  conv_rhs => rw [← List.takeWhile_append_dropWhile (p := f) (l := l)]
  rw [List.filter_append, htake, List.nil_append]

/-- The first node that does not satisfy `f`. -/
lemma findNode_not_eq (h : Segment mem p xs none) (hn : xs.length ≤ n) :
    findNode mem (!f ·) n p = some ((xs.dropWhile (f ·.2)).head?.map Prod.fst) := by
  rw [findNode_eq h hn, List.find?_eq_head?_dropWhile_not]
  simp

lemma unlinkBehind_eq [DecidableEq ι] (h : Segment mem p xs none) (hhead : ∀ y ∈ xs.head?, f y.2 = false)
    (hn : xs.length ≤ n) : ∃ mem', unlinkBehind mem f n p = some mem' ∧
      Segment mem' p (xs.filter (!f ·.2)) none ∧ ∀ z ∉ addresses xs, mem' z = mem z := by
  induction n generalizing mem p xs with
  | zero =>
    obtain rfl := List.length_eq_zero_iff.1 (Nat.le_zero.1 hn)
    obtain rfl : p = none := h
    exact ⟨mem, by rw [unlinkBehind], rfl, fun z _ => rfl⟩
  | succ n ih =>
    cases xs with
    | nil =>
      obtain rfl : p = none := h
      exact ⟨mem, by rw [unlinkBehind], rfl, fun z _ => rfl⟩
    | cons x xs =>
      obtain ⟨x, a⟩ := x
      have hnodup := h.nodup
      obtain ⟨rfl, next, hx, hxs⟩ := h
      have hfa : f a = false := hhead (x, a) rfl
      have hsub : ∀ y ∈ addresses (xs.dropWhile (f ·.2)), y ∈ addresses xs :=
        fun y hy => ((List.dropWhile_sublist _).map _).subset hy
      have hxmem : x ∉ addresses (xs.dropWhile (f ·.2)) := fun hmem => (List.nodup_cons.1 hnodup).1 (hsub x hmem)
      have hfind := findNode_not_eq (f := f) hxs (by simpa using hn)
      have hrest := (segment_dropWhile hxs (f ·.2)).write hxmem
        ⟨a, (xs.dropWhile (f ·.2)).head?.map Prod.fst⟩
      have hlength : (xs.dropWhile (f ·.2)).length ≤ n :=
        Nat.le_trans (List.dropWhile_sublist _).length_le (by simpa using hn)
      obtain ⟨mem', hmem', hsegment, hframe⟩ := ih hrest (fun y => head?_dropWhile) hlength
      refine ⟨mem', ?_, ?_, fun z hz => ?_⟩
      · rw [unlinkBehind, hx, Option.bind_some, hfind, Option.bind_some]
        exact hmem'
      · rw [List.filter_cons_of_pos (by simpa using hfa), ← filter_dropWhile]
        refine ⟨rfl, _, ?_, hsegment⟩
        rw [hframe x hxmem, Function.update_self]
      · obtain ⟨hne, hz⟩ := not_or.1 (mt List.mem_cons.2 hz)
        rw [hframe z fun hmem => hz (hsub z hmem), Function.update_of_ne hne]

end Loops

end DDNet.Lib
