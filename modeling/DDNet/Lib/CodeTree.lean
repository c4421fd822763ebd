/-
Binary code trees.

A code tree has symbols at its leaves; the code of a symbol is the path to its leaf, with
`false` for the left and `true` for the right subtree.  Reading bits from the root leads
to the symbol whose code was written, whatever bits follow it.
-/
import Mathlib.Tactic
import Mathlib.Data.List.Perm.Basic

namespace DDNet.Lib

/-- A binary tree with symbols at its leaves. -/
inductive CodeTree (α : Type*) where
  | leaf (a : α)
  | node (l r : CodeTree α)

namespace CodeTree

variable {α : Type*}

/-- The symbols of a tree, from left to right. -/
def leaves : CodeTree α → List α
  | leaf a => [a]
  | node l r => l.leaves ++ r.leaves

/-- The symbols with their codes. -/
def codes : CodeTree α → List (α × List Bool)
  | leaf a => [(a, [])]
  | node l r =>
      l.codes.map (fun x => (x.1, false :: x.2)) ++ r.codes.map (fun x => (x.1, true :: x.2))

/-- The length of the longest code. -/
def height : CodeTree α → ℕ
  | leaf _ => 0
  | node l r => max l.height r.height + 1

/-- The subtree that is reached by reading bits from the root, and the bits left when a
leaf is reached before. -/
def walk : CodeTree α → List Bool → CodeTree α × List Bool
  | leaf a, bs => (leaf a, bs)
  | node l r, [] => (node l r, [])
  | node l _, false :: bs => l.walk bs
  | node _ r, true :: bs => r.walk bs

@[simp] lemma leaves_leaf (a : α) : (leaf a).leaves = [a] := rfl

@[simp] lemma leaves_node (l r : CodeTree α) : (node l r).leaves = l.leaves ++ r.leaves := rfl

@[simp] lemma height_leaf (a : α) : (leaf a).height = 0 := rfl

@[simp] lemma height_node (l r : CodeTree α) : (node l r).height = max l.height r.height + 1 := rfl

lemma leaves_ne_nil (t : CodeTree α) : t.leaves ≠ [] := by
  induction t with
  | leaf a => simp
  | node l r ihl _ => simp [ihl]

lemma mem_codes_leaf {a b : α} {c : List Bool} : (b, c) ∈ (leaf a).codes ↔ b = a ∧ c = [] := by
  simp [codes]

lemma mem_codes_node {l r : CodeTree α} {a : α} {c : List Bool} :
    (a, c) ∈ (node l r).codes ↔
      (∃ c', c = false :: c' ∧ (a, c') ∈ l.codes) ∨ (∃ c', c = true :: c' ∧ (a, c') ∈ r.codes) := by
  simp only [codes, List.mem_append, List.mem_map, Prod.mk.injEq, Prod.exists]
  constructor
  · rintro (⟨a', c', hmem, rfl, rfl⟩ | ⟨a', c', hmem, rfl, rfl⟩)
    · exact Or.inl ⟨c', rfl, hmem⟩
    · exact Or.inr ⟨c', rfl, hmem⟩
  · rintro (⟨c', rfl, hmem⟩ | ⟨c', rfl, hmem⟩)
    · exact Or.inl ⟨a, c', hmem, rfl, rfl⟩
    · exact Or.inr ⟨a, c', hmem, rfl, rfl⟩

/-- The coded symbols are the leaves. -/
lemma mem_leaves_of_mem_codes {t : CodeTree α} {a : α} {c : List Bool} (h : (a, c) ∈ t.codes) :
    a ∈ t.leaves := by
  induction t generalizing c with
  | leaf b =>
    obtain ⟨rfl, -⟩ := mem_codes_leaf.1 h
    simp
  | node l r ihl ihr =>
    rcases mem_codes_node.1 h with ⟨c', -, h'⟩ | ⟨c', -, h'⟩
    · simp [ihl h']
    · simp [ihr h']

/-- Every leaf has a code. -/
lemma exists_code {t : CodeTree α} {a : α} (h : a ∈ t.leaves) : ∃ c, (a, c) ∈ t.codes := by
  induction t with
  | leaf b =>
    obtain rfl : a = b := by simpa using h
    exact ⟨[], mem_codes_leaf.2 ⟨rfl, rfl⟩⟩
  | node l r ihl ihr =>
    rcases List.mem_append.1 h with h | h
    · obtain ⟨c, hc⟩ := ihl h
      exact ⟨false :: c, mem_codes_node.2 (Or.inl ⟨c, rfl, hc⟩)⟩
    · obtain ⟨c, hc⟩ := ihr h
      exact ⟨true :: c, mem_codes_node.2 (Or.inr ⟨c, rfl, hc⟩)⟩

lemma length_le_height {t : CodeTree α} {a : α} {c : List Bool} (h : (a, c) ∈ t.codes) :
    c.length ≤ t.height := by
  induction t generalizing c with
  | leaf b =>
    obtain ⟨-, rfl⟩ := mem_codes_leaf.1 h
    simp
  | node l r ihl ihr =>
    rcases mem_codes_node.1 h with ⟨c', rfl, h'⟩ | ⟨c', rfl, h'⟩
    · have := ihl h'
      simp only [List.length_cons, height_node]
      omega
    · have := ihr h'
      simp only [List.length_cons, height_node]
      omega

/-- Some code is as long as the tree is high. -/
lemma exists_code_height (t : CodeTree α) : ∃ a c, (a, c) ∈ t.codes ∧ c.length = t.height := by
  induction t with
  | leaf a => exact ⟨a, [], mem_codes_leaf.2 ⟨rfl, rfl⟩, rfl⟩
  | node l r ihl ihr =>
    rcases le_total l.height r.height with h | h
    · obtain ⟨a, c, hc, hlen⟩ := ihr
      refine ⟨a, true :: c, mem_codes_node.2 (Or.inr ⟨c, rfl, hc⟩), ?_⟩
      simp only [List.length_cons, height_node]
      omega
    · obtain ⟨a, c, hc, hlen⟩ := ihl
      refine ⟨a, false :: c, mem_codes_node.2 (Or.inl ⟨c, rfl, hc⟩), ?_⟩
      simp only [List.length_cons, height_node]
      omega

/-- A tree of height `h` has at most `2 ^ h` leaves. -/
lemma length_leaves_le (t : CodeTree α) : t.leaves.length ≤ 2 ^ t.height := by
  induction t with
  | leaf a => simp
  | node l r ihl ihr =>
    have hl : 2 ^ l.height ≤ 2 ^ max l.height r.height :=
      Nat.pow_le_pow_right (by norm_num) (le_max_left _ _)
    have hr : 2 ^ r.height ≤ 2 ^ max l.height r.height :=
      Nat.pow_le_pow_right (by norm_num) (le_max_right _ _)
    rw [leaves_node, List.length_append, height_node, pow_succ]
    omega

/-! ### Reading codes -/

/-- Reading the code of a symbol leads to its leaf. -/
lemma walk_code {t : CodeTree α} {a : α} {c : List Bool} (h : (a, c) ∈ t.codes) (bs : List Bool) :
    t.walk (c ++ bs) = (leaf a, bs) := by
  induction t generalizing c with
  | leaf b =>
    obtain ⟨rfl, rfl⟩ := mem_codes_leaf.1 h
    rfl
  | node l r ihl ihr =>
    rcases mem_codes_node.1 h with ⟨c', rfl, h'⟩ | ⟨c', rfl, h'⟩
    · exact ihl h'
    · exact ihr h'

/-- A proper prefix of a code ends at an inner node. -/
lemma walk_prefix {t : CodeTree α} {a : α} {p c : List Bool} (h : (a, p ++ c) ∈ t.codes)
    (hc : c ≠ []) : ∃ l r, t.walk p = (node l r, []) ∧ (a, c) ∈ (node l r).codes := by
  induction t generalizing p with
  | leaf b =>
    obtain ⟨-, hnil⟩ := mem_codes_leaf.1 h
    exact absurd (List.append_eq_nil_iff.1 hnil).2 hc
  | node l r ihl ihr =>
    cases p with
    | nil => exact ⟨l, r, rfl, h⟩
    | cons b p =>
      rcases mem_codes_node.1 h with ⟨c', heq, h'⟩ | ⟨c', heq, h'⟩
      · obtain ⟨rfl, rfl⟩ := List.cons_eq_cons.1 heq
        exact ihl h'
      · obtain ⟨rfl, rfl⟩ := List.cons_eq_cons.1 heq
        exact ihr h'

/-- Bits that lead to a leaf start with its code. -/
lemma code_of_walk {t : CodeTree α} {a : α} {bs rest : List Bool} (h : t.walk bs = (leaf a, rest)) :
    ∃ c, bs = c ++ rest ∧ (a, c) ∈ t.codes := by
  induction t generalizing bs with
  | leaf b =>
    obtain ⟨hleaf, rfl⟩ := Prod.mk.inj h
    obtain rfl := leaf.inj hleaf
    exact ⟨[], rfl, mem_codes_leaf.2 ⟨rfl, rfl⟩⟩
  | node l r ihl ihr =>
    match bs, h with
    | [], h => exact nomatch (Prod.mk.inj h).1
    | false :: bs, h =>
      obtain ⟨c, rfl, hc⟩ := ihl h
      exact ⟨false :: c, rfl, mem_codes_node.2 (Or.inl ⟨c, rfl, hc⟩)⟩
    | true :: bs, h =>
      obtain ⟨c, rfl, hc⟩ := ihr h
      exact ⟨true :: c, rfl, mem_codes_node.2 (Or.inr ⟨c, rfl, hc⟩)⟩

/-- Bits that lead to an inner node are all read, and the codes below it go on from there. -/
lemma walk_inner {t l r : CodeTree α} {bs rest : List Bool} (h : t.walk bs = (node l r, rest)) :
    rest = [] ∧ ∀ a c, (a, c) ∈ (node l r).codes → (a, bs ++ c) ∈ t.codes := by
  induction t generalizing bs with
  | leaf b => exact nomatch (Prod.mk.inj h).1
  | node l' r' ihl ihr =>
    match bs, h with
    | [], h =>
      obtain ⟨htree, rfl⟩ := Prod.mk.inj h
      rw [htree]
      exact ⟨rfl, fun a c hc => hc⟩
    | false :: bs, h =>
      obtain ⟨hrest, hcodes⟩ := ihl h
      exact ⟨hrest, fun a c hc => mem_codes_node.2 (Or.inl ⟨bs ++ c, rfl, hcodes a c hc⟩)⟩
    | true :: bs, h =>
      obtain ⟨hrest, hcodes⟩ := ihr h
      exact ⟨hrest, fun a c hc => mem_codes_node.2 (Or.inr ⟨bs ++ c, rfl, hcodes a c hc⟩)⟩

lemma exists_code_inner (l r : CodeTree α) : ∃ a c, (a, c) ∈ (node l r).codes ∧ c ≠ [] := by
  obtain ⟨a, ha⟩ := List.exists_mem_of_ne_nil _ (leaves_ne_nil l)
  obtain ⟨c, hc⟩ := exists_code ha
  exact ⟨a, false :: c, mem_codes_node.2 (Or.inl ⟨c, rfl, hc⟩), List.cons_ne_nil _ _⟩

/-! ### Weights -/

variable (w : α → ℕ)

/-- The weight of a tree: the sum of the weights of its symbols. -/
def weight (t : CodeTree α) : ℕ := (t.leaves.map w).sum

@[simp] lemma weight_leaf (a : α) : (leaf a).weight w = w a := by simp [weight]

@[simp] lemma weight_node (l r : CodeTree α) :
    (node l r).weight w = l.weight w + r.weight w := by simp [weight]

/-- The weight of the heavier child of the root, 0 for a leaf. -/
def childWeight : CodeTree α → ℕ
  | leaf _ => 0
  | node l r => max (l.weight w) (r.weight w)

/-- No child of a node is heavier than the sibling of the node.  This is what joining the
two lightest trees leaves behind. -/
def SiblingProperty : CodeTree α → Prop
  | leaf _ => True
  | node l r => l.childWeight w ≤ r.weight w ∧ r.childWeight w ≤ l.weight w ∧
      l.SiblingProperty ∧ r.SiblingProperty

variable {w}

/-- A tree with the sibling property and positive weights is at least as heavy as a
Fibonacci number of its height. -/
lemma fib_le_weight {t : CodeTree α} (ht : t.SiblingProperty w) (hw : ∀ a ∈ t.leaves, 0 < w a) :
    Nat.fib (t.height + 2) ≤ t.weight w := by
  -- with the bound for the heavier child of the root, which the sibling has to match
  suffices hboth : Nat.fib (t.height + 2) ≤ t.weight w ∧
      Nat.fib (t.height + 1) ≤ max 1 (t.childWeight w) from hboth.1
  induction t with
  | leaf a =>
    have := hw a (by simp)
    simp only [height_leaf, weight_leaf, childWeight]
    exact ⟨by simpa [Nat.succ_le_iff] using this, by simp⟩
  | node l r ihl ihr =>
    obtain ⟨hlr, hrl, hl, hr⟩ := ht
    obtain ⟨hl1, hl2⟩ := ihl hl fun a ha => hw a (by simp [ha])
    obtain ⟨hr1, hr2⟩ := ihr hr fun a ha => hw a (by simp [ha])
    have hlpos : 0 < Nat.fib (l.height + 2) := Nat.fib_pos.2 (by omega)
    have hrpos : 0 < Nat.fib (r.height + 2) := Nat.fib_pos.2 (by omega)
    simp only [height_node, weight_node, childWeight]
    rcases le_total l.height r.height with h | h
    · rw [max_eq_right h]
      have hstep : Nat.fib (r.height + 1 + 2) = Nat.fib (r.height + 1) + Nat.fib (r.height + 2) :=
        Nat.fib_add_two
      constructor
      · rw [hstep]
        omega
      · rw [show r.height + 1 + 1 = r.height + 2 from rfl]
        omega
    · rw [max_eq_left h]
      have hstep : Nat.fib (l.height + 1 + 2) = Nat.fib (l.height + 1) + Nat.fib (l.height + 2) :=
        Nat.fib_add_two
      constructor
      · rw [hstep]
        omega
      · rw [show l.height + 1 + 1 = l.height + 2 from rfl]
        omega

lemma le_weight {t : CodeTree α} {a : α} (h : a ∈ t.leaves) : w a ≤ t.weight w :=
  List.le_sum_of_mem (List.mem_map_of_mem h)

/-- A leaf of a subtree other than the root weighs at most the heavier child. -/
lemma le_childWeight {l r : CodeTree α} {a : α} (h : a ∈ (node l r).leaves) :
    w a ≤ (node l r).childWeight w := by
  rw [childWeight]
  rcases List.mem_append.1 h with h | h
  · exact (le_weight h).trans (le_max_left _ _)
  · exact (le_weight h).trans (le_max_right _ _)

/-- A symbol that outweighs all others together is a child of the root. -/
lemma child_of_dominant {l r : CodeTree α} {a : α} (ht : (node l r).SiblingProperty w)
    (ha : a ∈ (node l r).leaves) (hdom : (node l r).weight w < 2 * w a) :
    l = leaf a ∨ r = leaf a := by
  obtain ⟨hlr, hrl, -, -⟩ := ht
  rw [weight_node] at hdom
  rcases List.mem_append.1 ha with h | h
  · cases l with
    | leaf b =>
      obtain rfl : a = b := by simpa using h
      exact Or.inl rfl
    | node l₁ l₂ =>
      have h1 := le_weight (w := w) h
      have h2 := le_childWeight (w := w) h
      omega
  · cases r with
    | leaf b =>
      obtain rfl : a = b := by simpa using h
      exact Or.inr rfl
    | node r₁ r₂ =>
      have h1 := le_weight (w := w) h
      have h2 := le_childWeight (w := w) h
      omega

variable (w)

/-- Each symbol of the list weighs more than all that follow it and `rest` together. -/
def Dominates (rest : ℕ) : List α → Prop
  | [] => True
  | a :: ds => (ds.map w).sum + rest < w a ∧ Dominates rest ds

variable {w}

/-- Symbols that outweigh all lighter ones hang one below the other; the other symbols are
the tree below the last of them. -/
lemma exists_rest {t : CodeTree α} {ds l : List α} (ht : t.SiblingProperty w)
    (hperm : t.leaves.Perm (ds ++ l)) (hl : l ≠ []) (hdom : Dominates w (l.map w).sum ds) :
    ∃ rest : CodeTree α, rest.SiblingProperty w ∧ rest.leaves.Perm l ∧
      t.height = ds.length + rest.height := by
  induction ds generalizing t with
  | nil => exact ⟨t, ht, hperm, by simp⟩
  | cons a ds ih =>
    obtain ⟨hlt, hdom⟩ := hdom
    have hweight : t.weight w = w a + ((ds.map w).sum + (l.map w).sum) := by
      rw [weight, (hperm.map w).sum_eq]
      simp
    cases t with
    | leaf b =>
      have hlen := hperm.length_eq
      simp only [leaves_leaf, List.length_append, List.length_cons, List.length_nil] at hlen
      have := List.length_pos_iff.2 hl
      omega
    | node x y =>
      obtain ⟨-, -, hx, hy⟩ := id ht
      have hmem : a ∈ (node x y).leaves := hperm.mem_iff.2 (by simp)
      rcases child_of_dominant ht hmem (by omega) with rfl | rfl
      · obtain ⟨rest, hrest, hp, hh⟩ := ih hy (List.Perm.cons_inv hperm) hdom
        refine ⟨rest, hrest, hp, ?_⟩
        simp only [height_node, height_leaf, List.length_cons]
        omega
      · have hswap : (a :: x.leaves).Perm (a :: (ds ++ l)) :=
          (List.perm_append_singleton a x.leaves).symm.trans hperm
        obtain ⟨rest, hrest, hp, hh⟩ := ih hx hswap.cons_inv hdom
        refine ⟨rest, hrest, hp, ?_⟩
        simp only [height_node, height_leaf, List.length_cons]
        omega

/-! ### Joining the two lightest trees -/

variable (w)

/-- Each tree of a forest has the sibling property, and would still have it as the sibling
of any other tree of the forest. -/
def Joinable (ts : List (CodeTree α)) : Prop :=
  (∀ t ∈ ts, t.SiblingProperty w) ∧
    ts.Pairwise fun s t => s.childWeight w ≤ t.weight w ∧ t.childWeight w ≤ s.weight w

variable {w}

lemma Joinable.perm {ts us : List (CodeTree α)} (h : Joinable w ts) (hp : ts.Perm us) :
    Joinable w us :=
  ⟨fun t ht => h.1 t (hp.mem_iff.2 ht),
    (hp.pairwise_iff fun hst => And.symm hst).1 h.2⟩

lemma joinable_leaves (l : List α) : Joinable w (l.map leaf) := by
  refine ⟨?_, ?_⟩
  · intro t ht
    obtain ⟨a, -, rfl⟩ := List.mem_map.1 ht
    trivial
  · rw [List.pairwise_map]
    exact List.pairwise_of_forall fun a b => ⟨Nat.zero_le _, Nat.zero_le _⟩

/-- Joining two trees that are not heavier than any other. -/
lemma Joinable.join {s t : CodeTree α} {us : List (CodeTree α)} (h : Joinable w (s :: t :: us))
    (hs : ∀ u ∈ us, s.weight w ≤ u.weight w) (ht : ∀ u ∈ us, t.weight w ≤ u.weight w) :
    Joinable w (node s t :: us) := by
  obtain ⟨hprop, hpair⟩ := h
  obtain ⟨hsall, htail⟩ := List.pairwise_cons.1 hpair
  obtain ⟨htall, hus⟩ := List.pairwise_cons.1 htail
  have hst := hsall t (by simp)
  refine ⟨?_, List.pairwise_cons.2 ⟨?_, hus⟩⟩
  · intro x hx
    rcases List.mem_cons.1 hx with rfl | hx
    · exact ⟨hst.1, hst.2, hprop s (by simp), hprop t (by simp)⟩
    · exact hprop x (by simp [hx])
  · intro u hu
    have hsu := hsall u (by simp [hu])
    refine ⟨max_le (hs u hu) (ht u hu), ?_⟩
    rw [weight_node]
    omega

end CodeTree

end DDNet.Lib
