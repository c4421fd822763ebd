/-
The tree that `ConstructTree` builds, as a tree.

`stable_sort` is called on a list that is sorted but for the node added last, so a round of the loop joins the two trees
at the light end of a sorted list and inserts the result (`joinTrees`).  This form is computed without the node table,
which gives single codes of the default table (`eof_code_default`).
-/
import DDNet.Lib.StableInsert
import DDNet.Shared.HuffmanTree

namespace DDNet

open Lib Lib.CodeTree

namespace CHuffman

/-- A tree with its weight is inserted in front of the trees that are not lighter. -/
def insertTree (x : ℕ × CodeTree ℕ) (trees : List (ℕ × CodeTree ℕ)) : List (ℕ × CodeTree ℕ) :=
  insertFirst (fun y x => x.1 ≤ y.1) x trees

/-- The two lightest trees are joined until one is left. -/
def joinTrees : ℕ → List (ℕ × CodeTree ℕ) → List (ℕ × CodeTree ℕ)
  | rounds + 1, x :: y :: trees => joinTrees rounds (insertTree (x.1 + y.1, .node x.2 y.2) trees)
  | _, trees => trees

/-- The symbols with their weights, the lightest first. -/
def symbolTrees (weights : List (ℕ × ℕ)) : List (ℕ × CodeTree ℕ) :=
  weights.foldl (fun trees w => insertTree (w.2, .leaf w.1) trees) []

/-! ### Sorted lists of nodes -/

lemma stableSort_of_pairwise {l : List CHuffmanConstructNode}
    (h : l.Pairwise fun a b => compareNodesByFrequencyDesc b a = false) : stableSort l = l :=
  h.insertionSort_eq

/-- Sorting after a node was added, from the light end. -/
lemma stableSort_append_reverse (l : List CHuffmanConstructNode) (n : CHuffmanConstructNode) :
    (stableSort (l ++ [n])).reverse =
      insertFirst (fun a b => compareNodesByFrequencyDesc b a = false) n (stableSort l).reverse := by
  rw [stableSort, insertionSort_append_singleton]
  exact reverse_insertLast n (List.pairwise_insertionSort _ _)

/-- The node stands for the tree and has its weight. -/
def StandsFor (nodes : Nodes) (n : CHuffmanConstructNode) (x : ℕ × CodeTree ℕ) : Prop :=
  Represents nodes n.nodeId x.2 ∧ n.frequency = x.1

lemma StandsFor.append {nodes : Nodes} {n : CHuffmanConstructNode} {x : ℕ × CodeTree ℕ} (h : StandsFor nodes n x)
    (more : Nodes) : StandsFor (nodes ++ more) n x :=
  ⟨h.1.congr (by simp) fun j hj _ => node_append hj more, h.2⟩

lemma StandsFor.before_iff {nodes : Nodes} {n m : CHuffmanConstructNode} {x y : ℕ × CodeTree ℕ}
    (hm : StandsFor nodes m y) (hn : StandsFor nodes n x) :
    compareNodesByFrequencyDesc n m = false ↔ x.1 ≤ y.1 := by
  rw [compareNodesByFrequencyDesc, decide_eq_false_iff_not, not_lt, hn.2, hm.2]
  exact Nat.cast_le

/-- The nodes that are left, sorted, stand for the trees, and the last of them is the last node made. -/
structure Ordered (nodes : Nodes) (left : List CHuffmanConstructNode) (trees : List (ℕ × CodeTree ℕ)) : Prop where
  roots : List.Forall₂ (StandsFor nodes) (stableSort left).reverse trees
  fits : (trees.map Prod.fst).sum < 2 ^ 31
  last : ∃ init n, left = init ++ [n] ∧ n.nodeId = nodes.length - 1
  symbols : huffmanMaxSymbols ≤ nodes.length

namespace Ordered

variable {nodes : Nodes} {left : List CHuffmanConstructNode} {trees : List (ℕ × CodeTree ℕ)}

lemma length_eq (h : Ordered nodes left trees) : left.length = trees.length := by
  rw [← h.roots.length_eq, List.length_reverse]
  exact (stableSort_perm left).length_eq.symm

lemma sum_insertFirst (x : ℕ × CodeTree ℕ) (trees : List (ℕ × CodeTree ℕ)) :
    ((insertTree x trees).map Prod.fst).sum = x.1 + (trees.map Prod.fst).sum := by
  rw [insertTree]
  induction trees with
  | nil => rfl
  | cons y trees ih =>
    rw [insertFirst]
    split_ifs
    · rfl
    · simp only [List.map_cons, List.sum_cons, ih]
      omega

/-- One round. -/
lemma join {x y : ℕ × CodeTree ℕ} (h : Ordered nodes left (x :: y :: trees)) :
    ∃ init prev last, stableSort left = init ++ [prev, last] ∧
      Ordered (nodes ++ [⟨0, 0, last.nodeId, prev.nodeId, 0⟩])
        (init ++ [⟨nodes.length, toInt32 (last.frequency + prev.frequency)⟩])
        (insertTree (x.1 + y.1, .node x.2 y.2) trees) := by
  obtain ⟨last, rest, hlast, hrest, hsort⟩ := List.forall₂_cons_right_iff.1 h.roots
  obtain ⟨prev, init, hprev, hinit, rfl⟩ := List.forall₂_cons_right_iff.1 hrest
  have hsorted : stableSort left = init.reverse ++ [prev, last] := by
    rw [← List.reverse_reverse (stableSort left), hsort]
    simp
  refine ⟨init.reverse, prev, last, hsorted, ?_, ?_, ⟨_, _, rfl, by simp⟩, ?_⟩
  · -- the rest is still sorted, so the new node is all that is inserted
    have hpairwise : init.reverse.Pairwise fun a b => compareNodesByFrequencyDesc b a = false := by
      have hall := List.pairwise_insertionSort (fun a b => compareNodesByFrequencyDesc b a = false) left
      rw [← stableSort, hsorted] at hall
      exact (List.pairwise_append.mp hall).1
    have hfits := h.fits
    simp only [List.map_cons, List.sum_cons] at hfits
    have hnew : StandsFor (nodes ++ [⟨0, 0, last.nodeId, prev.nodeId, 0⟩])
        ⟨nodes.length, toInt32 (last.frequency + prev.frequency)⟩ (x.1 + y.1, .node x.2 y.2) := by
      refine ⟨⟨h.symbols, by simp, ?_, ?_, ?_⟩, ?_⟩
      · rw [node_append_self]
      · rw [node_append_self]
        exact (hlast.append _).1
      · rw [node_append_self]
        exact (hprev.append _).1
      · simp only [hlast.2, hprev.2]
        rw [toInt32_of_lt (by positivity) (by omega)]
        push_cast
        rfl
    rw [stableSort_append_reverse, stableSort_of_pairwise hpairwise, List.reverse_reverse]
    exact forall₂_insertFirst hnew (hinit.imp fun _ _ hr => hr.append _) fun m y hm => hm.before_iff hnew
  · rw [sum_insertFirst]
    have hfits := h.fits
    simp only [List.map_cons, List.sum_cons] at hfits
    simp only
    omega
  · simp only [List.length_append, List.length_singleton]
    have := h.symbols
    omega

end Ordered

lemma joinNodes_succ {left init : List CHuffmanConstructNode} {prev last : CHuffmanConstructNode} (rounds : ℕ)
    (nodes : Nodes) (h : stableSort left = init ++ [prev, last]) :
    joinNodes (rounds + 1) nodes left = joinNodes rounds (nodes ++ [⟨0, 0, last.nodeId, prev.nodeId, 0⟩])
      (init ++ [⟨nodes.length, toInt32 (last.frequency + prev.frequency)⟩]) := by
  have hlength : left.length = init.length + 2 := by
    rw [← (stableSort_perm left).length_eq, h]
    simp
  rw [joinNodes, if_neg (by omega), h]
  simp [List.getD_eq_getElem?_getD]

/-- The tree that is left at the end is the one in the table. -/
lemma Ordered.represents {nodes : Nodes} {left : List CHuffmanConstructNode} {x : ℕ × CodeTree ℕ}
    (h : Ordered nodes left [x]) : Represents nodes (startNode nodes) x.2 := by
  obtain ⟨init, n, rfl, hid⟩ := h.last
  obtain rfl : init = [] := by
    have := h.length_eq
    simpa using this
  have hroots := h.roots
  change List.Forall₂ (StandsFor nodes) [n] [x] at hroots
  rw [startNode, ← hid]
  exact (List.forall₂_cons.mp hroots).1.1

/-- The loop on the nodes and the loop on the trees. -/
lemma joinNodes_joinTrees (rounds : ℕ) {nodes : Nodes} {left : List CHuffmanConstructNode}
    {trees : List (ℕ × CodeTree ℕ)} (h : Ordered nodes left trees) (hrounds : trees.length ≤ rounds + 1) :
    ∃ x, joinTrees rounds trees = [x] ∧
      Represents (joinNodes rounds nodes left) (startNode (joinNodes rounds nodes left)) x.2 := by
  have hpos : trees.length ≠ 0 := by
    obtain ⟨init, n, rfl, -⟩ := h.last
    rw [← h.length_eq]
    simp
  induction rounds generalizing nodes left trees with
  | zero =>
    match trees, hrounds, hpos with
    | [x], _, _ => exact ⟨x, rfl, h.represents⟩
  | succ rounds ih =>
    match trees, hrounds, hpos with
    | [x], _, _ =>
      refine ⟨x, rfl, ?_⟩
      rw [joinNodes, if_pos (by rw [h.length_eq]; rfl)]
      exact h.represents
    | x :: y :: trees, hrounds, _ =>
      obtain ⟨init, prev, last, hsorted, hjoin⟩ := h.join
      rw [joinNodes_succ rounds nodes hsorted, joinTrees]
      have hlength := hjoin.length_eq
      have hleft := h.length_eq
      rw [← (stableSort_perm left).length_eq, hsorted] at hleft
      simp only [List.length_append, List.length_cons, List.length_nil] at hlength hleft hrounds
      exact ih hjoin (by omega) (by omega)

/-- The symbols, sorted. -/
lemma ordered_symbols {frequencies : ℕ → ℕ} (hfit : FitsInt frequencies) :
    Ordered ((List.range huffmanMaxSymbols).map symbolNode) (symbolsLeft frequencies)
      (symbolTrees ((List.range huffmanMaxSymbols).map fun s => (s, symbolWeight frequencies s))) := by
  have hforest := forest_symbols frequencies
  have hroots : ∀ i ∈ List.range huffmanMaxSymbols, StandsFor ((List.range huffmanMaxSymbols).map symbolNode)
      ⟨i, if i = huffmanEofSymbol then 1 else toInt32 (frequencies i)⟩ (symbolWeight frequencies i, .leaf i) := by
    have hall := hforest.roots
    rw [symbolsLeft, List.forall₂_map_left_iff, List.forall₂_map_right_iff, List.forall₂_same] at hall
    intro i hi
    obtain ⟨hrep, hweight⟩ := hall i hi
    rw [weight_leaf] at hweight
    exact ⟨hrep, hweight hfit⟩
  have hsum : ((symbolTrees ((List.range huffmanMaxSymbols).map fun s => (s, symbolWeight frequencies s))).map
      Prod.fst).sum = ((List.range huffmanMaxSymbols).map (symbolWeight frequencies)).sum := by
    generalize List.range huffmanMaxSymbols = l
    induction l using List.reverseRecOn with
    | nil => rfl
    | append_singleton l s ih =>
      rw [symbolTrees] at ih ⊢
      simp only [List.map_append, List.map_cons, List.map_nil, List.foldl_append, List.foldl_cons, List.foldl_nil,
        List.sum_append, List.sum_cons, List.sum_nil]
      rw [Ordered.sum_insertFirst, ih]
      omega
  refine ⟨?_, by rw [hsum]; exact hfit, hforest.last, by simp⟩
  rw [symbolsLeft]
  revert hroots
  generalize (List.range huffmanMaxSymbols).map symbolNode = nodes
  generalize List.range huffmanMaxSymbols = l
  intro hroots
  induction l using List.reverseRecOn with
  | nil => exact .nil
  | append_singleton l s ih =>
    have hs := hroots s (by simp)
    rw [symbolTrees] at ih ⊢
    simp only [List.map_append, List.map_cons, List.map_nil, List.foldl_append, List.foldl_cons, List.foldl_nil]
    rw [stableSort_append_reverse]
    exact forall₂_insertFirst hs (ih fun i hi => hroots i (List.mem_append_left _ hi)) fun m y hm => hm.before_iff hs

/-- A node of a table is the root of one tree only. -/
lemma Represents.unique {nodes : Nodes} {i : ℕ} {t u : CodeTree ℕ} (ht : Represents nodes i t)
    (hu : Represents nodes i u) : t = u := by
  induction t generalizing i u with
  | leaf s =>
    cases u with
    | leaf s' => rw [← ht.1, ← hu.1]
    | node l r => exact absurd hu.2.2.1 ht.2.2.2.1
  | node l r ihl ihr =>
    cases u with
    | leaf s' => exact absurd ht.2.2.1 hu.2.2.2.1
    | node l' r' => rw [ihl ht.2.2.2.1 hu.2.2.2.1, ihr ht.2.2.2.2 hu.2.2.2.2]

/-- The code table that `Init` makes holds the tree that the loop on trees makes. -/
theorem constructTree_joinTrees {frequencies : ℕ → ℕ} (hfit : FitsInt frequencies) :
    ∃ w t, joinTrees huffmanMaxSymbols
        (symbolTrees ((List.range huffmanMaxSymbols).map fun s => (s, symbolWeight frequencies s))) = [(w, t)] ∧
      CodeTable (constructTree frequencies) t := by
  have hordered := ordered_symbols hfit
  have hlength : (symbolTrees ((List.range huffmanMaxSymbols).map fun s => (s, symbolWeight frequencies s))).length =
      huffmanMaxSymbols := by
    rw [← hordered.length_eq]
    simp [symbolsLeft]
  obtain ⟨⟨w, t⟩, hjoin, hrep⟩ := joinNodes_joinTrees huffmanMaxSymbols hordered (by omega)
  obtain ⟨⟨u, htree⟩, -⟩ := treeNodes_isTree frequencies
  obtain rfl : t = u := Represents.unique hrep htree.root
  exact ⟨w, t, hjoin, htree.codeTable⟩

/-! ### The default table -/

/-- The code of the end of the stream in the default table. -/
def eofCode : List Bool :=
  [false, true, false, true, false, false, false, true, true, true, false, true, true, false, false]

/-- Whether a tree is the leaf of a symbol. -/
def isLeafOf (s : ℕ) : CodeTree ℕ → Bool
  | .leaf a => a == s
  | .node _ _ => false

lemma weights_default : ((List.range huffmanMaxSymbols).map fun s => (s, symbolWeight defaultFrequencies s)) =
    (List.range 257).zip (freqTable.take 256 ++ [1]) := by
  decide +kernel

/-- The tree of the default table has the end symbol at the end of this path. -/
lemma joinTrees_default :
    (joinTrees huffmanMaxSymbols (symbolTrees ((List.range 257).zip (freqTable.take 256 ++ [1])))).map
      (fun x => isLeafOf huffmanEofSymbol (x.2.walk eofCode).1 && (x.2.walk eofCode).2.isEmpty) = [true] := by
  decide +kernel

lemma eq_leaf_of_isLeafOf {s : ℕ} {t : CodeTree ℕ} (h : isLeafOf s t = true) : t = .leaf s := by
  cases t with
  | leaf a => rw [eq_of_beq h]
  | node l r => exact absurd h Bool.false_ne_true

lemma eof_code_default : ∃ t, CodeTable (constructTree defaultFrequencies) t ∧ (huffmanEofSymbol, eofCode) ∈ t.codes := by
  obtain ⟨w, t, hjoin, ht⟩ := constructTree_joinTrees fitsInt_default
  have hpath := joinTrees_default
  rw [weights_default] at hjoin
  rw [hjoin] at hpath
  simp only [List.map_cons, List.map_nil, List.cons.injEq, and_true, Bool.and_eq_true, List.isEmpty_iff] at hpath
  have hwalk : t.walk eofCode = (.leaf huffmanEofSymbol, []) := Prod.ext (eq_leaf_of_isLeafOf hpath.1) hpath.2
  obtain ⟨c, hc, hmem⟩ := code_of_walk hwalk
  rw [List.append_nil] at hc
  exact ⟨t, ht, hc ▸ hmem⟩

end CHuffman

end DDNet
