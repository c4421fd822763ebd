/-
The tree behind the Huffman node table.

`ConstructTree` fills a table of nodes that refer to each other by index.  This file shows
that its result is a binary code tree with every symbol at exactly one leaf
(`constructTree_codeTable`): each round of the loop joins two trees of a forest that holds
the symbols once each, and `Setbits_r` writes to every leaf the path that leads to it.

When the frequencies do not overflow an `int`, the two trees that are joined are the
lightest ones, so the tree has the sibling property and its height is bounded by the
Fibonacci numbers.  The default table is an instance (`numBits_default_le`).
-/
import DDNet.Shared.Huffman
import DDNet.Lib.CodeTree
import DDNet.Lib.BitString

namespace DDNet

open Lib Lib.CodeTree

namespace CHuffman

/-! ### Trees in a node table -/

/-- The node `i` of the table is the root of the tree `t`. -/
def Represents (nodes : Nodes) : ℕ → CodeTree ℕ → Prop
  | i, .leaf s => i = s ∧ s < huffmanMaxSymbols ∧ i < nodes.length ∧ (node nodes i).numBits ≠ 0 ∧
      (node nodes i).leaf0 = 0xffff ∧ (node nodes i).leaf1 = 0xffff ∧
      (node nodes i).symbol = UInt8.ofNat s
  | i, .node l r => huffmanMaxSymbols ≤ i ∧ i < nodes.length ∧ (node nodes i).numBits = 0 ∧
      Represents nodes (node nodes i).leaf0 l ∧ Represents nodes (node nodes i).leaf1 r

lemma Represents.lt_length {nodes : Nodes} {i : ℕ} {t : CodeTree ℕ} (h : Represents nodes i t) :
    i < nodes.length := by
  cases t with
  | leaf s => exact h.2.2.1
  | node l r => exact h.2.1

lemma Represents.leaves_lt {nodes : Nodes} {i : ℕ} {t : CodeTree ℕ} (h : Represents nodes i t) :
    ∀ s ∈ t.leaves, s < huffmanMaxSymbols := by
  induction t generalizing i with
  | leaf a =>
    intro s hs
    obtain rfl : s = a := by simpa using hs
    exact h.2.1
  | node l r ihl ihr =>
    obtain ⟨-, -, -, hl, hr⟩ := h
    intro s hs
    rcases List.mem_append.1 hs with hs | hs
    · exact ihl hl s hs
    · exact ihr hr s hs

lemma node_append {nodes : Nodes} {i : ℕ} (h : i < nodes.length) (more : Nodes) :
    node (nodes ++ more) i = node nodes i := by
  simp only [node, List.getD_eq_getElem?_getD, List.getElem?_append_left h]

lemma node_append_self (nodes : Nodes) (n : CNode) : node (nodes ++ [n]) nodes.length = n := by
  simp [node, List.getD_eq_getElem?_getD]

lemma node_set_self {nodes : Nodes} {i : ℕ} (h : i < nodes.length) (n : CNode) :
    node (nodes.set i n) i = n := by
  simp [node, List.getD_eq_getElem?_getD, h]

lemma node_set_ne {nodes : Nodes} {i j : ℕ} (h : i ≠ j) (n : CNode) :
    node (nodes.set i n) j = node nodes j := by
  simp [node, List.getD_eq_getElem?_getD, h]

/-- A tree stays in the table as long as its nodes do. -/
lemma Represents.congr {nodes nodes' : Nodes} (hlen : nodes.length ≤ nodes'.length) {i : ℕ}
    {t : CodeTree ℕ} (h : Represents nodes i t)
    (hsame : ∀ j < nodes.length, huffmanMaxSymbols ≤ j ∨ j ∈ t.leaves → node nodes' j = node nodes j) :
    Represents nodes' i t := by
  induction t generalizing i with
  | leaf s =>
    have hlt := h.lt_length
    obtain ⟨rfl, hs, -, hrest⟩ := h
    have heq := hsame i hlt (Or.inr (by simp))
    refine ⟨rfl, hs, by omega, ?_⟩
    rw [heq]
    exact hrest
  | node l r ihl ihr =>
    obtain ⟨hi, hlt, hnum, hl, hr⟩ := h
    have heq := hsame i hlt (Or.inl hi)
    refine ⟨hi, by omega, by rw [heq]; exact hnum, ?_, ?_⟩
    · rw [heq]
      exact ihl hl fun j hj hor => hsame j hj (hor.imp_right fun h => by simp [h])
    · rw [heq]
      exact ihr hr fun j hj hor => hsame j hj (hor.imp_right fun h => by simp [h])

/-! ### Joining the trees of a forest -/

/-- The weight of a symbol: its frequency in the table, 1 for the end of the stream. -/
def symbolWeight (frequencies : ℕ → ℕ) (s : ℕ) : ℕ :=
  if s = huffmanEofSymbol then 1 else frequencies s

/-- The frequencies of all symbols together fit an `int`. -/
def FitsInt (frequencies : ℕ → ℕ) : Prop :=
  ((List.range huffmanMaxSymbols).map (symbolWeight frequencies)).sum < 2 ^ 31

/-- A node that is left to be joined is the root of a tree, and its frequency is the weight
of the tree unless the frequencies overflow. -/
def IsRoot (frequencies : ℕ → ℕ) (nodes : Nodes) (n : CHuffmanConstructNode) (t : CodeTree ℕ) :
    Prop :=
  Represents nodes n.nodeId t ∧
    (FitsInt frequencies → n.frequency = t.weight (symbolWeight frequencies))

/-- The nodes that are left are the roots of a forest that holds each symbol once, and the
last of them is the last node made. -/
structure Forest (frequencies : ℕ → ℕ) (nodes : Nodes) (left : List CHuffmanConstructNode)
    (ts : List (CodeTree ℕ)) : Prop where
  roots : List.Forall₂ (IsRoot frequencies nodes) left ts
  perm : (ts.flatMap leaves).Perm (List.range huffmanMaxSymbols)
  joinable : FitsInt frequencies → Joinable (symbolWeight frequencies) ts
  symbols : huffmanMaxSymbols ≤ nodes.length
  last : ∃ init n, left = init ++ [n] ∧ n.nodeId = nodes.length - 1

lemma stableSort_perm (l : List CHuffmanConstructNode) : (stableSort l).Perm l :=
  List.perm_insertionSort _ _

instance : Std.Total fun a b : CHuffmanConstructNode => compareNodesByFrequencyDesc b a = false :=
  ⟨fun a b => by simp only [compareNodesByFrequencyDesc, decide_eq_false_iff_not]; omega⟩

instance : IsTrans CHuffmanConstructNode fun a b => compareNodesByFrequencyDesc b a = false :=
  ⟨fun a b c => by simp only [compareNodesByFrequencyDesc, decide_eq_false_iff_not]; omega⟩

/-- After sorting the frequencies do not grow. -/
lemma stableSort_pairwise (l : List CHuffmanConstructNode) :
    (stableSort l).Pairwise fun a b => b.frequency ≤ a.frequency := by
  refine (List.pairwise_insertionSort _ l).imp ?_
  intro a b h
  simpa [compareNodesByFrequencyDesc] using h

/-- The two elements at the end of a list. -/
lemma exists_append_two {l : List CHuffmanConstructNode} (h : 2 ≤ l.length) :
    ∃ init, l = init ++ [l.getD (l.length - 2) default, l.getD (l.length - 1) default] ∧
      l.take (l.length - 2) = init := by
  refine ⟨l.take (l.length - 2), ?_, rfl⟩
  have hdrop : l.drop (l.length - 2) = [l[l.length - 2], l[l.length - 1]] := by
    rw [List.drop_eq_getElem_cons (by omega)]
    congr 1
    rw [List.drop_eq_getElem_cons (by omega)]
    have hval : l.length - 2 + 1 = l.length - 1 := by omega
    have hnil : l.drop (l.length - 2 + 1 + 1) = [] := List.drop_eq_nil_of_le (by omega)
    simp only [hval] at hnil ⊢
    rw [hnil]
  conv_lhs => rw [← List.take_append_drop (l.length - 2) l, hdrop]
  rw [List.getD_eq_getElem _ _ (by omega), List.getD_eq_getElem _ _ (by omega)]

lemma IsRoot.append {frequencies : ℕ → ℕ} {nodes : Nodes} {n : CHuffmanConstructNode}
    {t : CodeTree ℕ} (h : IsRoot frequencies nodes n t) (more : Nodes) :
    IsRoot frequencies (nodes ++ more) n t := by
  refine ⟨h.1.congr (by simp) fun j hj _ => node_append hj more, h.2⟩

lemma forall₂_append_left {α β : Type*} {R : α → β → Prop} {l m : List α} {us : List β}
    (h : List.Forall₂ R (l ++ m) us) :
    ∃ vs ws, List.Forall₂ R l vs ∧ List.Forall₂ R m ws ∧ us = vs ++ ws :=
  ⟨us.take l.length, us.drop l.length, by simpa using List.forall₂_take l.length h,
    by simpa using List.forall₂_drop l.length h, (List.take_append_drop _ _).symm⟩

lemma exists_of_forall₂ {α β : Type*} {R : α → β → Prop} {l : List α} {us : List β}
    (h : List.Forall₂ R l us) {u : β} (hu : u ∈ us) : ∃ a ∈ l, R a u := by
  induction h with
  | nil => simp at hu
  | cons hab _ ih =>
    rcases List.mem_cons.1 hu with rfl | hu
    · exact ⟨_, by simp, hab⟩
    · obtain ⟨a, ha, hR⟩ := ih hu
      exact ⟨a, by simp [ha], hR⟩

lemma toInt32_of_lt {n : ℤ} (h0 : 0 ≤ n) (h : n < 2 ^ 31) : toInt32 n = n := by
  rw [toInt32]
  omega

lemma sum_weight_flatMap (w : ℕ → ℕ) (ts : List (CodeTree ℕ)) :
    (ts.map (weight w)).sum = ((ts.flatMap leaves).map w).sum := by
  induction ts with
  | nil => rfl
  | cons t ts ih => simp [weight, ih]

/-- One round: the forest stays a forest when its two rarest trees are joined. -/
lemma Forest.join {frequencies : ℕ → ℕ} {nodes : Nodes} {left init : List CHuffmanConstructNode}
    {prev last : CHuffmanConstructNode} {ts : List (CodeTree ℕ)}
    (h : Forest frequencies nodes left ts) (hsort : stableSort left = init ++ [prev, last]) :
    ∃ us, Forest frequencies (nodes ++ [⟨0, 0, last.nodeId, prev.nodeId, 0⟩])
      (init ++ [⟨nodes.length, toInt32 (last.frequency + prev.frequency)⟩]) us := by
  -- the trees in the order of the sorted nodes
  obtain ⟨us, hroots, hperm⟩ : ∃ us, List.Forall₂ (IsRoot frequencies nodes) (stableSort left) us ∧
      us.Perm ts := by
    have hcomp := List.perm_comp_forall₂ (stableSort_perm left) h.roots
    exact hcomp
  rw [hsort] at hroots
  obtain ⟨vs, rest, hvs, hrest, rfl⟩ := forall₂_append_left hroots
  obtain ⟨tprev, ws, hprev, hws, rfl⟩ := List.forall₂_cons_left_iff.1 hrest
  obtain ⟨tlast, xs, hlast, hxs, rfl⟩ := List.forall₂_cons_left_iff.1 hws
  obtain rfl := List.forall₂_nil_left_iff.1 hxs
  have hleaves : ((vs ++ [tprev, tlast]).flatMap leaves).Perm (List.range huffmanMaxSymbols) :=
    (hperm.flatMap_right _).trans h.perm
  -- the sum of the two frequencies does not overflow when all of them together do not
  have hweight : FitsInt frequencies → toInt32 (last.frequency + prev.frequency) =
      (CodeTree.node tlast tprev).weight (symbolWeight frequencies) := by
    intro hfit
    have htotal := (hleaves.map (symbolWeight frequencies)).sum_eq
    rw [← sum_weight_flatMap, List.map_append, List.sum_append] at htotal
    simp only [List.map_cons, List.map_nil, List.sum_cons, List.sum_nil] at htotal
    have hbound := hfit
    rw [FitsInt, ← htotal] at hbound
    clear htotal
    rw [hlast.2 hfit, hprev.2 hfit, weight_node, toInt32_of_lt (by positivity) (by omega)]
    push_cast
    rfl
  refine ⟨vs ++ [.node tlast tprev], ?_, ?_, ?_, ?_, ?_⟩
  · refine List.rel_append (hvs.imp fun _ _ hr => hr.append _) (List.Forall₂.cons ⟨?_, hweight⟩ .nil)
    refine ⟨h.symbols, by simp, ?_, ?_, ?_⟩
    · rw [node_append_self]
    · rw [node_append_self]
      exact (hlast.append _).1
    · rw [node_append_self]
      exact (hprev.append _).1
  · refine List.Perm.trans ?_ hleaves
    simp only [List.flatMap_append, List.flatMap_cons, List.flatMap_nil, List.append_nil, leaves_node]
    exact List.Perm.append_left _ List.perm_append_comm
  · intro hfit
    -- no other tree is lighter than the last two
    have hlight := stableSort_pairwise left
    rw [hsort, List.pairwise_append] at hlight
    obtain ⟨-, htwo, hcross⟩ := hlight
    have hmin : ∀ u ∈ vs, tlast.weight (symbolWeight frequencies) ≤ u.weight (symbolWeight frequencies) ∧
        tprev.weight (symbolWeight frequencies) ≤ u.weight (symbolWeight frequencies) := by
      intro u hu
      obtain ⟨n, hn, hroot⟩ := exists_of_forall₂ hvs hu
      have h1 := hcross n hn last (by simp)
      have h2 := hcross n hn prev (by simp)
      rw [hroot.2 hfit, hlast.2 hfit] at h1
      rw [hroot.2 hfit, hprev.2 hfit] at h2
      exact ⟨by exact_mod_cast h1, by exact_mod_cast h2⟩
    have hjoin : Joinable (symbolWeight frequencies) (tlast :: tprev :: vs) := by
      refine (h.joinable hfit).perm (hperm.symm.trans ?_)
      refine List.perm_append_comm.trans ?_
      exact List.Perm.swap _ _ _
    refine (hjoin.join (fun u hu => (hmin u hu).1) (fun u hu => (hmin u hu).2)).perm ?_
    exact (List.perm_append_singleton _ _).symm
  · simp only [List.length_append, List.length_singleton]
    have := h.symbols
    omega
  · exact ⟨init, _, rfl, by simp⟩

/-- The symbols by themselves are a forest. -/
lemma forest_symbols (frequencies : ℕ → ℕ) :
    Forest frequencies ((List.range huffmanMaxSymbols).map symbolNode) (symbolsLeft frequencies)
      ((List.range huffmanMaxSymbols).map leaf) := by
  have hnode : ∀ i < huffmanMaxSymbols,
      node ((List.range huffmanMaxSymbols).map symbolNode) i = symbolNode i := by
    intro i hi
    simp [node, List.getD_eq_getElem?_getD, hi]
  refine ⟨?_, ?_, fun _ => joinable_leaves _, by simp, ?_⟩
  · rw [symbolsLeft, List.forall₂_map_left_iff, List.forall₂_map_right_iff, List.forall₂_same]
    intro i hi
    rw [List.mem_range] at hi
    refine ⟨⟨rfl, hi, by simpa using hi, ?_⟩, ?_⟩
    · rw [hnode i hi]
      exact ⟨by simp [symbolNode], rfl, rfl, rfl⟩
    · intro hfit
      rw [weight_leaf]
      by_cases heof : i = huffmanEofSymbol
      · simp [symbolWeight, heof]
      · have hle : symbolWeight frequencies i ≤
            ((List.range huffmanMaxSymbols).map (symbolWeight frequencies)).sum :=
          List.le_sum_of_mem (List.mem_map_of_mem (List.mem_range.2 hi))
        have hlt : symbolWeight frequencies i < 2 ^ 31 := lt_of_le_of_lt hle hfit
        simp only [symbolWeight, if_neg heof] at hlt ⊢
        exact toInt32_of_lt (Int.natCast_nonneg _) (by exact_mod_cast hlt)
  · have hflat : ((List.range huffmanMaxSymbols).map leaf).flatMap leaves =
        List.range huffmanMaxSymbols := by
      generalize List.range huffmanMaxSymbols = l
      induction l with
      | nil => rfl
      | cons a l ih => simp [ih]
    rw [hflat]
  · have hne : symbolsLeft frequencies ≠ [] := by simp [symbolsLeft, huffmanMaxSymbols]
    refine ⟨_, _, (List.dropLast_append_getLast hne).symm, ?_⟩
    simp [symbolsLeft, List.getLast_map]

/-- What is known of the tree in a node table: its symbols, and that it is as balanced as
the joining of the two lightest trees makes it. -/
structure IsTree (frequencies : ℕ → ℕ) (nodes : Nodes) (t : CodeTree ℕ) : Prop where
  root : Represents nodes (startNode nodes) t
  perm : t.leaves.Perm (List.range huffmanMaxSymbols)
  sibling : FitsInt frequencies → t.SiblingProperty (symbolWeight frequencies)

lemma Forest.isTree {frequencies : ℕ → ℕ} {nodes : Nodes} {n : CHuffmanConstructNode}
    {ts : List (CodeTree ℕ)} (h : Forest frequencies nodes [n] ts)
    (hid : n.nodeId = nodes.length - 1) : ∃ t, IsTree frequencies nodes t := by
  obtain ⟨t, us, hroot, hnil, rfl⟩ := List.forall₂_cons_left_iff.1 h.roots
  obtain rfl := List.forall₂_nil_left_iff.1 hnil
  refine ⟨t, ?_, ?_, ?_⟩
  · rw [startNode, ← hid]
    exact hroot.1
  · simpa using h.perm
  · intro hfit
    exact (h.joinable hfit).1 t (by simp)

/-- The loop ends with one tree, whose root is the last node; each round makes one node. -/
lemma joinNodes_isTree {frequencies : ℕ → ℕ} (rounds : ℕ) {nodes : Nodes}
    {left : List CHuffmanConstructNode} {ts : List (CodeTree ℕ)}
    (h : Forest frequencies nodes left ts) (hrounds : left.length ≤ rounds + 1) :
    (∃ t, IsTree frequencies (joinNodes rounds nodes left) t) ∧
      (joinNodes rounds nodes left).length + 1 = nodes.length + left.length := by
  induction rounds generalizing nodes left ts with
  | zero =>
    obtain ⟨init, n, rfl, hid⟩ := h.last
    obtain rfl : init = [] := by simpa using hrounds
    exact ⟨h.isTree hid, rfl⟩
  | succ rounds ih =>
    rw [joinNodes]
    by_cases hle : left.length ≤ 1
    · rw [if_pos hle]
      obtain ⟨init, n, rfl, hid⟩ := h.last
      obtain rfl : init = [] := by simpa using hle
      exact ⟨h.isTree hid, rfl⟩
    · rw [if_neg hle]
      have hlen : (stableSort left).length = left.length := (stableSort_perm left).length_eq
      obtain ⟨init, hinit, htake⟩ := exists_append_two (l := stableSort left) (by omega)
      obtain ⟨us, hjoin⟩ := h.join hinit
      have hinitlen : init.length = left.length - 2 := by
        rw [← htake, List.length_take, hlen]
        omega
      simp only [htake]
      obtain ⟨htree, hcount⟩ := ih hjoin (by
        rw [List.length_append, List.length_singleton, hinitlen]
        omega)
      refine ⟨htree, ?_⟩
      rw [hcount]
      simp only [List.length_append, List.length_singleton, hinitlen]
      omega

/-- The tree before the codes are set, in its table of `HUFFMAN_MAX_NODES` nodes. -/
lemma treeNodes_isTree (frequencies : ℕ → ℕ) :
    (∃ t, IsTree frequencies (treeNodes frequencies) t) ∧
      (treeNodes frequencies).length = huffmanMaxNodes := by
  have hlen : (symbolsLeft frequencies).length = huffmanMaxSymbols := by simp [symbolsLeft]
  obtain ⟨htree, hcount⟩ := joinNodes_isTree huffmanMaxSymbols
    (forest_symbols frequencies) (by omega)
  refine ⟨htree, ?_⟩
  rw [List.length_map, List.length_range, hlen] at hcount
  simp only [treeNodes, huffmanMaxNodes]
  omega

/-! ### The codes of the symbols -/

/-- Bit `depth` of a path is set above the bits that are there. -/
lemma path_or {bits depth : ℕ} (h : bits < 2 ^ depth) : bits ||| (1 <<< depth) = bits + 2 ^ depth := by
  rw [or_shiftLeft h]
  ring

/-- `Setbits_r` writes to each leaf below a node the path to it, and changes no other
node. -/
lemma setbits_spec {fuel : ℕ} {nodes : Nodes} {i bits depth : ℕ} {t : CodeTree ℕ}
    (h : Represents nodes i t) (hnodup : t.leaves.Nodup) (hfuel : t.height < fuel)
    (hlen : nodes.length ≤ huffmanMaxNodes) (hbits : bits < 2 ^ depth) :
    (setbits fuel nodes i bits depth).length = nodes.length ∧
      (∀ j, j ∉ t.leaves → node (setbits fuel nodes i bits depth) j = node nodes j) ∧
      ∀ s c, (s, c) ∈ t.codes → node (setbits fuel nodes i bits depth) s =
        { node nodes s with
          bits := (bits + 2 ^ depth * ofBits c) % 2 ^ 32
          numBits := depth + c.length } := by
  induction fuel generalizing nodes i bits depth t with
  | zero => omega
  | succ fuel ih =>
    cases t with
    | leaf s =>
      obtain ⟨rfl, -, hlt, hnum, hleaf0, hleaf1, -⟩ := h
      have hset : setbits (fuel + 1) nodes i bits depth =
          nodes.set i { node nodes i with bits := bits % 2 ^ 32, numBits := depth } := by
        rw [setbits]
        simp [hleaf0, hleaf1, hnum]
      rw [hset]
      refine ⟨by simp, ?_, ?_⟩
      · intro j hj
        exact node_set_ne (by simpa [eq_comm] using hj) _
      · intro s' c hc
        obtain ⟨rfl, rfl⟩ := mem_codes_leaf.1 hc
        rw [node_set_self hlt]
        simp [ofBits]
    | node l r =>
      obtain ⟨hi, hlt, hnum, hl, hr⟩ := h
      rw [leaves_node, List.nodup_append] at hnodup
      obtain ⟨hndl, hndr, hdisj⟩ := hnodup
      rw [height_node] at hfuel
      have hl0 := hl.lt_length
      have hr0 := hr.lt_length
      have hmax : huffmanMaxNodes < 0xffff := by decide
      -- first the right subtree
      obtain ⟨hlen1, hother1, hcode1⟩ := ih hr hndr (by omega) hlen
        (show bits ||| (1 <<< depth) < 2 ^ (depth + 1) by rw [path_or hbits, pow_succ]; omega)
      set nodes1 := setbits fuel nodes (node nodes i).leaf1 (bits ||| (1 <<< depth)) (depth + 1)
      have hnotl : ∀ s ∈ l.leaves, s ∉ r.leaves := fun s hs hs' => hdisj s hs s hs' rfl
      have hself1 : node nodes1 i = node nodes i := hother1 i fun hmem => by
        have := hr.leaves_lt i hmem
        omega
      have hl1 : Represents nodes1 (node nodes1 i).leaf0 l := by
        rw [hself1]
        refine hl.congr (by omega) fun j _ hor => hother1 j fun hmem => ?_
        rcases hor with hge | hleaf
        · have := hr.leaves_lt j hmem
          omega
        · exact hnotl j hleaf hmem
      -- then the left one
      obtain ⟨hlen2, hother2, hcode2⟩ := ih hl1 hndl (by omega) (by omega)
        (show bits < 2 ^ (depth + 1) by rw [pow_succ]; omega)
      set nodes2 := setbits fuel nodes1 (node nodes1 i).leaf0 bits (depth + 1)
      have hself2 : node nodes2 i = node nodes i := by
        rw [hother2 i fun hmem => by have := hl.leaves_lt i hmem; omega, hself1]
      have hset : setbits (fuel + 1) nodes i bits depth = nodes2 := by
        rw [setbits]
        have h1 : (node nodes i).leaf1 ≠ 0xffff := by omega
        have h0 : (node nodes1 i).leaf0 ≠ 0xffff := by rw [hself1]; omega
        have h2 : ¬ (node nodes2 i).numBits ≠ 0 := by rw [hself2, hnum]; simp
        simp only [if_pos h1]
        rw [if_pos h0]
        exact if_neg h2
      rw [hset]
      refine ⟨by omega, ?_, ?_⟩
      · intro j hj
        rw [leaves_node, List.mem_append, not_or] at hj
        rw [hother2 j hj.1, hother1 j hj.2]
      · intro s c hc
        rcases mem_codes_node.1 hc with ⟨c', rfl, hc'⟩ | ⟨c', rfl, hc'⟩
        · have hmem := mem_leaves_of_mem_codes hc'
          rw [hcode2 s c' hc', hother1 s (hnotl s hmem)]
          have hval : bits + 2 ^ (depth + 1) * ofBits c' =
              bits + 2 ^ depth * ofBits (false :: c') := by
            rw [ofBits, pow_succ, Bool.toNat_false]
            ring
          have hlen' : depth + 1 + c'.length = depth + (false :: c').length := by
            rw [List.length_cons]
            omega
          rw [hval, hlen']
        · have hmem := mem_leaves_of_mem_codes hc'
          rw [hother2 s fun hs => hnotl s hs hmem, hcode1 s c' hc']
          have hval : (bits ||| (1 <<< depth)) + 2 ^ (depth + 1) * ofBits c' =
              bits + 2 ^ depth * ofBits (true :: c') := by
            rw [path_or hbits, ofBits, pow_succ, Bool.toNat_true]
            ring
          have hlen' : depth + 1 + c'.length = depth + (true :: c').length := by
            rw [List.length_cons]
            omega
          rw [hval, hlen']

/-! ### The table that `Init` leaves behind -/

/-- A node table that holds the tree `t`, with the codes of its symbols. -/
structure CodeTable (nodes : Nodes) (t : CodeTree ℕ) : Prop where
  root : Represents nodes (startNode nodes) t
  perm : t.leaves.Perm (List.range huffmanMaxSymbols)
  bits_eq : ∀ s c, (s, c) ∈ t.codes → (node nodes s).bits = ofBits c % 2 ^ 32
  numBits_eq : ∀ s c, (s, c) ∈ t.codes → numBits nodes s = c.length

/-- Codes may be written to the leaves of a tree. -/
lemma Represents.setCodes {nodes nodes' : Nodes} (hlen : nodes.length ≤ nodes'.length) {i : ℕ}
    {t : CodeTree ℕ} (h : Represents nodes i t)
    (hinner : ∀ j, huffmanMaxSymbols ≤ j → node nodes' j = node nodes j)
    (hleaf : ∀ s ∈ t.leaves, ∃ bits num, num ≠ 0 ∧
      node nodes' s = { node nodes s with bits := bits, numBits := num }) :
    Represents nodes' i t := by
  induction t generalizing i with
  | leaf s =>
    have hlt := h.lt_length
    obtain ⟨rfl, hs, -, -, hrest⟩ := h
    obtain ⟨bits, num, hnum, heq⟩ := hleaf i (by simp)
    refine ⟨rfl, hs, by omega, ?_⟩
    rw [heq]
    exact ⟨hnum, hrest⟩
  | node l r ihl ihr =>
    obtain ⟨hi, hlt, hnum, hl, hr⟩ := h
    refine ⟨hi, by omega, by rw [hinner i hi]; exact hnum, ?_, ?_⟩
    · rw [hinner i hi]
      exact ihl hl fun s hs => hleaf s (by simp [hs])
    · rw [hinner i hi]
      exact ihr hr fun s hs => hleaf s (by simp [hs])

/-- A tree with all symbols has a root that is not a leaf. -/
lemma exists_node_of_perm {t : CodeTree ℕ} (h : t.leaves.Perm (List.range huffmanMaxSymbols)) :
    ∃ l r, t = .node l r := by
  cases t with
  | leaf s => simpa [huffmanMaxSymbols, huffmanEofSymbol] using h.length_eq
  | node l r => exact ⟨l, r, rfl⟩

lemma height_lt_length_leaves (t : CodeTree ℕ) : t.height < t.leaves.length := by
  induction t with
  | leaf s => simp
  | node l r ihl ihr =>
    rw [height_node, leaves_node, List.length_append]
    omega

/-- `Setbits_r` makes a code table of the tree that was built. -/
lemma IsTree.codeTable {frequencies : ℕ → ℕ} {t : CodeTree ℕ} (htree : IsTree frequencies (treeNodes frequencies) t) :
    CodeTable (constructTree frequencies) t := by
  have hlen := (treeNodes_isTree frequencies).2
  have hnodup : t.leaves.Nodup := htree.perm.nodup_iff.2 List.nodup_range
  have hcount : t.leaves.length = huffmanMaxSymbols := by
    rw [htree.perm.length_eq, List.length_range]
  have hheight := height_lt_length_leaves t
  have hfuel : t.height < huffmanMaxNodes := by
    simp only [huffmanMaxNodes]
    omega
  obtain ⟨hlen', hother, hcode⟩ := setbits_spec htree.root hnodup hfuel (by omega)
    (show 0 < 2 ^ 0 by simp)
  have hset : setbits huffmanMaxNodes (treeNodes frequencies) (startNode (treeNodes frequencies)) 0 0 =
      constructTree frequencies := rfl
  rw [hset] at hlen' hother hcode
  have hstart : startNode (constructTree frequencies) = startNode (treeNodes frequencies) := by
    rw [startNode, startNode, hlen']
  obtain ⟨l, r, rfl⟩ := exists_node_of_perm htree.perm
  refine ⟨?_, htree.perm, ?_, ?_⟩
  · rw [hstart]
    refine htree.root.setCodes hlen'.ge ?_ ?_
    · exact fun j hj => hother j fun hmem => by
        have := htree.root.leaves_lt j hmem
        omega
    · intro s hs
      obtain ⟨c, hc⟩ := exists_code hs
      refine ⟨_, _, ?_, hcode s c hc⟩
      -- the root is no leaf, so no code is empty
      rcases mem_codes_node.1 hc with ⟨c', rfl, -⟩ | ⟨c', rfl, -⟩ <;> simp
  · intro s c hc
    rw [hcode s c hc]
    simp
  · intro s c hc
    rw [numBits, hcode s c hc]
    simp

/-- `ConstructTree` builds a code table, for every frequency table. -/
theorem constructTree_codeTable (frequencies : ℕ → ℕ) :
    ∃ t, CodeTable (constructTree frequencies) t ∧
      (FitsInt frequencies → t.SiblingProperty (symbolWeight frequencies)) := by
  obtain ⟨⟨t, htree⟩, -⟩ := treeNodes_isTree frequencies
  exact ⟨t, htree.codeTable, htree.sibling⟩

variable {nodes : Nodes} {t : CodeTree ℕ}

lemma CodeTable.exists_code (h : CodeTable nodes t) {s : ℕ} (hs : s < huffmanMaxSymbols) :
    ∃ c, (s, c) ∈ t.codes :=
  CodeTree.exists_code (h.perm.mem_iff.2 (List.mem_range.2 hs))

lemma CodeTable.lt_of_mem (h : CodeTable nodes t) {s : ℕ} {c : List Bool} (hc : (s, c) ∈ t.codes) :
    s < huffmanMaxSymbols :=
  h.root.leaves_lt s (mem_leaves_of_mem_codes hc)

/-- The longest code is as long as the tree is high. -/
lemma CodeTable.numBits_le_iff (h : CodeTable nodes t) (n : ℕ) :
    (∀ s < huffmanMaxSymbols, numBits nodes s ≤ n) ↔ t.height ≤ n := by
  constructor
  · intro hall
    obtain ⟨s, c, hc, hlen⟩ := exists_code_height t
    rw [← hlen, ← h.numBits_eq s c hc]
    exact hall s (h.lt_of_mem hc)
  · intro hle s hs
    obtain ⟨c, hc⟩ := h.exists_code hs
    rw [h.numBits_eq s c hc]
    exact (length_le_height hc).trans hle

/-! ### Frequency tables with heavy symbols -/

/-- Light symbols of total weight `total` below a chain of heavy ones: the chain makes the
codes longer by its length, and the light symbols by at most a Fibonacci index. -/
lemma height_of_dominates {frequencies : ℕ → ℕ} {ds l : List ℕ} {m : ℕ} (h : CodeTable nodes t)
    (hsib : t.SiblingProperty (symbolWeight frequencies))
    (hsplit : List.range huffmanMaxSymbols = ds ++ l) (hl : l ≠ [])
    (hpos : ∀ s ∈ l, 0 < symbolWeight frequencies s)
    (hdom : Dominates (symbolWeight frequencies) (l.map (symbolWeight frequencies)).sum ds)
    (hfib : (l.map (symbolWeight frequencies)).sum < Nat.fib (m + 3)) :
    t.height ≤ ds.length + m ∧ l.length ≤ 2 ^ (t.height - ds.length) := by
  obtain ⟨rest, hrest, hperm, hheight⟩ := exists_rest hsib (hsplit ▸ h.perm) hl hdom
  have hweight : Nat.fib (rest.height + 2) ≤ (l.map (symbolWeight frequencies)).sum := by
    rw [← (hperm.map _).sum_eq]
    exact fib_le_weight hrest fun s hs => hpos s (hperm.mem_iff.1 hs)
  have hlt : rest.height + 2 < m + 3 := by
    by_contra hge
    have := Nat.fib_mono (not_lt.1 hge)
    omega
  refine ⟨by omega, ?_⟩
  rw [← hperm.length_eq, hheight, Nat.add_sub_cancel_left]
  exact length_leaves_le rest

lemma fitsInt_default : FitsInt defaultFrequencies := by
  rw [FitsInt]
  decide +kernel

/-- In the default table the zero byte outweighs all other symbols together. -/
theorem numBits_default_le {s : ℕ} (hs : s < huffmanMaxSymbols) :
    numBits (constructTree defaultFrequencies) s ≤ 22 := by
  obtain ⟨t, htable, hsib⟩ := constructTree_codeTable defaultFrequencies
  have hsplit : List.range huffmanMaxSymbols = [0] ++ List.range' 1 256 := by decide +kernel
  have hpos : ∀ s ∈ List.range' 1 256, 0 < symbolWeight defaultFrequencies s := by decide +kernel
  have hdom : Dominates (symbolWeight defaultFrequencies)
      ((List.range' 1 256).map (symbolWeight defaultFrequencies)).sum [0] :=
    ⟨by decide +kernel, trivial⟩
  have hfib : ((List.range' 1 256).map (symbolWeight defaultFrequencies)).sum < Nat.fib (21 + 3) := by
    decide +kernel
  obtain ⟨hheight, -⟩ := height_of_dominates htable (hsib fitsInt_default) hsplit (by decide) hpos hdom hfib
  exact (htable.numBits_le_iff 22).2 hheight s hs

/-- So its own code has one bit. -/
lemma numBits_default_zero : numBits (constructTree defaultFrequencies) 0 = 1 := by
  obtain ⟨t, htable, hsib⟩ := constructTree_codeTable defaultFrequencies
  obtain ⟨l, r, rfl⟩ := exists_node_of_perm htable.perm
  have hmem : 0 ∈ (CodeTree.node l r).leaves := htable.perm.mem_iff.2 (by decide)
  have hdom : (CodeTree.node l r).weight (symbolWeight defaultFrequencies) <
      2 * symbolWeight defaultFrequencies 0 := by
    rw [weight, (htable.perm.map _).sum_eq]
    decide +kernel
  have hcode : ∃ b, (0, [b]) ∈ (CodeTree.node l r).codes := by
    rcases child_of_dominant (hsib fitsInt_default) hmem hdom with rfl | rfl
    · exact ⟨false, mem_codes_node.2 (Or.inl ⟨[], rfl, mem_codes_leaf.2 ⟨rfl, rfl⟩⟩)⟩
    · exact ⟨true, mem_codes_node.2 (Or.inr ⟨[], rfl, mem_codes_leaf.2 ⟨rfl, rfl⟩⟩)⟩
  obtain ⟨b, hb⟩ := hcode
  exact htable.numBits_eq 0 [b] hb

end CHuffman

end DDNet
