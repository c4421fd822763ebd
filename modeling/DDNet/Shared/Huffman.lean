/-
The Huffman code of `engine/shared/huffman.cpp`: construction of the tree, the bit codes of
the symbols, and the lookup table of the decoder.

Nodes live in one table and refer to each other by index, as in the source: the first
`huffmanMaxSymbols` nodes are the symbols, the last node made is the root.  The numbers of
a node are 32-bit unsigned in the source; the accumulators of the two coding loops are
natural numbers below `2 ^ 32`, and every operation that can leave that range wraps.
-/
import Mathlib.Data.List.Sort
import DDNet.Lib.Bits

namespace DDNet

open Lib

/-- `HUFFMAN_EOF_SYMBOL`. -/
def huffmanEofSymbol : ℕ := 256

/-- `HUFFMAN_MAX_SYMBOLS`. -/
def huffmanMaxSymbols : ℕ := huffmanEofSymbol + 1

/-- `HUFFMAN_MAX_NODES`. -/
def huffmanMaxNodes : ℕ := huffmanMaxSymbols * 2 - 1

/-- `HUFFMAN_LUTBITS`. -/
def huffmanLutbits : ℕ := 10

/-- `HUFFMAN_LUTSIZE`. -/
def huffmanLutsize : ℕ := 1 <<< huffmanLutbits

/-- `HUFFMAN_LUTMASK`. -/
def huffmanLutmask : ℕ := huffmanLutsize - 1

/-- `CHuffman::CNode`. -/
structure CNode where
  /-- `m_Bits`. -/
  bits : ℕ
  /-- `m_NumBits`: not zero exactly for symbols. -/
  numBits : ℕ
  /-- `m_aLeafs[0]`. -/
  leaf0 : ℕ
  /-- `m_aLeafs[1]`. -/
  leaf1 : ℕ
  /-- `m_Symbol`. -/
  symbol : UInt8
deriving DecidableEq, Inhabited

/-- `m_aLeafs[Bit]`. -/
def CNode.leaf (node : CNode) (bit : ℕ) : ℕ := if bit = 0 then node.leaf0 else node.leaf1

/-- `CHuffmanConstructNode`. -/
structure CHuffmanConstructNode where
  /-- `m_NodeId`. -/
  nodeId : ℕ
  /-- `m_Frequency`. -/
  frequency : ℤ
deriving DecidableEq, Inhabited

namespace CHuffman

/-- The node table. -/
abbrev Nodes := List CNode

/-- `m_aNodes[i]`. -/
def node (nodes : Nodes) (i : ℕ) : CNode := nodes.getD i default

/-- An unsigned value stored in an `int`. -/
def toInt32 (n : ℤ) : ℤ := (n + 2 ^ 31) % 2 ^ 32 - 2 ^ 31

/-- `CompareNodesByFrequencyDesc`. -/
def compareNodesByFrequencyDesc (node1 node2 : CHuffmanConstructNode) : Bool :=
  node2.frequency < node1.frequency

/-- `std::stable_sort` with that comparison: an element is placed in front of an earlier one
only if the comparison says so. -/
def stableSort (l : List CHuffmanConstructNode) : List CHuffmanConstructNode :=
  l.insertionSort fun a b => compareNodesByFrequencyDesc b a = false

/-- The node of a symbol before its code is known. -/
def symbolNode (i : ℕ) : CNode := ⟨0, 0xFFFFFFFF, 0xffff, 0xffff, UInt8.ofNat i⟩

/-- The nodes that are to be joined at the start: one for each symbol. -/
def symbolsLeft (frequencies : ℕ → ℕ) : List CHuffmanConstructNode :=
  (List.range huffmanMaxSymbols).map fun i =>
    ⟨i, if i = huffmanEofSymbol then 1 else toInt32 (frequencies i)⟩

/-- The loop of `ConstructTree`: the two rarest nodes are joined until one is left.
`rounds` bounds the number of rounds; one node less is left after each of them. -/
def joinNodes : ℕ → Nodes → List CHuffmanConstructNode → Nodes
  | 0, nodes, _ => nodes
  | rounds + 1, nodes, left =>
      if left.length ≤ 1 then nodes
      else
        let sorted := stableSort left
        let last := sorted.getD (sorted.length - 1) default
        let prev := sorted.getD (sorted.length - 2) default
        let joined : CNode := ⟨0, 0, last.nodeId, prev.nodeId, 0⟩
        joinNodes rounds (nodes ++ [joined])
          (sorted.take (sorted.length - 2) ++
            [⟨nodes.length, toInt32 (last.frequency + prev.frequency)⟩])

/-- `Setbits_r`: the codes of the symbols below the node `i`, which is reached by the path
`bits` of length `depth`.  `fuel` bounds the depth of the recursion. -/
def setbits : ℕ → Nodes → ℕ → ℕ → ℕ → Nodes
  | 0, nodes, _, _, _ => nodes
  | fuel + 1, nodes, i, bits, depth =>
      let nodes := if (node nodes i).leaf1 ≠ 0xffff then
        setbits fuel nodes (node nodes i).leaf1 (bits ||| (1 <<< depth)) (depth + 1) else nodes
      let nodes := if (node nodes i).leaf0 ≠ 0xffff then
        setbits fuel nodes (node nodes i).leaf0 bits (depth + 1) else nodes
      if (node nodes i).numBits ≠ 0 then
        nodes.set i { node nodes i with bits := bits % 2 ^ 32, numBits := depth }
      else nodes

/-- The nodes that `ConstructTree` makes, before the codes are set. -/
def treeNodes (frequencies : ℕ → ℕ) : Nodes :=
  joinNodes huffmanMaxSymbols ((List.range huffmanMaxSymbols).map symbolNode) (symbolsLeft frequencies)

/-- `ConstructTree`: the node table; the root is its last node. -/
def constructTree (frequencies : ℕ → ℕ) : Nodes :=
  let nodes := treeNodes frequencies
  setbits huffmanMaxNodes nodes (nodes.length - 1) 0 0

/-- `m_pStartNode`. -/
def startNode (nodes : Nodes) : ℕ := nodes.length - 1

/-- One entry of the decode table: the symbol that the low bits of `bits` lead to, or the
inner node after `HUFFMAN_LUTBITS` of them. -/
def lutEntry (nodes : Nodes) : ℕ → ℕ → ℕ → ℕ
  | 0, i, _ => i
  | k + 1, i, bits =>
      let next := (node nodes i).leaf (bits &&& 1)
      if (node nodes next).numBits ≠ 0 then next else lutEntry nodes k next (bits >>> 1)

/-- `m_apDecodeLut[Bits]`, as `Init` fills it. -/
def decodeLut (nodes : Nodes) (bits : ℕ) : ℕ :=
  lutEntry nodes huffmanLutbits (startNode nodes) bits

/-- The code length of a symbol. -/
def numBits (nodes : Nodes) (symbol : ℕ) : ℕ := (node nodes symbol).numBits

/-- `ms_aFreqTable`. -/
def freqTable : List ℕ := [
  1 <<< 30, 4545, 2657, 431, 1950, 919, 444, 482, 2244, 617, 838, 542, 715, 1814, 304, 240, 754, 212, 647, 186,
  283, 131, 146, 166, 543, 164, 167, 136, 179, 859, 363, 113, 157, 154, 204, 108, 137, 180, 202, 176,
  872, 404, 168, 134, 151, 111, 113, 109, 120, 126, 129, 100, 41, 20, 16, 22, 18, 18, 17, 19,
  16, 37, 13, 21, 362, 166, 99, 78, 95, 88, 81, 70, 83, 284, 91, 187, 77, 68, 52, 68,
  59, 66, 61, 638, 71, 157, 50, 46, 69, 43, 11, 24, 13, 19, 10, 12, 12, 20, 14, 9,
  20, 20, 10, 10, 15, 15, 12, 12, 7, 19, 15, 14, 13, 18, 35, 19, 17, 14, 8, 5,
  15, 17, 9, 15, 14, 18, 8, 10, 2173, 134, 157, 68, 188, 60, 170, 60, 194, 62, 175, 71,
  148, 67, 167, 78, 211, 67, 156, 69, 1674, 90, 174, 53, 147, 89, 181, 51, 174, 63, 163, 80,
  167, 94, 128, 122, 223, 153, 218, 77, 200, 110, 190, 73, 174, 69, 145, 66, 277, 143, 141, 60,
  136, 53, 180, 57, 142, 57, 158, 61, 166, 112, 152, 92, 26, 22, 21, 28, 20, 26, 30, 21,
  32, 27, 20, 17, 23, 21, 30, 22, 22, 21, 27, 25, 17, 27, 23, 18, 39, 26, 15, 21,
  12, 18, 18, 27, 20, 18, 15, 19, 11, 17, 33, 12, 18, 15, 19, 18, 16, 26, 17, 18,
  9, 10, 25, 22, 22, 17, 20, 16, 6, 16, 15, 20, 14, 18, 24, 335, 1517]

/-- The frequencies that `Init` uses by default. -/
def defaultFrequencies (i : ℕ) : ℕ := freqTable.getD i 0

end CHuffman

end DDNet
