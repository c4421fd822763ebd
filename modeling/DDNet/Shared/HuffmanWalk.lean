/-
`Decompress` and the plain walk down the tree.

`walkTree` tests for the end of the input, the lookup table does not: where the input ends inside of a symbol within the
ten bits that are looked up, the decoder goes on with zero bits and `Bitcount` wraps around.  From there on it only ever
reads the symbol of the zero bits, until the output is full (`decompressLoop_drained`).  So it fails where the walk does,
if the end symbol is not what zero bits complete (`CodeTable.decompress_eq`), and in the default table
it is not.
-/
import DDNet.Shared.HuffmanRoundTrip
import DDNet.Shared.HuffmanDefault

namespace DDNet

open Lib Lib.CodeTree

namespace CHuffman

/-! ### The reference decoder -/

/-- The symbol at the front of the bits, from the node `i` on; `none` if the bits end before. -/
def walkBits (nodes : Nodes) : ℕ → List Bool → Option (ℕ × List Bool)
  | _, [] => none
  | i, b :: bs =>
      let next := (node nodes i).leaf b.toNat
      if (node nodes next).numBits ≠ 0 then some (next, bs) else walkBits nodes next bs

/-- The symbols of the bits up to the end symbol; `room` is the room left in the output. -/
def referenceLoop (nodes : Nodes) : ℕ → List Bool → Option (List UInt8)
  | room, bs =>
      match walkBits nodes (startNode nodes) bs with
      | none => none
      | some (i, rest) =>
          if i = huffmanEofSymbol then some []
          else match room with
            | 0 => none
            | room + 1 => (referenceLoop nodes room rest).map ((node nodes i).symbol :: ·)

/-- The decoder that reads the input bit by bit, the lowest bit of a byte first. -/
def reference (nodes : Nodes) (input : List UInt8) (outputSize : ℕ) : Option (List UInt8) :=
  referenceLoop nodes outputSize (bytesBits input)

variable {nodes : Nodes} {t : CodeTree ℕ}

/-- What a walk yields: the symbol of a leaf. -/
def symbolOf : CodeTree ℕ × List Bool → Option (ℕ × List Bool)
  | (.leaf s, rest) => some (s, rest)
  | (.node _ _, _) => none

lemma walkBits_eq {i : ℕ} {l r : CodeTree ℕ} (h : Represents nodes i (.node l r)) (bs : List Bool) :
    walkBits nodes i bs = symbolOf ((CodeTree.node l r).walk bs) := by
  induction bs generalizing i l r with
  | nil => rfl
  | cons b bs ih =>
    obtain ⟨-, -, -, hl, hr⟩ := h
    have hchild : Represents nodes ((node nodes i).leaf b.toNat) (if b then r else l) := by
      cases b with
      | false => exact hl
      | true => exact hr
    have hwalk : (CodeTree.node l r).walk (b :: bs) = (if b then r else l).walk bs := by
      cases b <;> rfl
    rw [walkBits, hwalk]
    rcases hx : (if b then r else l) with s | ⟨l', r'⟩
    · rw [hx] at hchild
      simp only [if_pos hchild.numBits_leaf]
      rw [hchild.eq_leaf]
      rfl
    · rw [hx] at hchild
      simp only [if_neg (not_not.2 hchild.numBits_node)]
      exact ih hchild

/-! ### The end of the input -/

/-- No code of the end symbol has zeros only behind its tenth bit. -/
def EofApart (t : CodeTree ℕ) : Prop :=
  ∀ p k, p.length ≤ huffmanLutbits → (huffmanEofSymbol, p ++ List.replicate k false) ∉ t.codes

/-- The input has been read, and the accumulator holds zero bits only. -/
def Drained (r : BitReader) : Prop := r.bits = 0 ∧ r.src = []

/-- The walk on zero bits, whatever their number. -/
lemma walkTree_zeros (fuel : ℕ) {i : ℕ} (bitcount : ℕ) {l r : CodeTree ℕ} (h : Represents nodes i (.node l r)) :
    walkTree nodes fuel i 0 bitcount = none ∨
      ∃ s k bitcount', walkTree nodes fuel i 0 bitcount = some (s, 0, bitcount') ∧
        (s, List.replicate k false) ∈ (CodeTree.node l r).codes := by
  induction fuel generalizing i bitcount l r with
  | zero => exact .inl rfl
  | succ fuel ih =>
    have hchild : Represents nodes ((node nodes i).leaf (0 &&& 1)) l := h.child 0
    rw [walkTree]
    simp only [Nat.zero_shiftRight]
    cases l with
    | leaf s =>
      rw [if_pos hchild.numBits_leaf, hchild.eq_leaf]
      exact .inr ⟨s, 1, _, rfl, mem_codes_node.2 (.inl ⟨[], rfl, mem_codes_leaf.2 ⟨rfl, rfl⟩⟩)⟩
    | node l' r' =>
      rw [if_neg (not_not.2 hchild.numBits_node)]
      split_ifs with hcount
      · exact .inl rfl
      · rcases ih (subWrap bitcount 1) hchild with hnone | ⟨s, k, bitcount', hsome, hcode⟩
        · exact .inl hnone
        · exact .inr ⟨s, k + 1, bitcount', hsome, mem_codes_node.2 (.inl ⟨_, rfl, hcode⟩)⟩

/-- `{D}`: the symbol at the front of a filled accumulator. -/
def takeSymbol (nodes : Nodes) (filled : BitReader) : Option (ℕ × BitReader) :=
  let i := decodeLut nodes (filled.bits &&& huffmanLutmask)
  if (node nodes i).numBits ≠ 0 then
    some (i, ⟨filled.bits >>> (node nodes i).numBits, subWrap filled.bitcount (node nodes i).numBits, filled.src⟩)
  else
    match walkTree nodes huffmanMaxNodes i (filled.bits >>> huffmanLutbits) (subWrap filled.bitcount huffmanLutbits) with
    | none => none
    | some (i, bits, bitcount) => some (i, ⟨bits, bitcount, filled.src⟩)

/-- A round that fails, or drains the accumulator without having met the end symbol. -/
def Fruitless (round : Option (ℕ × BitReader)) : Prop :=
  round = none ∨ ∃ s r, round = some (s, r) ∧ s ≠ huffmanEofSymbol ∧ Drained r

/-- At most ten bits are left, and they end inside of a symbol. -/
lemma takeSymbol_short (ht : CodeTable nodes t) (heof : EofApart t) {bits bitcount n : ℕ} {l r : CodeTree ℕ}
    {rest : List Bool} (hbits : bits < 2 ^ n) (hn : n ≤ huffmanLutbits)
    (hwalk : t.walk (toBits bits n) = (.node l r, rest)) : Fruitless (takeSymbol nodes ⟨bits, bitcount, []⟩) := by
  have hzeros : toBits bits huffmanLutbits = toBits bits n ++ List.replicate (huffmanLutbits - n) false := by
    have hsplit : huffmanLutbits = n + (huffmanLutbits - n) := by omega
    rw [← toBits_of_zero, ← Nat.div_eq_of_lt hbits, ← toBits_add, ← hsplit]
  have hlut := ht.decodeLut_represents bits
  rw [takeSymbol]
  simp only
  rcases hten : t.walk (toBits bits huffmanLutbits) with ⟨s | ⟨l', r'⟩, rest'⟩
  · -- the lookup table hits a symbol
    rw [hten] at hlut
    obtain ⟨c, hc, hmem⟩ := code_of_walk hten
    rw [hzeros] at hc
    have hlonger : ∃ k, c = toBits bits n ++ List.replicate k false := by
      rcases List.append_eq_append_iff.mp hc with ⟨c', rfl, hrest⟩ | ⟨a, hpre, -⟩
      · exact ⟨c'.length, by rw [(List.append_eq_replicate_iff.mp hrest.symm).2.1]; simp⟩
      · -- a code within the bits that are left would have been met
        rw [hpre, walk_code hmem] at hwalk
        exact nomatch (Prod.mk.inj hwalk).1
    obtain ⟨k, rfl⟩ := hlonger
    have hnum : (node nodes s).numBits = n + k := by
      have := ht.numBits_eq s _ hmem
      rwa [List.length_append, length_toBits, List.length_replicate] at this
    have hshift : bits >>> (n + k) = 0 := by
      rw [Nat.shiftRight_eq_div_pow]
      exact Nat.div_eq_of_lt (lt_of_lt_of_le hbits (Nat.pow_le_pow_right (by norm_num) (Nat.le_add_right n k)))
    rw [if_pos hlut.numBits_leaf, hlut.eq_leaf, hnum, hshift]
    refine .inr ⟨s, _, rfl, ?_, rfl, rfl⟩
    rintro rfl
    exact heof _ k (by rwa [length_toBits]) hmem
  · -- the lookup table stops at an inner node
    rw [hten] at hlut
    obtain ⟨-, hcodes⟩ := walk_inner hten
    have hshift : bits >>> huffmanLutbits = 0 := by
      rw [Nat.shiftRight_eq_div_pow]
      exact Nat.div_eq_of_lt (lt_of_lt_of_le hbits (Nat.pow_le_pow_right (by norm_num) hn))
    rw [if_neg (not_not.2 hlut.numBits_node), hshift]
    rcases walkTree_zeros huffmanMaxNodes (subWrap bitcount huffmanLutbits) hlut with hnone | ⟨s, k, bitcount', hsome, hmem⟩
    · rw [hnone]
      exact .inl rfl
    · rw [hsome]
      refine .inr ⟨s, _, rfl, ?_, rfl, rfl⟩
      rintro rfl
      have hcode := hcodes _ _ hmem
      rw [hzeros, List.append_assoc, ← List.replicate_add] at hcode
      exact heof _ _ (by rwa [length_toBits]) hcode

/-- Once the input is drained, the output is filled up and the decoder fails. -/
lemma decompressLoop_drained (ht : CodeTable nodes t) (heof : EofApart t) (room : ℕ) {r : BitReader} (h : Drained r) :
    decompressLoop nodes room r = none := by
  have hround : ∀ {r : BitReader}, Drained r → Fruitless (decodeSymbol nodes r) := by
    rintro ⟨bits, bitcount, src⟩ ⟨rfl, rfl⟩
    have hsame : decodeSymbol nodes ⟨0, bitcount, []⟩ = takeSymbol nodes ⟨0, bitcount, []⟩ := by
      rw [decodeSymbol]
      by_cases hfull : huffmanLutbits ≤ bitcount
      · rw [if_pos hfull]
        rfl
      · rw [if_neg hfull]
        rfl
    obtain ⟨l, r, rfl⟩ := ht.exists_root
    rw [hsame]
    exact takeSymbol_short ht heof (Nat.two_pow_pos 0) (Nat.zero_le _) rfl
  induction room generalizing r with
  | zero =>
    rcases hround h with hnone | ⟨s, r', hsome, hne, -⟩
    · rw [decompressLoop, hnone]
    · rw [decompressLoop, hsome]
      exact if_neg hne
  | succ room ih =>
    rcases hround h with hnone | ⟨s, r', hsome, hne, hdrained⟩
    · rw [decompressLoop, hnone]
    · rw [decompressLoop, hsome]
      simp only [if_neg hne]
      rw [ih hdrained]
      rfl

/-- Where the input ends inside of a symbol, the round fails or drains the accumulator. -/
lemma decodeSymbol_short (ht : CodeTable nodes t) (h24 : ∀ s < huffmanMaxSymbols, numBits nodes s ≤ 24)
    (heof : EofApart t) {r : BitReader} (h : r.Wf) {l r' : CodeTree ℕ} {rest : List Bool}
    (hwalk : t.walk r.content = (.node l r', rest)) : Fruitless (decodeSymbol nodes r) := by
  obtain ⟨hwf, hcontent, hfull, -⟩ := fill_spec h
  obtain ⟨-, hcodes⟩ := walk_inner hwalk
  obtain ⟨s, c, hc, hne⟩ := exists_code_inner l r'
  have hcode := hcodes s c hc
  -- a symbol is longer than the bits that are left, so they are all in the accumulator
  have hlt : r.content.length < 24 := by
    have hle := (ht.numBits_eq s _ hcode).symm.trans_le (h24 s (ht.lt_of_mem hcode))
    have hpos := List.length_pos_iff.mpr hne
    rw [List.length_append] at hle
    omega
  rw [decodeSymbol_eq h]
  change Fruitless (takeSymbol nodes (fill r.bits r.bitcount r.src))
  rw [← hcontent] at hlt hwalk hcode
  rcases hx : fill r.bits r.bitcount r.src with ⟨bits, bitcount, src⟩
  rw [hx] at hwf hfull hlt hwalk hcode
  simp only [BitReader.content] at hlt hwalk hcode
  obtain rfl : src = [] := by
    refine hfull.resolve_left fun h24 => ?_
    rw [List.length_append, length_toBits] at hlt
    exact absurd hlt (by simp only at h24; omega)
  rw [bytesBits_nil, List.append_nil] at hlt hwalk hcode
  rw [length_toBits] at hlt
  by_cases hten : bitcount ≤ huffmanLutbits
  · exact takeSymbol_short ht heof hwf.1 hten hwalk
  · -- the walk behind the ten bits of the lookup table runs out of bits
    obtain ⟨k, rfl⟩ : ∃ k, bitcount = huffmanLutbits + k := ⟨_, (Nat.add_sub_of_le (by omega)).symm⟩
    have hsplit := toBits_add bits huffmanLutbits k
    rw [hsplit, List.append_assoc] at hcode
    obtain ⟨l', r'', hinner, hmem⟩ := walk_prefix hcode (by simp [hne])
    have hlut := ht.decodeLut_represents bits
    rw [hinner] at hlut
    have hnone := walkTree_none huffmanMaxNodes hlut hmem hne
      (List.ne_nil_of_length_pos (by rw [length_toBits]; omega)) (by rw [length_toBits]) (by rw [length_toBits]; omega)
    rw [length_toBits] at hnone
    have hcount : subWrap (huffmanLutbits + k) huffmanLutbits = k := by
      rw [subWrap_of_le (by omega) (by omega), Nat.add_sub_cancel_left]
    left
    rw [takeSymbol]
    simp only
    rw [if_neg (not_not.2 hlut.numBits_node), hcount, Nat.shiftRight_eq_div_pow, hnone]

/-! ### The two decoders -/

/-- One round of both: they read the same symbol, or the walk fails and so does the rest of the fast decoder. -/
lemma round_eq (ht : CodeTable nodes t) (h24 : ∀ s < huffmanMaxSymbols, numBits nodes s ≤ 24) (heof : EofApart t)
    {r : BitReader} (h : r.Wf) :
    (∃ s r', decodeSymbol nodes r = some (s, r') ∧ r'.Wf ∧
        walkBits nodes (startNode nodes) r.content = some (s, r'.content)) ∨
      walkBits nodes (startNode nodes) r.content = none ∧ Fruitless (decodeSymbol nodes r) := by
  obtain ⟨l₀, r₀, rfl⟩ := ht.exists_root
  rw [walkBits_eq ht.root]
  rcases hwalk : (CodeTree.node l₀ r₀).walk r.content with ⟨s | ⟨l, r'⟩, rest⟩
  · left
    obtain ⟨c, hcontent, hmem⟩ := code_of_walk hwalk
    have hs := ht.lt_of_mem hmem
    have hle := (ht.numBits_eq s c hmem).symm.trans_le (h24 s hs)
    rw [← ht.code_eq hmem (by omega)] at hcontent
    obtain ⟨r', hdecode, hwf, rfl⟩ := decodeSymbol_content ht h hs (h24 s hs) hcontent
    exact ⟨s, r', hdecode, hwf, rfl⟩
  · exact .inr ⟨rfl, decodeSymbol_short ht h24 heof h hwalk⟩

lemma decompressLoop_eq (ht : CodeTable nodes t) (h24 : ∀ s < huffmanMaxSymbols, numBits nodes s ≤ 24)
    (heof : EofApart t) (room : ℕ) {r : BitReader} (h : r.Wf) :
    decompressLoop nodes room r = referenceLoop nodes room r.content := by
  induction room generalizing r with
  | zero =>
    rcases round_eq ht h24 heof h with ⟨s, r', hdecode, -, hwalk⟩ | ⟨hwalk, hnone | ⟨s, r', hsome, hne, -⟩⟩
    · rw [decompressLoop, referenceLoop, hdecode, hwalk]
    · rw [decompressLoop, referenceLoop, hnone, hwalk]
    · rw [decompressLoop, referenceLoop, hsome, hwalk]
      exact if_neg hne
  | succ room ih =>
    rcases round_eq ht h24 heof h with ⟨s, r', hdecode, hwf, hwalk⟩ | ⟨hwalk, hnone | ⟨s, r', hsome, hne, hdrained⟩⟩
    · rw [decompressLoop, referenceLoop, hdecode, hwalk]
      simp only [ih hwf]
    · rw [decompressLoop, referenceLoop, hnone, hwalk]
    · rw [decompressLoop, referenceLoop, hsome, hwalk]
      simp only [if_neg hne]
      rw [decompressLoop_drained ht heof room hdrained]
      rfl

/-- The walk decides the result wherever zero bits complete no end symbol. -/
lemma CodeTable.decompress_eq (ht : CodeTable nodes t) (h24 : ∀ s < huffmanMaxSymbols, numBits nodes s ≤ 24)
    (heof : EofApart t) (input : List UInt8) (outputSize : ℕ) :
    decompress nodes input outputSize = reference nodes input outputSize :=
  decompressLoop_eq ht h24 heof outputSize (r := ⟨0, 0, input⟩) (by simp [BitReader.Wf])

/-! ### The default table -/

/-- In the default table the code of the end symbol has a bit set behind its tenth. -/
lemma eofApart_default : ∃ t, CodeTable (constructTree defaultFrequencies) t ∧ EofApart t := by
  obtain ⟨t, ht, heof⟩ := eof_code_default
  refine ⟨t, ht, fun p k hp hmem => ?_⟩
  have hlength : (p ++ List.replicate k false).length ≤ 32 := by
    rw [← ht.numBits_eq _ _ hmem]
    exact (numBits_default_le (by decide)).trans (by norm_num)
  have hsame : eofCode = p ++ List.replicate k false := by
    rw [← ht.code_eq hmem hlength, ht.code_eq heof (by decide)]
  have hbit : (p ++ List.replicate k false)[12]? = some true := by rw [← hsame]; rfl
  rw [huffmanLutbits] at hp
  rw [List.getElem?_append_right (by omega), List.getElem?_replicate] at hbit
  split_ifs at hbit
  exact absurd (Option.some.inj hbit) Bool.false_ne_true

/-- **The fast decoder.**  With the tree of `Init`, `Decompress` returns what the walk down the tree bit by bit returns,
and fails where it fails, for every input and output size. -/
theorem decompress_eq_reference (input : List UInt8) (outputSize : ℕ) :
    decompress (constructTree defaultFrequencies) input outputSize =
      reference (constructTree defaultFrequencies) input outputSize := by
  obtain ⟨t, ht, heof⟩ := eofApart_default
  exact ht.decompress_eq (fun s hs => (numBits_default_le hs).trans (by norm_num)) heof input outputSize

end CHuffman

end DDNet
