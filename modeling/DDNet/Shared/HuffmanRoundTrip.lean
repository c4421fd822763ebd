/-
Compressing and decompressing again.

The decoder keeps at least 24 bits in its accumulator while there are bytes to read, so a
code of at most 24 bits is always there as a whole, and it is found by the lookup table or
by the walk that continues it (`decodeSymbol_content`).  A longer code is not: on the first
symbol of a stream the walk runs out of bits after 24 of them (`decompress_long`).  So the
round trip holds for exactly the tables whose codes have at most 24 bits
(`roundTrips_iff`), the default table among them.
-/
import DDNet.Shared.HuffmanCodec

namespace DDNet

open Lib Lib.CodeTree

namespace CHuffman

variable {nodes : Nodes} {t : CodeTree ℕ}

/-! ### Walking down the table -/

/-- The index that a represented leaf has is its symbol. -/
lemma Represents.eq_leaf {i s : ℕ} (h : Represents nodes i (.leaf s)) : i = s := h.1

/-- A node of the table is a symbol exactly when its tree is a leaf. -/
lemma Represents.numBits_leaf {i s : ℕ} (h : Represents nodes i (.leaf s)) :
    (node nodes i).numBits ≠ 0 := h.2.2.2.1

lemma Represents.numBits_node {i : ℕ} {l r : CodeTree ℕ} (h : Represents nodes i (.node l r)) :
    (node nodes i).numBits = 0 := h.2.2.1

/-- Following a bit leads to the child on its side. -/
lemma Represents.child {i : ℕ} {l r : CodeTree ℕ} (h : Represents nodes i (.node l r)) (bits : ℕ) :
    Represents nodes ((node nodes i).leaf (bits &&& 1)) (if bits % 2 = 1 then r else l) := by
  obtain ⟨-, -, -, hl, hr⟩ := h
  have hbit : bits &&& 1 = bits % 2 := and_mask bits 1
  rw [hbit, CNode.leaf]
  rcases Nat.mod_two_eq_zero_or_one bits with h | h
  · simpa [h] using hl
  · simpa [h] using hr

lemma walk_toBits_succ (l r : CodeTree ℕ) (bits n : ℕ) :
    (CodeTree.node l r).walk (toBits bits (n + 1)) =
      (if bits % 2 = 1 then r else l).walk (toBits (bits / 2) n) := by
  rw [toBits_succ]
  by_cases h : bits % 2 = 1
  · simp [h, walk]
  · simp [h, walk]

/-- An entry of the lookup table is where its bits lead to. -/
lemma lutEntry_represents {k i bits : ℕ} {l r : CodeTree ℕ} (h : Represents nodes i (.node l r)) :
    Represents nodes (lutEntry nodes k i bits) ((CodeTree.node l r).walk (toBits bits k)).1 := by
  induction k generalizing i bits l r with
  | zero => exact h
  | succ k ih =>
    have hchild := h.child bits
    rw [walk_toBits_succ, lutEntry]
    rcases hx : (if bits % 2 = 1 then r else l) with s | ⟨l', r'⟩
    · rw [hx] at hchild
      rw [if_pos hchild.numBits_leaf]
      exact hchild
    · rw [hx] at hchild
      rw [if_neg (not_not.2 hchild.numBits_node), Nat.shiftRight_one]
      exact ih hchild

lemma CodeTable.exists_root (h : CodeTable nodes t) : ∃ l r, t = .node l r :=
  exists_node_of_perm h.perm

/-- The lookup table, indexed with the low bits of an accumulator. -/
lemma CodeTable.decodeLut_represents (h : CodeTable nodes t) (bits : ℕ) :
    Represents nodes (decodeLut nodes (bits &&& huffmanLutmask))
      (t.walk (toBits bits huffmanLutbits)).1 := by
  obtain ⟨l, r, rfl⟩ := h.exists_root
  have hmask : bits &&& huffmanLutmask = bits % 2 ^ huffmanLutbits := and_mask bits 10
  rw [decodeLut, hmask, ← toBits_mod bits le_rfl]
  exact lutEntry_represents h.root

lemma subWrap_of_le {a b : ℕ} (h : b ≤ a) (ha : a < 2 ^ 32) : subWrap a b = a - b := by
  rw [subWrap]
  omega

/-- A nonempty code starts with the lowest bit of the accumulator that holds it. -/
lemma cons_eq_toBits {bits : ℕ} {b : Bool} {c : List Bool}
    (h : toBits bits (b :: c).length = b :: c) :
    b = decide (bits % 2 = 1) ∧ toBits (bits / 2) c.length = c := by
  rw [List.length_cons, toBits_succ] at h
  exact ⟨(List.cons.inj h).1.symm, (List.cons.inj h).2⟩

lemma mem_codes_child {l r : CodeTree ℕ} {s : ℕ} {c : List Bool} {bits : ℕ}
    (h : (s, decide (bits % 2 = 1) :: c) ∈ (CodeTree.node l r).codes) :
    (s, c) ∈ (if bits % 2 = 1 then r else l).codes := by
  by_cases hb : bits % 2 = 1
  · simpa [mem_codes_node, hb] using h
  · simpa [mem_codes_node, hb] using h

/-- The walk finds a code that the accumulator holds as a whole. -/
lemma walkTree_code {c : List Bool} (fuel : ℕ) {i bits : ℕ} (bitcount : ℕ) {s : ℕ} {l r : CodeTree ℕ}
    (h : Represents nodes i (.node l r)) (hc : (s, c) ∈ (CodeTree.node l r).codes)
    (hbits : toBits bits c.length = c) (hcount : c.length ≤ bitcount) (hlt : bitcount < 2 ^ 32)
    (hfuel : c.length ≤ fuel) :
    walkTree nodes fuel i bits bitcount = some (s, bits >>> c.length, bitcount - c.length) := by
  induction c generalizing fuel i bits bitcount l r with
  | nil => rcases mem_codes_node.1 hc with ⟨c', h', -⟩ | ⟨c', h', -⟩ <;> exact absurd h' (by simp)
  | cons b c ih =>
    obtain ⟨hb, hrest⟩ := cons_eq_toBits hbits
    rw [hb] at hc
    have hmem := mem_codes_child hc
    have hchild := h.child bits
    rw [List.length_cons] at hcount hfuel ⊢
    obtain ⟨fuel, rfl⟩ : ∃ k, fuel = k + 1 := ⟨fuel - 1, by omega⟩
    have hshift : bits >>> (c.length + 1) = (bits / 2) >>> c.length := by
      rw [Nat.shiftRight_eq_div_pow, Nat.shiftRight_eq_div_pow, Nat.div_div_eq_div_mul, pow_succ,
        Nat.mul_comm]
    rw [walkTree]
    simp only [Nat.shiftRight_one, subWrap_of_le (show 1 ≤ bitcount by omega) hlt]
    rcases hx : (if bits % 2 = 1 then r else l) with s' | ⟨l', r'⟩
    · rw [hx] at hchild hmem
      obtain ⟨rfl, rfl⟩ := mem_codes_leaf.1 hmem
      rw [if_pos hchild.numBits_leaf, hchild.eq_leaf]
      rfl
    · rw [hx] at hchild hmem
      have hne : c.length ≠ 0 := by
        intro h0
        rw [List.length_eq_zero_iff.1 h0] at hmem
        rcases mem_codes_node.1 hmem with ⟨c', h', -⟩ | ⟨c', h', -⟩ <;> exact absurd h' (by simp)
      rw [if_neg (not_not.2 hchild.numBits_node), if_neg (by omega),
        ih _ _ hchild hmem hrest (by omega) (by omega) (by omega), hshift]
      have hval : bitcount - 1 - c.length = bitcount - (c.length + 1) := by omega
      rw [hval]

/-- The walk fails when the accumulator ends inside of a code. -/
lemma walkTree_none {p c : List Bool} (fuel : ℕ) {i bits s : ℕ} {l r : CodeTree ℕ}
    (h : Represents nodes i (.node l r)) (hc : (s, p ++ c) ∈ (CodeTree.node l r).codes) (hne : c ≠ [])
    (hp : p ≠ []) (hbits : toBits bits p.length = p) (hlt : p.length < 2 ^ 32) :
    walkTree nodes fuel i bits p.length = none := by
  induction p generalizing fuel i bits l r with
  | nil => exact absurd rfl hp
  | cons b p ih =>
    cases fuel with
    | zero => rfl
    | succ fuel =>
      obtain ⟨hb, hrest⟩ := cons_eq_toBits hbits
      rw [List.cons_append, hb] at hc
      have hmem := mem_codes_child hc
      have hchild := h.child bits
      rw [List.length_cons] at hlt ⊢
      rw [walkTree]
      simp only [Nat.shiftRight_one, subWrap_of_le (show 1 ≤ p.length + 1 by omega) hlt,
        Nat.add_sub_cancel]
      rcases hx : (if bits % 2 = 1 then r else l) with s' | ⟨l', r'⟩
      · rw [hx] at hmem
        exact absurd (List.append_eq_nil_iff.1 (mem_codes_leaf.1 hmem).2).2 hne
      · rw [hx] at hchild hmem
        rw [if_neg (not_not.2 hchild.numBits_node)]
        cases p with
        | nil => rfl
        | cons b' p =>
          rw [if_neg (by simp)]
          exact ih _ hchild hmem (by simp) hrest (by omega)

/-! ### One symbol -/

namespace BitReader

/-- The bits that are still to be read. -/
def content (r : BitReader) : List Bool := toBits r.bits r.bitcount ++ bytesBits r.src

/-- The accumulator is not full and holds no bits above its count. -/
def Wf (r : BitReader) : Prop := r.bits < 2 ^ r.bitcount ∧ r.bitcount < 32

end BitReader

/-- Filling moves bytes into the accumulator until it holds 24 bits or none are left; the
bits that are there stay. -/
lemma fill_spec {bits bitcount : ℕ} {src : List UInt8} (h : (BitReader.mk bits bitcount src).Wf) :
    (fill bits bitcount src).Wf ∧
      (fill bits bitcount src).content = (BitReader.mk bits bitcount src).content ∧
      (24 ≤ (fill bits bitcount src).bitcount ∨ (fill bits bitcount src).src = []) ∧
      toBits (fill bits bitcount src).bits bitcount = toBits bits bitcount := by
  induction src generalizing bits bitcount with
  | nil => exact ⟨h, rfl, Or.inr rfl, rfl⟩
  | cons b src ih =>
    obtain ⟨hbits, hcount⟩ := h
    simp only at hbits hcount
    by_cases hlt : bitcount < 24
    · have hb := b.toNat_lt
      have hor : bits ||| (b.toNat <<< bitcount) = bits + 2 ^ bitcount * b.toNat := by
        rw [or_shiftLeft hbits, Nat.add_comm]
      have hnew : bits + 2 ^ bitcount * b.toNat < 2 ^ (bitcount + 8) := by
        have hmul : 2 ^ bitcount * (b.toNat + 1) ≤ 2 ^ bitcount * 2 ^ 8 := Nat.mul_le_mul_left _ hb
        rw [pow_add]
        rw [Nat.mul_add, Nat.mul_one] at hmul
        omega
      have hval : ofBits (byteBits b) = b.toNat := ofBits_toBits hb
      have happ : toBits (bits + 2 ^ bitcount * b.toNat) (bitcount + 8) =
          toBits bits bitcount ++ byteBits b := by
        have := toBits_append hbits (byteBits b)
        rwa [hval, length_byteBits] at this
      have hfill : fill bits bitcount (b :: src) =
          fill (bits + 2 ^ bitcount * b.toNat) (bitcount + 8) src := by
        rw [fill, if_pos hlt, hor]
      obtain ⟨hwf, hcontent, hfull, hlow⟩ := ih
        ⟨hnew, by simp only; omega⟩
      rw [hfill]
      refine ⟨hwf, ?_, hfull, ?_⟩
      · rw [hcontent, BitReader.content, BitReader.content]
        simp only [happ, bytesBits_cons, List.append_assoc]
      · rw [toBits_add, happ] at hlow
        exact (List.append_inj hlow (by simp)).1
    · have hfill : fill bits bitcount (b :: src) = ⟨bits, bitcount, b :: src⟩ := by
        rw [fill, if_neg hlt]
      rw [hfill]
      exact ⟨⟨hbits, hcount⟩, rfl, Or.inl (not_lt.1 hlt), rfl⟩

/-- The node that is looked up is the same before and after the accumulator is filled. -/
lemma early_eq {bits bitcount : ℕ} {src : List UInt8} (h : (BitReader.mk bits bitcount src).Wf)
    (h10 : huffmanLutbits ≤ bitcount) :
    bits &&& huffmanLutmask = (fill bits bitcount src).bits &&& huffmanLutmask := by
  obtain ⟨-, -, -, hlow⟩ := fill_spec h
  have hmask : ∀ x : ℕ, x &&& huffmanLutmask = x % 2 ^ 10 := fun x => and_mask x 10
  have hpart : toBits (fill bits bitcount src).bits 10 = toBits bits 10 := by
    have hsplit : bitcount = 10 + (bitcount - 10) := by
      rw [huffmanLutbits] at h10
      omega
    rw [hsplit, toBits_add, toBits_add bits] at hlow
    rw [← hsplit] at hlow
    exact (List.append_inj hlow (by simp)).1
  have hofBits : ∀ x : ℕ, x % 2 ^ 10 = ofBits (toBits x 10) := fun x => by
    rw [← toBits_mod x le_rfl, ofBits_toBits (Nat.mod_lt _ (by norm_num))]
  rw [hmask, hmask, hofBits, hofBits, hpart]

/-- What one round does, with the accumulator filled first. -/
lemma decodeSymbol_eq {r : BitReader} (h : r.Wf) :
    decodeSymbol nodes r =
      let filled := fill r.bits r.bitcount r.src
      let i := decodeLut nodes (filled.bits &&& huffmanLutmask)
      if (node nodes i).numBits ≠ 0 then
        some (i, ⟨filled.bits >>> (node nodes i).numBits,
          subWrap filled.bitcount (node nodes i).numBits, filled.src⟩)
      else
        match walkTree nodes huffmanMaxNodes i (filled.bits >>> huffmanLutbits)
            (subWrap filled.bitcount huffmanLutbits) with
        | none => none
        | some (i, bits, bitcount) => some (i, ⟨bits, bitcount, filled.src⟩) := by
  rw [decodeSymbol]
  by_cases h10 : huffmanLutbits ≤ r.bitcount
  · rw [if_pos h10, early_eq h h10]
    rfl
  · rw [if_neg h10]
    rfl

/-- Taking `n` bits off the accumulator. -/
lemma content_drop {r : BitReader} {c rest : List Bool} (h : r.Wf) (hcount : c.length ≤ r.bitcount)
    (hc : r.content = c ++ rest) :
    (BitReader.mk (r.bits >>> c.length) (r.bitcount - c.length) r.src).Wf ∧
      (BitReader.mk (r.bits >>> c.length) (r.bitcount - c.length) r.src).content = rest ∧
      toBits r.bits c.length = c := by
  obtain ⟨hbits, hlt⟩ := h
  have hsplit : toBits r.bits r.bitcount =
      toBits r.bits c.length ++ toBits (r.bits / 2 ^ c.length) (r.bitcount - c.length) := by
    rw [← toBits_add, Nat.add_sub_cancel' hcount]
  rw [BitReader.content, hsplit, List.append_assoc] at hc
  obtain ⟨hfirst, hsecond⟩ := List.append_inj hc (by simp)
  refine ⟨⟨?_, by simp only; omega⟩, ?_, hfirst⟩
  · rw [Nat.shiftRight_eq_div_pow, Nat.div_lt_iff_lt_mul (by positivity), ← pow_add,
      Nat.sub_add_cancel hcount]
    exact hbits
  · rw [BitReader.content, Nat.shiftRight_eq_div_pow]
    exact hsecond

lemma CodeTable.height_lt (h : CodeTable nodes t) : t.height < huffmanMaxNodes := by
  have hlt := height_lt_length_leaves t
  rw [h.perm.length_eq, List.length_range] at hlt
  simp only [huffmanMaxNodes]
  omega

/-- Reading a symbol whose code has at most 24 bits. -/
lemma decodeSymbol_content (ht : CodeTable nodes t) {r : BitReader} (h : r.Wf) {s : ℕ}
    (hs : s < huffmanMaxSymbols) (h24 : numBits nodes s ≤ 24) {rest : List Bool}
    (hc : r.content = code nodes s ++ rest) :
    ∃ r', decodeSymbol nodes r = some (s, r') ∧ r'.Wf ∧ r'.content = rest := by
  have hmem := ht.code_mem hs (by omega)
  have hlen := length_code nodes s
  obtain ⟨hwf, hcontent, hfull, -⟩ := fill_spec h
  rw [decodeSymbol_eq h]
  set filled := fill r.bits r.bitcount r.src
  have hc' : filled.content = code nodes s ++ rest := hcontent.trans hc
  have hcount : (code nodes s).length ≤ filled.bitcount := by
    rcases hfull with hfull | hsrc
    · omega
    · have htotal := congrArg List.length hc'
      rw [BitReader.content, hsrc, bytesBits_nil, List.append_nil, length_toBits,
        List.length_append] at htotal
      omega
  obtain ⟨hwf', hrest, hpre⟩ := content_drop hwf hcount hc'
  have hlut := ht.decodeLut_represents filled.bits
  have hlt32 : filled.bitcount < 2 ^ 32 := lt_trans hwf.2 (by norm_num)
  refine ⟨_, ?_, hwf', hrest⟩
  simp only
  rcases Nat.lt_or_ge huffmanLutbits (code nodes s).length with h10 | h10
  · -- the lookup table stops at an inner node
    obtain ⟨k, hk⟩ : ∃ k, (code nodes s).length = huffmanLutbits + k := ⟨_, (Nat.add_sub_of_le h10.le).symm⟩
    have hsplit := hpre
    rw [hk, toBits_add] at hsplit
    rw [← hsplit] at hmem
    have hne : toBits (filled.bits / 2 ^ huffmanLutbits) k ≠ [] := by
      refine List.ne_nil_of_length_pos ?_
      rw [length_toBits]
      omega
    obtain ⟨l, r', hwalk, hcode⟩ := walk_prefix hmem hne
    rw [hwalk] at hlut
    have hwalkTree := walkTree_code huffmanMaxNodes (filled.bitcount - huffmanLutbits)
      hlut hcode (by rw [length_toBits]) (by rw [length_toBits]; omega) (by omega) (by
        have h1 := length_le_height (ht.code_mem hs (by omega))
        have h2 := ht.height_lt
        rw [length_toBits]
        omega)
    rw [length_toBits] at hwalkTree
    rw [if_neg (not_not.2 hlut.numBits_node), subWrap_of_le (by omega) hlt32,
      Nat.shiftRight_eq_div_pow filled.bits huffmanLutbits, hwalkTree]
    simp only [Option.some.injEq, Prod.mk.injEq, BitReader.mk.injEq, true_and, and_true]
    refine ⟨?_, by omega⟩
    rw [hk, Nat.shiftRight_eq_div_pow, Nat.shiftRight_eq_div_pow, Nat.div_div_eq_div_mul, pow_add]
  · -- the lookup table hits the symbol
    have hsplit : toBits filled.bits huffmanLutbits = code nodes s ++
        toBits (filled.bits / 2 ^ (code nodes s).length) (huffmanLutbits - (code nodes s).length) := by
      rw [← hpre, length_toBits, ← toBits_add, Nat.add_sub_cancel' h10]
    rw [hsplit, walk_code hmem] at hlut
    obtain heq := hlut.eq_leaf
    rw [heq] at hlut ⊢
    have hnum : (node nodes s).numBits = (code nodes s).length := hlen.symm
    rw [if_pos hlut.numBits_leaf, hnum, subWrap_of_le hcount hlt32]

/-! ### A whole stream -/

lemma Represents.leaf_of_mem {i s : ℕ} {t : CodeTree ℕ} (h : Represents nodes i t) (hs : s ∈ t.leaves) :
    Represents nodes s (.leaf s) := by
  induction t generalizing i with
  | leaf s' =>
    obtain rfl : s = s' := by simpa using hs
    obtain rfl := h.eq_leaf
    exact h
  | node l r ihl ihr =>
    obtain ⟨-, -, -, hl, hr⟩ := h
    rcases List.mem_append.1 hs with hs | hs
    · exact ihl hl hs
    · exact ihr hr hs

lemma CodeTable.symbol_eq (h : CodeTable nodes t) (b : UInt8) : (node nodes b.toNat).symbol = b := by
  have hlt : b.toNat < huffmanMaxSymbols := lt_of_lt_of_le b.toNat_lt (by decide)
  have hleaf := h.root.leaf_of_mem (h.perm.mem_iff.2 (List.mem_range.2 hlt))
  obtain ⟨-, -, -, -, -, -, hsymbol⟩ := hleaf
  rw [hsymbol, UInt8.ofNat_toNat]

/-- The decoder reads a stream of codes up to the end symbol. -/
lemma decompressLoop_content (ht : CodeTable nodes t)
    (h24 : ∀ s < huffmanMaxSymbols, numBits nodes s ≤ 24) {input : List UInt8} {pad : List Bool}
    {r : BitReader} (h : r.Wf) (hc : r.content = codeStream nodes (symbolsOf input) ++ pad) {room : ℕ}
    (hroom : input.length ≤ room) : decompressLoop nodes room r = some input := by
  induction input generalizing r room with
  | nil =>
    have heof : huffmanEofSymbol < huffmanMaxSymbols := by decide
    obtain ⟨r', hdecode, -⟩ := decodeSymbol_content ht h heof (h24 _ heof)
      (by simpa [symbolsOf, codeStream] using hc)
    rw [decompressLoop, hdecode]
    exact if_pos rfl
  | cons b input ih =>
    have hb : b.toNat < huffmanMaxSymbols := lt_of_lt_of_le b.toNat_lt (by decide)
    obtain ⟨r', hdecode, hwf', hc'⟩ := decodeSymbol_content ht h hb (h24 _ hb)
      (by
        rw [hc, ← List.append_assoc, ← codeStream_cons]
        rfl)
    obtain ⟨room, rfl⟩ : ∃ k, room = k + 1 := ⟨room - 1, by rw [List.length_cons] at hroom; omega⟩
    have hne : ¬ b.toNat = huffmanEofSymbol := (lt_of_lt_of_le b.toNat_lt (by decide)).ne
    rw [decompressLoop, hdecode]
    simp only [if_neg hne]
    rw [ih hwf' hc' (by rw [List.length_cons] at hroom; omega), ht.symbol_eq]
    rfl

/-- `Compress` keeps to its output buffer, and what it fits into the buffer is read back by
`Decompress`. -/
def RoundTrips (nodes : Nodes) : Prop :=
  ∀ (input : List UInt8) (outputSize : ℕ), 1 ≤ outputSize →
    (compress nodes input outputSize).1.length ≤ outputSize ∧
      ((compress nodes input outputSize).2 = true → ∀ room, input.length ≤ room →
        decompress nodes (compress nodes input outputSize).1 room = some input)

/-- Codes of at most 24 bits are enough. -/
theorem CodeTable.roundTrips (ht : CodeTable nodes t)
    (h24 : ∀ s < huffmanMaxSymbols, numBits nodes s ≤ 24) : RoundTrips nodes := by
  intro input outputSize hsize
  refine ⟨compress_length_le nodes input hsize, fun hok room hroom => ?_⟩
  obtain ⟨pad, -, hcontent⟩ := compress_content ht h24 hsize hok
  exact decompressLoop_content ht h24 (r := ⟨0, 0, _⟩) (by simp [BitReader.Wf])
    (by simpa [BitReader.content] using hcontent) hroom

/-- `Init` with the default table. -/
theorem roundTrips_default : RoundTrips (constructTree defaultFrequencies) := by
  obtain ⟨t, ht, -⟩ := constructTree_codeTable defaultFrequencies
  exact ht.roundTrips fun s hs => (numBits_default_le hs).trans (by norm_num)

/-! ### Longer codes -/

/-- The first filling takes three bytes. -/
lemma fill_three (b₁ b₂ b₃ : UInt8) (src : List UInt8) :
    (fill 0 0 (b₁ :: b₂ :: b₃ :: src)).bitcount = 24 ∧
      (fill 0 0 (b₁ :: b₂ :: b₃ :: src)).src = src := by
  cases src <;> simp [fill]

/-- A stream that starts with more than 24 bits of one code is not decoded. -/
lemma decompress_long (ht : CodeTable nodes t) {s : ℕ} {c : List Bool} {b₁ b₂ b₃ : UInt8}
    {src : List UInt8} (hmem : (s, bytesBits [b₁, b₂, b₃] ++ c) ∈ t.codes) (hne : c ≠ []) (room : ℕ) :
    decompress nodes (b₁ :: b₂ :: b₃ :: src) room = none := by
  have hwf0 : (BitReader.mk 0 0 (b₁ :: b₂ :: b₃ :: src)).Wf := by simp [BitReader.Wf]
  obtain ⟨-, hcontent, -, -⟩ := fill_spec hwf0
  obtain ⟨hcount, hsrc⟩ := fill_three b₁ b₂ b₃ src
  have hdecode := @decodeSymbol_eq nodes _ hwf0
  simp only at hdecode
  set filled := fill 0 0 (b₁ :: b₂ :: b₃ :: src)
  have hbits : toBits filled.bits 24 = bytesBits [b₁, b₂, b₃] := by
    rw [BitReader.content, hcount, hsrc] at hcontent
    refine (@List.append_inj _ _ _ (bytesBits src) (bytesBits src) ?_ (by simp)).1
    rw [hcontent]
    simp [BitReader.content]
  -- ten bits lead to an inner node, the other fourteen to another one
  have hsplit : toBits filled.bits 24 =
      toBits filled.bits huffmanLutbits ++ toBits (filled.bits / 2 ^ huffmanLutbits) 14 :=
    toBits_add filled.bits huffmanLutbits 14
  rw [← hbits, hsplit, List.append_assoc] at hmem
  obtain ⟨l, r, hwalk, hcode⟩ := walk_prefix hmem (by simp [hne])
  have hlut := ht.decodeLut_represents filled.bits
  rw [hwalk] at hlut
  have hnone := walkTree_none huffmanMaxNodes hlut hcode hne (List.ne_nil_of_length_pos (by simp)) (by rw [length_toBits]) (by simp)
  rw [length_toBits] at hnone
  rw [if_neg (not_not.2 hlut.numBits_node), hcount, Nat.shiftRight_eq_div_pow,
    subWrap_of_le (by decide) (by norm_num), show 24 - huffmanLutbits = 14 from rfl, hnone] at hdecode
  rw [decompress, decompressLoop, hdecode]

/-- After a first symbol of more than 24 bits three bytes of its code are full. -/
lemma write_long (ht : CodeTable nodes t) {s : ℕ} (outputSize : ℕ) (hs : s < huffmanMaxSymbols)
    (hlong : 24 < numBits nodes s) (h32 : numBits nodes s ≤ 32) (hsize : 4 < outputSize) :
    ∃ s', write outputSize (loadSymbol nodes s ⟨0, 0, []⟩) = (s', true) ∧
      s'.out.length < outputSize ∧ ∃ b₁ b₂ b₃ more c, s'.out = b₁ :: b₂ :: b₃ :: more ∧ c ≠ [] ∧
        (s, bytesBits [b₁, b₂, b₃] ++ c) ∈ t.codes := by
  obtain ⟨hwf, hcount, hcontent⟩ := loadSymbol_content ht hs (s := ⟨0, 0, []⟩)
    (by simp [CompressState.Wf]) (by simpa using h32)
  have hload : (loadSymbol nodes s ⟨0, 0, []⟩).out = [] := rfl
  rw [Nat.zero_add] at hcount
  obtain ⟨hok, hlen, -⟩ := write_ok outputSize (s := loadSymbol nodes s ⟨0, 0, []⟩)
    (by rw [hload, hcount, List.length_nil]; omega)
  rw [hload, hcount, List.length_nil] at hlen
  obtain ⟨-, -, hwrite⟩ := @write_spec outputSize (loadSymbol nodes s ⟨0, 0, []⟩)
    (by rw [hload, List.length_nil]; omega)
  obtain ⟨hlt, hcount', hkeep⟩ := hwrite hok
  obtain ⟨-, hkept⟩ := hkeep hwf
  rw [hcontent] at hkept
  rcases hw : write outputSize (loadSymbol nodes s ⟨0, 0, []⟩) with ⟨s', ok⟩
  rw [hw] at hok hlen hlt hcount' hkept
  simp only at hok hlen hkept hlt hcount'
  obtain ⟨b₁, b₂, b₃, more, hout⟩ : ∃ b₁ b₂ b₃ more, s'.out = b₁ :: b₂ :: b₃ :: more := by
    have hthree : 3 ≤ s'.out.length := by omega
    obtain ⟨b₁, out, hout⟩ := List.exists_cons_of_length_pos (by omega : 0 < s'.out.length)
    rw [hout, List.length_cons] at hthree
    obtain ⟨b₂, out, rfl⟩ := List.exists_cons_of_length_pos (by omega : 0 < out.length)
    rw [List.length_cons] at hthree
    obtain ⟨b₃, more, rfl⟩ := List.exists_cons_of_length_pos (by omega : 0 < out.length)
    exact ⟨b₁, b₂, b₃, more, hout⟩
  have hcode : code nodes s =
      bytesBits [b₁, b₂, b₃] ++ (bytesBits more ++ toBits s'.bits s'.bitcount) := by
    have hnil : (CompressState.mk 0 0 []).content = [] := rfl
    rw [hnil, List.nil_append, CompressState.content, hout] at hkept
    rw [← hkept]
    simp
  refine ⟨s', by rw [hok], hlt, b₁, b₂, b₃, more, _, hout, ?_, hcode ▸ ht.code_mem hs h32⟩
  intro hnil
  have hbits := congrArg List.length hcode
  rw [hnil, length_code, List.append_nil, length_bytesBits] at hbits
  simp only [List.length_cons, List.length_nil] at hbits
  omega

/-- An input whose first symbol is the given one. -/
lemma exists_input {s : ℕ} (hs : s < huffmanMaxSymbols) :
    ∃ input rest, symbolsOf input = s :: rest ∧ (rest = [] ∨ rest = [huffmanEofSymbol]) := by
  by_cases heof : s = huffmanEofSymbol
  · exact ⟨[], [], by simp [symbolsOf, heof], Or.inl rfl⟩
  · have hlt : s < 256 := by
      simp only [huffmanMaxSymbols, huffmanEofSymbol] at hs heof
      omega
    exact ⟨[UInt8.ofNat s], [huffmanEofSymbol], by simp [symbolsOf, Nat.mod_eq_of_lt hlt], Or.inr rfl⟩

/-- A code of 25 to 32 bits breaks the round trip. -/
lemma CodeTable.not_roundTrips (ht : CodeTable nodes t)
    (h32 : ∀ s < huffmanMaxSymbols, numBits nodes s ≤ 32) {s : ℕ} (hs : s < huffmanMaxSymbols)
    (hlong : 24 < numBits nodes s) : ¬ RoundTrips nodes := by
  intro hround
  obtain ⟨input, rest, hsyms, hrest⟩ := exists_input hs
  have hsum : ((symbolsOf input).map (numBits nodes)).sum ≤ 64 := by
    have hsle := h32 s hs
    have heof := h32 huffmanEofSymbol (by decide)
    rw [hsyms]
    rcases hrest with rfl | rfl <;> simp <;> omega
  obtain ⟨hok, -⟩ := compress_ok nodes input 100 (by omega) (by omega)
  have hdecode := (hround input 100 (by norm_num)).2 hok input.length le_rfl
  obtain ⟨s', hw, hlt, b₁, b₂, b₃, more, c, hout, hne, hmem⟩ :=
    write_long ht 100 hs hlong (h32 s hs) (by norm_num)
  -- whatever follows, the stream starts with the bytes that are full by then
  obtain ⟨-, hpre, -⟩ := writeSymbols_length hlt
  obtain ⟨tail, htail⟩ : s'.out <+: (compress nodes input 100).1 := by
    rw [compress, ← symbolsOf, hsyms, writeSymbols, hw]
    simp only
    rcases hx : writeSymbols nodes 100 rest s' with ⟨s'', ok⟩
    rw [hx] at hpre
    cases ok with
    | false => exact hpre
    | true => exact hpre.trans (List.prefix_append _ _)
  rw [← htail, hout, List.cons_append, List.cons_append, List.cons_append,
    decompress_long ht hmem hne] at hdecode
  exact absurd hdecode (by simp)

/-- For tables whose codes fit an `unsigned`: the round trip holds exactly when no code is
longer than the 24 bits that the decoder keeps at hand.  The default table is such. -/
theorem huffman_roundTrips_iff (frequencies : ℕ → ℕ)
    (h32 : ∀ s < huffmanMaxSymbols, numBits (constructTree frequencies) s ≤ 32) :
    (RoundTrips (constructTree frequencies) ↔
      ∀ s < huffmanMaxSymbols, numBits (constructTree frequencies) s ≤ 24) ∧
      RoundTrips (constructTree defaultFrequencies) := by
  obtain ⟨t, ht, -⟩ := constructTree_codeTable frequencies
  refine ⟨⟨fun hround s hs => ?_, ht.roundTrips⟩, roundTrips_default⟩
  by_contra hlong
  exact ht.not_roundTrips h32 hs (not_le.1 hlong) hround

/-- The default table meets the condition. -/
theorem huffman_roundTrips_iff_default :
    RoundTrips (constructTree defaultFrequencies) ∧
      ∀ s < huffmanMaxSymbols, numBits (constructTree defaultFrequencies) s ≤ 24 := by
  have h := huffman_roundTrips_iff defaultFrequencies
    fun s hs => (numBits_default_le hs).trans (by norm_num)
  exact ⟨h.2, h.1.1 h.2⟩

/-- Eighteen frequencies that halve from each to the next, and 1 for all other symbols. -/
def skewedFrequencies (i : ℕ) : ℕ := if i < 18 then 2 ^ (30 - i) else 1

/-- A table with codes of more than 24 bits and no code of more than 32. -/
theorem not_huffman_roundTrips_skewed :
    (∀ s < huffmanMaxSymbols, numBits (constructTree skewedFrequencies) s ≤ 32) ∧
      ¬ RoundTrips (constructTree skewedFrequencies) := by
  obtain ⟨t, ht, hsib⟩ := constructTree_codeTable skewedFrequencies
  have hfit : FitsInt skewedFrequencies := by
    rw [FitsInt]
    decide +kernel
  have hsplit : List.range huffmanMaxSymbols = List.range 18 ++ List.range' 18 239 := by decide +kernel
  have hpos : ∀ s ∈ List.range' 18 239, 0 < symbolWeight skewedFrequencies s := by decide +kernel
  have hsum : ((List.range' 18 239).map (symbolWeight skewedFrequencies)).sum = 239 := by decide +kernel
  have hdom : Dominates (symbolWeight skewedFrequencies)
      ((List.range' 18 239).map (symbolWeight skewedFrequencies)).sum (List.range 18) := by
    rw [hsum]
    simp only [Dominates, List.range, List.range.loop]
    decide +kernel
  obtain ⟨hheight, hleaves⟩ := height_of_dominates (m := 11) ht (hsib hfit) hsplit (by decide) hpos hdom
    (by rw [hsum]; decide)
  rw [List.length_range] at hheight hleaves
  rw [List.length_range'] at hleaves
  have h32 : ∀ s < huffmanMaxSymbols, numBits (constructTree skewedFrequencies) s ≤ 32 :=
    (ht.numBits_le_iff 32).2 (by omega)
  refine ⟨h32, fun hround => ?_⟩
  obtain ⟨s, c, hc, hlen⟩ := exists_code_height t
  -- 239 symbols of the same weight need eight more bits
  have hlong : 24 < t.height := by
    by_contra hle
    have hpow : 2 ^ (t.height - 18) ≤ 2 ^ 6 := Nat.pow_le_pow_right (by norm_num) (by omega)
    omega
  exact ht.not_roundTrips h32 (ht.lt_of_mem hc) (by rw [ht.numBits_eq s c hc]; omega) hround

end CHuffman

end DDNet
