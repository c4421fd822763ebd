/-
`CHuffman::Compress` and `CHuffman::Decompress`.

Both keep an accumulator of bits.  The encoder appends the code of a symbol above the bits
it holds and writes the low bytes out; the decoder fills the accumulator from above and
takes codes off its low end, ten bits at once with the lookup table and then bit by bit.
The lemmas describe each step by what it does to the string of bits that the accumulator
and the buffer stand for (`CompressState.content`, `BitReader.content`).
-/
import DDNet.Shared.HuffmanTree

namespace DDNet

open Lib Lib.CodeTree

namespace CHuffman

/-! ### Compress -/

/-- The variables of `Compress`: the accumulator and the bytes written so far. -/
structure CompressState where
  bits : ℕ
  bitcount : ℕ
  out : List UInt8

/-- `HUFFMAN_MACRO_LOADSYMBOL`. -/
def loadSymbol (nodes : Nodes) (sym : ℕ) (s : CompressState) : CompressState :=
  { s with
    bits := (s.bits ||| ((node nodes sym).bits <<< s.bitcount)) % 2 ^ 32
    bitcount := (s.bitcount + (node nodes sym).numBits) % 2 ^ 32 }

/-- `HUFFMAN_MACRO_WRITE`; `false` is the `return -1` in it. -/
def write (outputSize : ℕ) (s : CompressState) : CompressState × Bool :=
  if 8 ≤ s.bitcount then
    let out := s.out ++ [UInt8.ofNat (s.bits &&& 0xff)]
    if out.length = outputSize then ({ s with out := out }, false)
    else write outputSize ⟨s.bits >>> 8, s.bitcount - 8, out⟩
  else (s, true)
termination_by s.bitcount

/-- The symbols are loaded and written one after the other. -/
def writeSymbols (nodes : Nodes) (outputSize : ℕ) : List ℕ → CompressState → CompressState × Bool
  | [], s => (s, true)
  | sym :: syms, s =>
      match write outputSize (loadSymbol nodes sym s) with
      | (s, true) => writeSymbols nodes outputSize syms s
      | (s, false) => (s, false)

/-- `Compress`: the bytes written to `pOutput`, and whether their number is returned rather
than `-1`. -/
def compress (nodes : Nodes) (input : List UInt8) (outputSize : ℕ) : List UInt8 × Bool :=
  match writeSymbols nodes outputSize (input.map UInt8.toNat ++ [huffmanEofSymbol]) ⟨0, 0, []⟩ with
  | (s, true) => (s.out ++ [UInt8.ofNat s.bits], true)
  | (s, false) => (s.out, false)

/-! ### Decompress -/

/-- The variables of `Decompress`: the accumulator and the bytes not read yet. -/
structure BitReader where
  bits : ℕ
  bitcount : ℕ
  src : List UInt8

/-- `{B}`: fill with new bits. -/
def fill (bits bitcount : ℕ) : List UInt8 → BitReader
  | [] => ⟨bits, bitcount, []⟩
  | b :: src =>
      if bitcount < 24 then fill (bits ||| (b.toNat <<< bitcount)) (bitcount + 8) src
      else ⟨bits, bitcount, b :: src⟩

/-- An unsigned difference. -/
def subWrap (a b : ℕ) : ℕ := (a + 2 ^ 32 - b) % 2 ^ 32

/-- The inner loop: walk the tree bit by bit.  The node reached, and the accumulator after
it; `none` is the decoding error.  `fuel` bounds the depth of the tree. -/
def walkTree (nodes : Nodes) : ℕ → ℕ → ℕ → ℕ → Option (ℕ × ℕ × ℕ)
  | 0, _, _, _ => none
  | fuel + 1, i, bits, bitcount =>
      let next := (node nodes i).leaf (bits &&& 1)
      let bitcount := subWrap bitcount 1
      let bits := bits >>> 1
      if (node nodes next).numBits ≠ 0 then some (next, bits, bitcount)
      else if bitcount = 0 then none
      else walkTree nodes fuel next bits bitcount

/-- One round of the outer loop up to the symbol that is hit. -/
def decodeSymbol (nodes : Nodes) (r : BitReader) : Option (ℕ × BitReader) :=
  -- {A} the node is loaded before the accumulator is filled when it has enough bits
  let early := if huffmanLutbits ≤ r.bitcount then some (decodeLut nodes (r.bits &&& huffmanLutmask))
    else none
  let filled := fill r.bits r.bitcount r.src
  -- {C} or else after it
  let i := early.getD (decodeLut nodes (filled.bits &&& huffmanLutmask))
  if (node nodes i).numBits ≠ 0 then
    some (i, ⟨filled.bits >>> (node nodes i).numBits, subWrap filled.bitcount (node nodes i).numBits,
      filled.src⟩)
  else
    match walkTree nodes huffmanMaxNodes i (filled.bits >>> huffmanLutbits)
        (subWrap filled.bitcount huffmanLutbits) with
    | none => none
    | some (i, bits, bitcount) => some (i, ⟨bits, bitcount, filled.src⟩)

/-- The outer loop; `room` is the room left in the output. -/
def decompressLoop (nodes : Nodes) : ℕ → BitReader → Option (List UInt8)
  | room, r =>
      match decodeSymbol nodes r with
      | none => none
      | some (i, r) =>
          if i = huffmanEofSymbol then some []
          else match room with
            | 0 => none
            | room + 1 => (decompressLoop nodes room r).map ((node nodes i).symbol :: ·)

/-- `Decompress`: the bytes put into the output, `none` for `-1`. -/
def decompress (nodes : Nodes) (input : List UInt8) (outputSize : ℕ) : Option (List UInt8) :=
  decompressLoop nodes outputSize ⟨0, 0, input⟩

/-- The bytes that the outer loop puts into the output, also when it fails. -/
def decompressWritten (nodes : Nodes) : ℕ → BitReader → List UInt8
  | room, r =>
      match decodeSymbol nodes r with
      | none => []
      | some (i, r) =>
          if i = huffmanEofSymbol then []
          else match room with
            | 0 => []
            | room + 1 => (node nodes i).symbol :: decompressWritten nodes room r

/-! ### What the encoder writes -/

/-- The code of a symbol, as the node table has it. -/
def code (nodes : Nodes) (s : ℕ) : List Bool := toBits (node nodes s).bits (numBits nodes s)

variable {nodes : Nodes} {t : CodeTree ℕ}

/-- Codes that fit an `unsigned` are the paths of the tree. -/
lemma CodeTable.code_eq (h : CodeTable nodes t) {s : ℕ} {c : List Bool} (hc : (s, c) ∈ t.codes)
    (hlen : c.length ≤ 32) : code nodes s = c := by
  rw [code, h.numBits_eq s c hc, h.bits_eq s c hc, toBits_mod _ hlen, toBits_ofBits]

lemma CodeTable.code_mem (h : CodeTable nodes t) {s : ℕ} (hs : s < huffmanMaxSymbols)
    (hlen : numBits nodes s ≤ 32) : (s, code nodes s) ∈ t.codes := by
  obtain ⟨c, hc⟩ := h.exists_code hs
  rw [h.numBits_eq s c hc] at hlen
  rwa [h.code_eq hc hlen]

@[simp] lemma length_code (nodes : Nodes) (s : ℕ) : (code nodes s).length = numBits nodes s :=
  length_toBits _ _

lemma CodeTable.bits_lt (h : CodeTable nodes t) {s : ℕ} (hs : s < huffmanMaxSymbols) :
    (node nodes s).bits < 2 ^ numBits nodes s := by
  obtain ⟨c, hc⟩ := h.exists_code hs
  rw [h.bits_eq s c hc, h.numBits_eq s c hc]
  exact lt_of_le_of_lt (Nat.mod_le _ _) (ofBits_lt c)

namespace CompressState

/-- The bits that have been written or are waiting to be. -/
def content (s : CompressState) : List Bool := bytesBits s.out ++ toBits s.bits s.bitcount

/-- The accumulator holds no bits above its count. -/
def Wf (s : CompressState) : Prop := s.bits < 2 ^ s.bitcount

end CompressState

/-- Loading a symbol appends its code, as long as the accumulator has room for it. -/
lemma loadSymbol_content (h : CodeTable nodes t) {sym : ℕ} (hsym : sym < huffmanMaxSymbols)
    {s : CompressState} (hwf : s.Wf) (hroom : s.bitcount + numBits nodes sym ≤ 32) :
    (loadSymbol nodes sym s).Wf ∧
      (loadSymbol nodes sym s).bitcount = s.bitcount + numBits nodes sym ∧
      (loadSymbol nodes sym s).content = s.content ++ code nodes sym := by
  have hlt := h.bits_lt hsym
  have hor : s.bits ||| ((node nodes sym).bits <<< s.bitcount) =
      s.bits + 2 ^ s.bitcount * (node nodes sym).bits := by
    rw [or_shiftLeft hwf, Nat.add_comm]
  have hbits : s.bits + 2 ^ s.bitcount * (node nodes sym).bits <
      2 ^ (s.bitcount + numBits nodes sym) := by
    have hwf' : s.bits < 2 ^ s.bitcount := hwf
    rw [pow_add]
    have hmul : 2 ^ s.bitcount * ((node nodes sym).bits + 1) ≤
        2 ^ s.bitcount * 2 ^ numBits nodes sym := Nat.mul_le_mul_left _ hlt
    rw [Nat.mul_add, Nat.mul_one] at hmul
    omega
  have hpow : 2 ^ (s.bitcount + numBits nodes sym) ≤ 2 ^ 32 :=
    Nat.pow_le_pow_right (by norm_num) hroom
  have hcount : (loadSymbol nodes sym s).bitcount = s.bitcount + numBits nodes sym := by
    simp only [loadSymbol, numBits] at hroom ⊢
    omega
  have hload : (loadSymbol nodes sym s).bits = s.bits + 2 ^ s.bitcount * (node nodes sym).bits := by
    rw [loadSymbol, hor]
    exact Nat.mod_eq_of_lt (by omega)
  refine ⟨?_, hcount, ?_⟩
  · rw [CompressState.Wf, hload, hcount]
    exact hbits
  · have hcode : ofBits (code nodes sym) = (node nodes sym).bits := ofBits_toBits hlt
    have happ := toBits_append hwf (code nodes sym)
    rw [hcode, length_code] at happ
    rw [CompressState.content, hload, hcount, happ, CompressState.content, List.append_assoc]
    rfl

/-- Moving the lowest byte out leaves the bits as they are. -/
lemma content_write_byte {s : CompressState} (h : 8 ≤ s.bitcount) :
    (CompressState.mk (s.bits >>> 8) (s.bitcount - 8)
      (s.out ++ [UInt8.ofNat (s.bits &&& 0xff)])).content = s.content := by
  have hbyte : byteBits (UInt8.ofNat (s.bits &&& 0xff)) = toBits s.bits 8 := by
    rw [byteBits, toNat_ofNat_and, show (256 : ℕ) = 2 ^ 8 from rfl, toBits_mod _ le_rfl]
  have hsplit : toBits s.bits s.bitcount = toBits s.bits 8 ++ toBits (s.bits / 2 ^ 8) (s.bitcount - 8) := by
    rw [← toBits_add, Nat.add_sub_cancel' h]
  simp only [CompressState.content, bytesBits_append, bytesBits_cons, bytesBits_nil, List.append_nil,
    hbyte, Nat.shiftRight_eq_div_pow, hsplit, List.append_assoc]

/-- Writing keeps to the output buffer; when there was room, less than a byte is left in the
accumulator and no bit is lost. -/
lemma write_spec {outputSize : ℕ} {s : CompressState} (h : s.out.length < outputSize) :
    (write outputSize s).1.out.length ≤ outputSize ∧ s.out <+: (write outputSize s).1.out ∧
      ((write outputSize s).2 = true → (write outputSize s).1.out.length < outputSize ∧
        (write outputSize s).1.bitcount < 8 ∧
        (s.Wf → (write outputSize s).1.Wf ∧ (write outputSize s).1.content = s.content)) := by
  induction hn : s.bitcount using Nat.strong_induction_on generalizing s with
  | _ n ih =>
    rw [write]
    by_cases h8 : 8 ≤ s.bitcount
    · rw [if_pos h8]
      simp only [List.length_append, List.length_singleton]
      by_cases hfull : s.out.length + 1 = outputSize
      · rw [if_pos hfull]
        refine ⟨?_, List.prefix_append _ _, by simp⟩
        simp only [List.length_append, List.length_singleton]
        omega
      · rw [if_neg hfull]
        obtain ⟨hlen, hpre, hok⟩ := ih (s.bitcount - 8) (by omega)
          (s := ⟨s.bits >>> 8, s.bitcount - 8, s.out ++ [UInt8.ofNat (s.bits &&& 0xff)]⟩)
          (by simp only [List.length_append, List.length_singleton]; omega) rfl
        refine ⟨hlen, (List.prefix_append _ _).trans hpre, fun htrue => ?_⟩
        obtain ⟨hlt, hcount, hcontent⟩ := hok htrue
        refine ⟨hlt, hcount, fun hwf => ?_⟩
        have hwf' : s.bits < 2 ^ s.bitcount := hwf
        obtain ⟨hwf'', heq⟩ := hcontent (by
          rw [CompressState.Wf, Nat.shiftRight_eq_div_pow, Nat.div_lt_iff_lt_mul (by positivity),
            ← pow_add, Nat.sub_add_cancel h8]
          exact hwf')
        exact ⟨hwf'', heq.trans (content_write_byte h8)⟩
    · rw [if_neg h8]
      exact ⟨h.le, List.prefix_rfl, fun _ => ⟨h, not_le.1 h8, fun hwf => ⟨hwf, rfl⟩⟩⟩

/-- With enough room for the bits that wait, writing does not fail. -/
lemma write_ok (outputSize : ℕ) {s : CompressState} (h : s.out.length + s.bitcount / 8 < outputSize) :
    (write outputSize s).2 = true ∧
      (write outputSize s).1.out.length = s.out.length + s.bitcount / 8 ∧
      (write outputSize s).1.bitcount = s.bitcount % 8 := by
  induction hn : s.bitcount using Nat.strong_induction_on generalizing s with
  | _ n ih =>
    rw [write]
    by_cases h8 : 8 ≤ s.bitcount
    · rw [if_pos h8]
      simp only [List.length_append, List.length_singleton]
      rw [if_neg (by omega)]
      obtain ⟨hok, hlen, hcount⟩ := ih (s.bitcount - 8) (by omega)
        (s := ⟨s.bits >>> 8, s.bitcount - 8, s.out ++ [UInt8.ofNat (s.bits &&& 0xff)]⟩)
        (by simp only [List.length_append, List.length_singleton]; omega) rfl
      refine ⟨hok, ?_, by omega⟩
      rw [hlen]
      simp only [List.length_append, List.length_singleton]
      omega
    · rw [if_neg h8]
      exact ⟨rfl, by simp only; omega, by simp only; omega⟩

/-- The symbols of a byte string: its bytes and the end of the stream. -/
def symbolsOf (input : List UInt8) : List ℕ := input.map UInt8.toNat ++ [huffmanEofSymbol]

lemma symbolsOf_lt {input : List UInt8} : ∀ sym ∈ symbolsOf input, sym < huffmanMaxSymbols := by
  intro sym hsym
  rcases List.mem_append.1 hsym with h | h
  · obtain ⟨b, -, rfl⟩ := List.mem_map.1 h
    exact lt_of_lt_of_le b.toNat_lt (by decide)
  · obtain rfl : sym = huffmanEofSymbol := by simpa using h
    decide

/-- The codes of a list of symbols. -/
def codeStream (nodes : Nodes) (syms : List ℕ) : List Bool := syms.flatMap (code nodes)

@[simp] lemma codeStream_cons (nodes : Nodes) (sym : ℕ) (syms : List ℕ) :
    codeStream nodes (sym :: syms) = code nodes sym ++ codeStream nodes syms := rfl

/-- The loop of `Compress` keeps to the output buffer, whatever the codes are. -/
lemma writeSymbols_length {outputSize : ℕ} {syms : List ℕ} {s : CompressState}
    (h : s.out.length < outputSize) :
    (writeSymbols nodes outputSize syms s).1.out.length ≤ outputSize ∧
      s.out <+: (writeSymbols nodes outputSize syms s).1.out ∧
      ((writeSymbols nodes outputSize syms s).2 = true →
        (writeSymbols nodes outputSize syms s).1.out.length < outputSize) := by
  induction syms generalizing s with
  | nil => exact ⟨h.le, List.prefix_rfl, fun _ => h⟩
  | cons sym syms ih =>
    obtain ⟨hlen, hpre, hok⟩ := write_spec (s := loadSymbol nodes sym s) h
    rw [writeSymbols]
    rcases hw : write outputSize (loadSymbol nodes sym s) with ⟨s', ok⟩
    rw [hw] at hlen hpre hok
    cases ok with
    | false => exact ⟨hlen, hpre, by simp⟩
    | true =>
      obtain ⟨hlt, -, -⟩ := hok rfl
      obtain ⟨hlen', hpre', hok'⟩ := ih hlt
      exact ⟨hlen', hpre.trans hpre', hok'⟩

/-- With room for all codes it does not fail. -/
lemma writeSymbols_ok {outputSize : ℕ} {syms : List ℕ} {s : CompressState}
    (hroom : s.out.length + (s.bitcount + (syms.map (numBits nodes)).sum) / 8 < outputSize)
    (hlt : s.bitcount + (syms.map (numBits nodes)).sum < 2 ^ 32) :
    (writeSymbols nodes outputSize syms s).2 = true ∧
      (syms ≠ [] → (writeSymbols nodes outputSize syms s).1.out.length =
        s.out.length + (s.bitcount + (syms.map (numBits nodes)).sum) / 8) := by
  induction syms generalizing s with
  | nil => exact ⟨rfl, fun h => absurd rfl h⟩
  | cons sym syms ih =>
    rw [List.map_cons, List.sum_cons] at hroom hlt ⊢
    have hcount : (loadSymbol nodes sym s).bitcount = s.bitcount + numBits nodes sym := by
      simp only [loadSymbol, numBits] at hlt ⊢
      omega
    have hout : (loadSymbol nodes sym s).out = s.out := rfl
    obtain ⟨hok, hlen, hrest⟩ := write_ok outputSize (s := loadSymbol nodes sym s)
      (by rw [hcount, hout]; omega)
    rw [hcount, hout] at hlen
    rw [hcount] at hrest
    rw [writeSymbols]
    rcases hw : write outputSize (loadSymbol nodes sym s) with ⟨s', ok⟩
    rw [hw] at hok hlen hrest
    simp only at hok hlen hrest
    subst hok
    obtain ⟨hok', hlen'⟩ := ih (s := s') (by omega) (by omega)
    refine ⟨hok', fun _ => ?_⟩
    cases syms with
    | nil => simpa [writeSymbols] using hlen
    | cons sym' syms =>
      simp only
      rw [hlen' (by simp)]
      omega

/-- With room for all codes `Compress` returns the size of what it wrote. -/
lemma compress_ok (nodes : Nodes) (input : List UInt8) (outputSize : ℕ)
    (hroom : ((symbolsOf input).map (numBits nodes)).sum / 8 < outputSize)
    (hlt : ((symbolsOf input).map (numBits nodes)).sum < 2 ^ 32) :
    (compress nodes input outputSize).2 = true ∧ (compress nodes input outputSize).1.length =
      ((symbolsOf input).map (numBits nodes)).sum / 8 + 1 := by
  obtain ⟨hok, hlen⟩ := writeSymbols_ok
    (s := ⟨0, 0, []⟩) (by simpa using hroom) (by simpa using hlt)
  rw [compress, ← symbolsOf]
  rcases hw : writeSymbols nodes outputSize (symbolsOf input) ⟨0, 0, []⟩ with ⟨s, ok⟩
  rw [hw] at hok hlen
  simp only at hok
  subst hok
  refine ⟨rfl, ?_⟩
  simp only [List.length_append, List.length_singleton]
  rw [hlen (by simp [symbolsOf])]
  simp

/-- With codes of at most 24 bits it writes the codes of the symbols. -/
lemma writeSymbols_content (ht : CodeTable nodes t)
    (h24 : ∀ s < huffmanMaxSymbols, numBits nodes s ≤ 24) {outputSize : ℕ} {syms : List ℕ}
    {s : CompressState} (hsyms : ∀ sym ∈ syms, sym < huffmanMaxSymbols)
    (h : s.out.length < outputSize) (hwf : s.Wf) (hcount : s.bitcount < 8)
    (hok : (writeSymbols nodes outputSize syms s).2 = true) :
    (writeSymbols nodes outputSize syms s).1.Wf ∧
      (writeSymbols nodes outputSize syms s).1.bitcount < 8 ∧
      (writeSymbols nodes outputSize syms s).1.content = s.content ++ codeStream nodes syms := by
  induction syms generalizing s with
  | nil => exact ⟨hwf, hcount, by simp [writeSymbols, codeStream]⟩
  | cons sym syms ih =>
    have hsym := hsyms sym (by simp)
    have hbits := h24 sym hsym
    obtain ⟨hwf', -, hcontent⟩ := loadSymbol_content ht hsym hwf (by omega)
    obtain ⟨-, -, hwrite⟩ := write_spec (s := loadSymbol nodes sym s) h
    rw [writeSymbols] at hok ⊢
    rcases hw : write outputSize (loadSymbol nodes sym s) with ⟨s', ok⟩
    rw [hw] at hwrite hok
    cases ok with
    | false => exact absurd hok (by simp)
    | true =>
      obtain ⟨hlt, hcount', hkeep⟩ := hwrite rfl
      obtain ⟨hwf'', heq⟩ := hkeep hwf'
      obtain ⟨hwf3, hcount3, hcontent3⟩ := ih (fun x hx => hsyms x (by simp [hx])) hlt hwf'' hcount' hok
      refine ⟨hwf3, hcount3, ?_⟩
      rw [hcontent3, heq, hcontent, codeStream_cons, List.append_assoc]

/-- `Compress` writes no byte outside of an output buffer that has a byte. -/
lemma compress_length_le (nodes : Nodes) (input : List UInt8) {outputSize : ℕ} (h : 1 ≤ outputSize) :
    (compress nodes input outputSize).1.length ≤ outputSize := by
  obtain ⟨hlen, -, hok⟩ := writeSymbols_length
    (s := ⟨0, 0, []⟩) h
  rw [compress, ← symbolsOf]
  rcases hw : writeSymbols nodes outputSize (symbolsOf input) ⟨0, 0, []⟩ with ⟨s, ok⟩
  rw [hw] at hlen hok
  cases ok with
  | false => exact hlen
  | true =>
    have hlt := hok rfl
    simp only [List.length_append, List.length_singleton]
    exact hlt

/-- The bytes of a successful `Compress` are the codes of the symbols and some padding. -/
lemma compress_content (ht : CodeTable nodes t)
    (h24 : ∀ s < huffmanMaxSymbols, numBits nodes s ≤ 24) {input : List UInt8} {outputSize : ℕ}
    (h : 1 ≤ outputSize) (hok : (compress nodes input outputSize).2 = true) :
    ∃ pad, pad.length ≤ 8 ∧
      bytesBits (compress nodes input outputSize).1 = codeStream nodes (symbolsOf input) ++ pad := by
  have hcontent := writeSymbols_content ht h24 (s := ⟨0, 0, []⟩) (@symbolsOf_lt input) h (by simp [CompressState.Wf]) (by simp)
  rw [compress, ← symbolsOf] at hok ⊢
  rcases hw : writeSymbols nodes outputSize (symbolsOf input) ⟨0, 0, []⟩ with ⟨s, ok⟩
  rw [hw] at hok hcontent
  cases ok with
  | false => exact absurd hok (by simp)
  | true =>
    obtain ⟨hwf, hcount, heq⟩ := hcontent rfl
    have hwf' : s.bits < 2 ^ s.bitcount := hwf
    have hpow : 2 ^ s.bitcount ≤ 2 ^ 8 := Nat.pow_le_pow_right (by norm_num) hcount.le
    have hbyte : byteBits (UInt8.ofNat s.bits) =
        toBits s.bits s.bitcount ++ toBits (s.bits / 2 ^ s.bitcount) (8 - s.bitcount) := by
      rw [byteBits, toNat_ofNat_of_lt (by omega), ← toBits_add, Nat.add_sub_cancel' hcount.le]
    refine ⟨_, (length_toBits (s.bits / 2 ^ s.bitcount) (8 - s.bitcount)).trans_le (Nat.sub_le _ _), ?_⟩
    rw [bytesBits_append, bytesBits_cons, bytesBits_nil, List.append_nil, hbyte, ← List.append_assoc]
    congr 1

lemma length_codeStream (nodes : Nodes) (syms : List ℕ) :
    (codeStream nodes syms).length = (syms.map (numBits nodes)).sum := by
  induction syms with
  | nil => rfl
  | cons sym syms ih => rw [codeStream_cons, List.length_append, ih, code, length_toBits, List.map_cons, List.sum_cons]

/-- `Compress` succeeds if the output has room for one byte more than the codes fill. -/
lemma compress_ok_iff (ht : CodeTable nodes t) (h24 : ∀ s < huffmanMaxSymbols, numBits nodes s ≤ 24)
    {input : List UInt8} {outputSize : ℕ} (h : 1 ≤ outputSize)
    (hlt : ((symbolsOf input).map (numBits nodes)).sum < 2 ^ 32) :
    (compress nodes input outputSize).2 = true ↔ ((symbolsOf input).map (numBits nodes)).sum / 8 < outputSize := by
  constructor
  · intro hok
    obtain ⟨-, -, hlength⟩ := @writeSymbols_length nodes outputSize (symbolsOf input) ⟨0, 0, []⟩ h
    have hcontent := writeSymbols_content ht h24 (s := ⟨0, 0, []⟩) (@symbolsOf_lt input) h (by simp [CompressState.Wf])
      (by simp)
    rw [compress, ← symbolsOf] at hok
    rcases hw : writeSymbols nodes outputSize (symbolsOf input) ⟨0, 0, []⟩ with ⟨s, ok⟩
    rw [hw] at hok hlength hcontent
    cases ok with
    | false => exact absurd hok (by simp)
    | true =>
      have hroom : s.out.length < outputSize := hlength rfl
      obtain ⟨-, hcount, heq⟩ := hcontent rfl
      have hcount' : s.bitcount < 8 := hcount
      have hbits := congrArg List.length heq
      simp only [CompressState.content, List.length_append, length_codeStream, length_bytesBits, length_toBits,
        List.length_nil] at hbits
      omega
  · exact fun hroom => (compress_ok nodes input outputSize hroom hlt).1

/-- The last bits take a byte. -/
lemma length_compress_pos {nodes : Nodes} {input : List UInt8} {outputSize : ℕ}
    (hok : (compress nodes input outputSize).2 = true) : 0 < (compress nodes input outputSize).1.length := by
  rw [compress] at hok ⊢
  rcases hw : writeSymbols nodes outputSize (input.map UInt8.toNat ++ [huffmanEofSymbol]) ⟨0, 0, []⟩ with ⟨s, ok⟩
  rw [hw] at hok
  cases ok with
  | false => exact absurd hok Bool.false_ne_true
  | true =>
    simp only [List.length_append, List.length_singleton]
    exact Nat.succ_pos _

lemma length_symbolsOf (input : List UInt8) : (symbolsOf input).length = input.length + 1 := by
  rw [symbolsOf, List.length_append, List.length_map]
  rfl

/-- A longer input has a longer code. -/
lemma sum_numBits_le_append (nodes : Nodes) (input more : List UInt8) :
    ((symbolsOf input).map (numBits nodes)).sum ≤ ((symbolsOf (input ++ more)).map (numBits nodes)).sum := by
  simp only [symbolsOf, List.map_append, List.sum_append]
  omega

lemma sum_numBits_le (nodes : Nodes) {n : ℕ} (h : ∀ s < huffmanMaxSymbols, numBits nodes s ≤ n) (input : List UInt8) :
    ((symbolsOf input).map (numBits nodes)).sum ≤ (input.length + 1) * n := by
  have hle : ∀ m ∈ (symbolsOf input).map (numBits nodes), m ≤ n := by
    intro m hm
    obtain ⟨sym, hsym, rfl⟩ := List.mem_map.mp hm
    exact h sym (symbolsOf_lt sym hsym)
  have hsum := List.sum_le_card_nsmul _ n hle
  rwa [List.length_map, length_symbolsOf, smul_eq_mul] at hsum

end CHuffman

end DDNet
