/-
The ring buffer is a queue of items in disjoint blocks.

`Chain` and `Content` say what one finds in the memory: the links, the sizes of the blocks, and the items in them.  After
every sequence of calls both hold for the items that have been allocated and not been popped (`exec_fifo`).  When none is
left there is one free block, and with `FLAG_RECYCLE` an item that can fit at all gets a block (`exec_recycles`).

When the block to be produced is used, which is so when the buffer is full, `Last` and `Prev` miss the item in it
(`backward_full`).  When the sums with `WantedSize` leave the range of an `int`, `Allocate` writes outside of the memory
(`allocate_overflow`).
-/
import DDNet.Shared.RingBufferRuns

namespace DDNet

namespace RingMemory

open CRingBufferBase

/-- The blocks from `m_pFirst` to `m_pLast`, with their headers: they lie one behind the other, are linked in both
directions and add up to the whole buffer. -/
structure Chain (m : RingMemory) (blocks : List (ℤ × ItemHeader)) : Prop where
  stored : ∀ b ∈ blocks, m.items b.1 = some b.2
  neighbours : blocks.IsChain fun x y => y.1 = x.1 + x.2.size ∧ x.2.next = some y.1 ∧ y.2.prev = some x.1
  first : ∃ x, blocks.head? = some x ∧ x.1 = m.first ∧ x.1 = 0 ∧ x.2.prev = none
  last : ∃ x, blocks.getLast? = some x ∧ x.1 = m.last ∧ x.2.next = none
  total : (blocks.map fun x => x.2.size).sum = m.size
  produce : m.produce ∈ blocks.map Prod.fst
  consume : m.consume ∈ blocks.map Prod.fst

/-- The items in the blocks: every block that is used holds one of them, they have room in their blocks, do not overlap,
lie inside the buffer, and their bytes are those that were stored. -/
structure Content (m : RingMemory) (blocks : List (ℤ × ItemHeader)) (items : List (ℤ × List UInt8)) : Prop where
  used : ((blocks.filter fun b => !b.2.free).map fun b => b.1 + (itemSize : ℤ)).Perm (items.map Prod.fst)
  room : ∀ x ∈ items, ∃ b ∈ blocks, x.1 = b.1 + itemSize ∧ itemSize + x.2.length ≤ b.2.size
  apart : items.Pairwise fun x y => x.1 + (x.2.length : ℤ) ≤ y.1 ∨ y.1 + (y.2.length : ℤ) ≤ x.1
  inside : ∀ x ∈ items, 0 ≤ x.1 ∧ x.1 + x.2.length ≤ m.size
  bytes : ∀ x ∈ items, ∀ k < x.2.length, m.bytes (x.1 + k) = x.2[k]?

/-- The blocks of the list model. -/
def blocksOf (rb : CRingBufferBase (ℤ × List UInt8)) : List (ℤ × ItemHeader) :=
  (List.range rb.items.length).map fun i => (rb.offset i, rb.header i)

variable {m : RingMemory} {rb : CRingBufferBase (ℤ × List UInt8)}

lemma mem_blocksOf {b : ℤ × ItemHeader} :
    b ∈ blocksOf rb ↔ ∃ i < rb.items.length, (rb.offset i, rb.header i) = b := by
  rw [blocksOf, List.mem_map]
  simp only [List.mem_range]

lemma sum_size (rb : CRingBufferBase (ℤ × List UInt8)) (n : ℕ) :
    ((List.range n).map fun i => ((rb.item i).size : ℤ)).sum = rb.offset n := by
  induction n with
  | zero => rfl
  | succ n ih =>
    rw [List.range_succ, List.map_append, List.sum_append, ih, offset]
    simp

/-- The items are found by the index of their block. -/
lemma filterMap_range (rb : CRingBufferBase (ℤ × List UInt8)) :
    ((List.range rb.items.length).filterMap fun i => (rb.item i).value) = rb.items.filterMap CItem.value := by
  have hitems : rb.items = (List.range rb.items.length).map rb.item := by
    refine List.ext_getElem (by simp) fun i h1 h2 => ?_
    rw [List.getElem_map, List.getElem_range, item, List.getD_eq_getElem?_getD, List.getElem?_eq_getElem h1]
    rfl
  conv_rhs => rw [hitems, List.filterMap_map]
  rfl

lemma Repr.chain (h : Repr m rb rb.data) (htotal : (rb.items.map CItem.size).sum = rb.size) :
    Chain m (blocksOf rb) := by
  have hpos : 0 < rb.items.length := Nat.zero_lt_of_lt h.produce_lt
  refine ⟨?_, ?_, ?_, ?_, ?_, ?_, ?_⟩
  · rintro b hb
    obtain ⟨i, hi, rfl⟩ := mem_blocksOf.1 hb
    exact h.held.header i hi
  · rw [blocksOf, List.isChain_iff_getElem]
    intro i hi
    rw [List.length_map, List.length_range] at hi
    simp only [List.getElem_map, List.getElem_range]
    exact ⟨rfl, if_pos hi, rfl⟩
  · refine ⟨(rb.offset 0, rb.header 0), ?_, h.first.symm, rfl, rfl⟩
    rw [blocksOf, List.head?_map, List.head?_range, if_neg (by omega)]
    rfl
  · refine ⟨(rb.offset (rb.items.length - 1), rb.header (rb.items.length - 1)), ?_, h.last.symm, ?_⟩
    · rw [blocksOf, List.getLast?_map, List.getLast?_range, if_neg (by omega)]
      rfl
    · exact if_neg (by omega)
  · have hsum : (blocksOf rb).map (fun x => x.2.size) = (List.range rb.items.length).map fun i => ((rb.item i).size : ℤ) := by
      rw [blocksOf, List.map_map]
      rfl
    rw [hsum, sum_size, offset_length, htotal, h.size]
  · exact List.mem_map.2 ⟨_, mem_blocksOf.2 ⟨_, h.produce_lt, rfl⟩, h.produce.symm⟩
  · exact List.mem_map.2 ⟨_, mem_blocksOf.2 ⟨_, h.consume_lt, rfl⟩, h.consume.symm⟩

lemma Repr.content (h : Repr m rb rb.data) {queue : List (ℕ × ℤ × List UInt8)} (hholds : Holds rb queue) :
    Content m (blocksOf rb) (queue.map Prod.snd) := by
  have hperm := perm_queue hholds
  -- an item is in the block with some index
  have hblock : ∀ x ∈ queue.map Prod.snd, ∃ i < rb.items.length, (rb.item i).value = some x := by
    intro x hx
    rw [← hperm.mem_iff, ← filterMap_range, List.mem_filterMap] at hx
    obtain ⟨i, hi, hvalue⟩ := hx
    exact ⟨i, List.mem_range.1 hi, hvalue⟩
  have hroom : ∀ i < rb.items.length, ∀ x, (rb.item i).value = some x →
      (itemSize : ℤ) + x.2.length ≤ (rb.item i).size := by
    intro i hi x hx
    have hle := h.held.room i hi
    rw [show rb.data i = x.2 by rw [CRingBufferBase.data, hx]; rfl, offset] at hle
    omega
  refine ⟨?_, ?_, ?_, ?_, ?_⟩
  · rw [blocksOf, List.filter_map, List.map_map]
    have hpointers := @Repr.pointers _ _ _ h (List.range rb.items.length) fun i hi => List.mem_range.1 hi
    rw [filterMap_range] at hpointers
    exact hpointers ▸ hperm.map Prod.fst
  · intro x hx
    obtain ⟨i, hi, hvalue⟩ := hblock x hx
    exact ⟨_, mem_blocksOf.2 ⟨i, hi, rfl⟩, h.pointer i hi x hvalue, hroom i hi x hvalue⟩
  · refine (Holding.apart ⟨rb, queue, h, hholds, rfl⟩).imp fun {x y} hapart => ?_
    rw [Apart, cast_itemSize] at hapart
    omega
  · intro x hx
    obtain ⟨i, hi, hvalue⟩ := hblock x hx
    have hle := h.held.nonneg hi.le
    have hend : rb.offset (i + 1) ≤ m.size := by
      rw [h.size, ← hholds.total, ← offset_length]
      rcases Nat.lt_or_ge (i + 1) rb.items.length with hlt | hge
      · have hle := h.held.le hlt le_rfl
        omega
      · rw [show i + 1 = rb.items.length by omega]
    have hsize := hroom i hi x hvalue
    rw [h.pointer i hi x hvalue]
    rw [offset] at hend
    omega
  · intro x hx k hk
    obtain ⟨i, hi, hvalue⟩ := hblock x hx
    have hdata : rb.data i = x.2 := by rw [CRingBufferBase.data, hvalue]; rfl
    have hbyte := h.held.data i hi k (by rwa [hdata])
    rw [hdata] at hbyte
    rw [h.pointer i hi x hvalue]
    exact hbyte

/-- After every sequence of calls: the blocks make up the buffer, the items that have been allocated and not been popped
lie in them as they were stored, and `First` and `Next` go through them in the order in which they were allocated.  `Last`
and `Prev` go through them backwards if and only if the block to be produced is free. -/
theorem exec_fifo (memory : ℕ) (recycle : Bool) (cs : List Call) (hmemory : itemSize ≤ memory)
    (hfits : ∀ c ∈ cs, c.Fits (memory / itemSize * itemSize : ℕ)) :
    ∃ m₀ m events blocks, RingMemory.init memory recycle = some m₀ ∧ exec m₀ cs = some (m, events) ∧
      m.size = (memory / itemSize * itemSize : ℕ) ∧ Chain m blocks ∧ Content m blocks (live events) ∧
      m.forward = some ((live events).map Prod.fst) ∧
      (m.backward = some ((live events).map Prod.fst).reverse ↔ (m.items m.produce).any fun x => x.free) := by
  obtain ⟨m₀, hinit, h₀, hsize, -⟩ := init_holding hmemory recycle
  obtain ⟨m, events, hexec, h, hsame⟩ := exec_calls h₀ cs fun c hc => by
    rw [hsize]
    exact hfits c hc
  rw [← live_eq] at h
  obtain ⟨x, hx, hbackward, hused⟩ := h.backward
  have hforward := h.forward
  obtain ⟨rb, queue, hrepr, hholds, hqueue⟩ := h
  refine ⟨m₀, m, events, blocksOf rb, hinit, hexec, by rw [hsame.1, hsize], hrepr.chain hholds.total,
    hqueue ▸ hrepr.content hholds, hforward, ?_⟩
  rw [hbackward, hx, Option.any_some]
  cases hfree : x.free with
  | true => simp
  | false =>
    have hlen : 0 < (live events).length := List.length_pos_iff.2 (hused hfree)
    constructor
    · intro heq
      have hlength := congrArg List.length (Option.some.inj heq)
      simp only [Bool.false_eq_true, if_false, List.length_reverse, List.length_map, List.length_tail] at hlength
      omega
    · simp

/-- A buffer of 240 bytes. -/
theorem exec_fifo_sample :
    ∃ m₀ m events blocks, RingMemory.init 240 true = some m₀ ∧
      exec m₀ [.allocate 100 fun _ => 1, .allocate 50 fun _ => 2, .popFirst, .allocate 100 fun _ => 3] =
        some (m, events) ∧
      m.size = (240 / itemSize * itemSize : ℕ) ∧ Chain m blocks ∧ Content m blocks (live events) ∧
      m.forward = some ((live events).map Prod.fst) ∧
      (m.backward = some ((live events).map Prod.fst).reverse ↔ (m.items m.produce).any fun x => x.free) :=
  exec_fifo 240 true [.allocate 100 fun _ => 1, .allocate 50 fun _ => 2, .popFirst, .allocate 100 fun _ => 3] (by decide)
    (by
      intro c hc
      simp only [List.mem_cons, List.not_mem_nil, or_false] at hc
      rcases hc with rfl | rfl | rfl | rfl
      · exact ⟨by decide, by decide, by decide⟩
      · exact ⟨by decide, by decide, by decide⟩
      · trivial
      · exact ⟨by decide, by decide, by decide⟩)

/-- An item of 24 bytes fills a buffer of 48 bytes.  `First` returns it and `Last` returns nothing. -/
theorem backward_full :
    ∃ m₀ m events, RingMemory.init 48 false = some m₀ ∧ exec m₀ [.allocate 24 fun _ => 0] = some (m, events) ∧
      (live events).map Prod.fst = [24] ∧ m.forward = some [24] ∧ m.lastItem = some none ∧
      m.backward ≠ some ((live events).map Prod.fst).reverse :=
  ⟨_, _, _, rfl, rfl, by decide, by decide, by decide, by decide⟩

/-- After every sequence of calls: without items there is one free block of the full size, and with `FLAG_RECYCLE` an
item that can fit at all gets a block, for which only items at the front are popped. -/
theorem exec_recycles (memory : ℕ) (recycle : Bool) (cs : List Call) (hmemory : itemSize ≤ memory)
    (hfits : ∀ c ∈ cs, c.Fits (memory / itemSize * itemSize : ℕ)) :
    ∃ m₀ m events, RingMemory.init memory recycle = some m₀ ∧ exec m₀ cs = some (m, events) ∧
      m.size = (memory / itemSize * itemSize : ℕ) ∧
      (live events = [] → m.items 0 = some ⟨none, none, true, m.size⟩ ∧ m.first = 0 ∧ m.last = 0 ∧ m.produce = 0 ∧
        m.consume = 0) ∧
      (recycle = true → ∀ (size : BitVec 32) (written : ℕ → UInt8), Call.Fits m.size (.allocate size written) →
        paddedSize size ≤ m.size → ∃ m' p popped rest, m.allocate size = some (m', some p, popped.map Prod.fst) ∧
          live events = popped ++ rest ∧
          ∃ m'' added, Call.exec m (.allocate size written) = some (m'', added) ∧
            live (events ++ added) = rest ++ [(p, (List.range size.toInt.toNat).map written)]) := by
  obtain ⟨m₀, hinit, h₀, hsize, hrecycle⟩ := init_holding hmemory recycle
  obtain ⟨m, events, hexec, h, hsame⟩ := exec_calls h₀ cs fun c hc => by
    rw [hsize]
    exact hfits c hc
  rw [← live_eq] at h
  refine ⟨m₀, m, events, hinit, hexec, by rw [hsame.1, hsize], ?_, ?_⟩
  · intro hnil
    obtain ⟨rb, queue, hrepr, hholds, hqueue⟩ := h
    rw [hnil, List.map_eq_nil_iff] at hqueue
    subst hqueue
    obtain ⟨hitems, hconsume, hproduce⟩ := items_nil hholds
    have hlen : rb.items.length = 1 := by rw [hitems]; rfl
    have hheader : rb.header 0 = ⟨none, none, true, m.size⟩ := by
      have hitem : rb.item 0 = ⟨rb.size, none⟩ := item_eq (l := []) hitems rfl
      rw [header, hlen, isFree, hitem, hrepr.size]
      rfl
    refine ⟨hheader ▸ hrepr.held.header 0 (by omega), hrepr.first, ?_, ?_, ?_⟩
    · rw [hrepr.last, hlen]
      rfl
    · rw [hrepr.produce, hproduce]
      rfl
    · rw [hrepr.consume, hconsume]
      rfl
  · rintro htrue size written hfit hle
    obtain ⟨m', result, popped, rest, hallocate, hlive, -, -, hsucceeds, -, hsome⟩ := allocate_step h hfit
    cases result with
    | none => exact absurd rfl (hsucceeds (by rw [hsame.2, hrecycle, htrue]) hle)
    | some p =>
      obtain ⟨m'', hstore, -, -⟩ := hsome p rfl ((List.range size.toInt.toNat).map written) (by simp)
      have hmap : (popped.map Prod.fst).map Event.popped = popped.map fun x => .popped x.1 := by
        rw [List.map_map]
        rfl
      refine ⟨m', p, popped, rest, hallocate, hlive, m'', (popped.map Prod.fst).map Event.popped ++
        [.allocated p ((List.range size.toInt.toNat).map written)], ?_, ?_⟩
      · rw [Call.exec, hallocate, Option.bind_some]
        dsimp only
        rw [hstore, Option.map_some]
      · rw [hlive] at h
        rw [live_eq, after_append, ← live_eq, hlive, hmap, after_append, after_popped (h.apart.imp Apart.ne)]
        rfl

/-- A buffer of 240 bytes, in which an item is allocated and popped, and then another one is allocated. -/
theorem exec_recycles_sample :
    ∃ m₀ m events, RingMemory.init 240 true = some m₀ ∧ exec m₀ [.allocate 100 fun _ => 1, .popFirst] = some (m, events) ∧
      m.items 0 = some ⟨none, none, true, m.size⟩ ∧
      ∃ m' p popped, m.allocate 150 = some (m', some p, popped) := by
  obtain ⟨m₀, m, events, hinit, hexec, hsize, hfree, hallocate⟩ :=
    exec_recycles 240 true [.allocate 100 fun _ => 1, .popFirst] (by decide) (by
      intro c hc
      simp only [List.mem_cons, List.not_mem_nil, or_false] at hc
      rcases hc with rfl | rfl
      · exact ⟨by decide, by decide, by decide⟩
      · trivial)
  refine ⟨m₀, m, events, hinit, hexec, (hfree ?_).1, ?_⟩
  · have hlive : (RingMemory.init 240 true).bind (fun m =>
        (exec m [.allocate 100 fun _ => 1, .popFirst]).map fun r => live r.2) = some [] := by decide
    rw [hinit, Option.bind_some, hexec] at hlive
    exact Option.some.inj hlive
  · obtain ⟨m', p, popped, -, hcall, -⟩ := hallocate rfl 150 (fun _ => 0)
      ⟨by decide, by decide, fun _ => by decide⟩ (by rw [hsize]; decide)
    exact ⟨m', p, _, hcall⟩

/-- In the largest buffer there is, an item whose block would fill it is not allocated: the sum with `WantedSize` overflows,
and the header of a rest is written behind the memory. -/
theorem allocate_overflow :
    ∃ m, RingMemory.init 2147483640 true = some m ∧ paddedSize 2147483616 = m.size ∧ m.allocate 2147483616 = none := by
  refine ⟨_, rfl, by decide, ?_⟩
  decide

end RingMemory

end DDNet
