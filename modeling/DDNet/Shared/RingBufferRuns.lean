/-
Sequences of calls of the ring buffer.

`Holding m items` says that the memory holds the items that have been allocated and not been popped.  `PopFirst` takes the
first of them off, `Allocate` takes the front off and puts the new item behind the rest (`popFirst_step`,
`allocate_step`), so it is kept by every sequence of calls (`exec_calls`).  `First` and `Next` go through the items in their
order (`Holding.forward`).  `Last` and `Prev` go through them backwards, without the item in the block to be produced
(`Holding.backward`).

The sizes are such that `WantedSize` and the sums with it are in the range of an `int` (`Call.Fits`).
-/
import DDNet.Shared.RingBufferRefines

namespace DDNet

namespace RingMemory

open CRingBufferBase

/-! ### The queue of the list model -/

section Queue

variable {rb : CRingBufferBase (ℤ × List UInt8)} {queue : List (ℕ × ℤ × List UInt8)}

lemma consume_cons {x : ℕ × ℤ × List UInt8} (h : Holds rb (x :: queue)) : (rb.item rb.consume).value = some x.2 := by
  have hfirst := first_spec h
  rw [CRingBufferBase.first] at hfirst
  split_ifs at hfirst with hfree
  · simp at hfirst
  · simpa using hfirst

lemma consume_nil (h : Holds rb []) : rb.isFree rb.consume = true := by
  have hfirst := first_spec h
  rw [CRingBufferBase.first] at hfirst
  split_ifs at hfirst with hfree
  · exact hfree
  · rw [isFree, Option.isNone_iff_eq_none]
    simpa using hfirst

/-- A buffer without items is one free block. -/
lemma items_nil (h : Holds rb []) : rb.items = [⟨rb.size, none⟩] ∧ rb.consume = 0 ∧ rb.produce = 0 := by
  obtain ⟨hlayout, htotal⟩ := h
  generalize hnil : ([] : List (ℕ × ℤ × List UInt8)) = queue at hlayout
  cases hlayout with
  | linear f₁ a f₂ hf₁ ha hitems hconsume hproduce =>
    subst hnil
    obtain rfl := ha rfl
    rw [hitems] at htotal ⊢
    obtain rfl : f₂ = rb.size := by simpa using htotal
    exact ⟨rfl, hconsume, hproduce⟩
  | wrapped b f₁ a f₂ hf₁ hf₂ ha hitems hconsume hproduce =>
    exact absurd (List.append_eq_nil_iff.1 hnil.symm).1 ha

/-- The blocks hold the items of the queue, in some order. -/
lemma perm_queue (h : Holds rb queue) : (rb.items.filterMap CItem.value).Perm (queue.map Prod.snd) := by
  have hfree : ∀ f : List ℕ, (free f : List (CItem (ℤ × List UInt8))).filterMap CItem.value = [] := by
    intro f
    simp [free, List.filterMap_map]
  have hused : ∀ q : List (ℕ × ℤ × List UInt8), (used q).filterMap CItem.value = q.map Prod.snd := by
    intro q
    simp [used, List.filterMap_map]
  obtain ⟨hlayout, -⟩ := h
  cases hlayout with
  | linear f₁ a f₂ hf₁ ha hitems hconsume hproduce =>
    rw [hitems, List.filterMap_append, List.filterMap_append, hfree, hfree, hused, List.append_nil, List.nil_append]
  | wrapped b f₁ a f₂ hf₁ hf₂ ha hitems hconsume hproduce =>
    rw [hitems, List.filterMap_append, List.filterMap_append, List.filterMap_append, hfree, hfree, hused, hused,
      List.append_nil, List.append_nil, List.map_append]
    exact List.perm_append_comm

end Queue

/-! ### The items that are left -/

/-- What a sequence of events leaves of a list of items. -/
def after (items : List (ℤ × List UInt8)) (events : List Event) : List (ℤ × List UInt8) :=
  events.foldl (fun items e =>
    match e with
    | .allocated p data => items ++ [(p, data)]
    | .popped p => items.filter fun x => x.1 ≠ p) items

lemma live_eq (events : List Event) : live events = after [] events := rfl

lemma after_append (items : List (ℤ × List UInt8)) (events more : List Event) :
    after items (events ++ more) = after (after items events) more := List.foldl_append

lemma after_popped {items rest : List (ℤ × List UInt8)} (h : (items ++ rest).Pairwise fun x y => x.1 ≠ y.1) :
    after (items ++ rest) (items.map fun x => .popped x.1) = rest := by
  induction items with
  | nil => rfl
  | cons x items ih =>
    rw [List.cons_append, List.pairwise_cons] at h
    have hkeep : (items ++ rest).filter (fun y => y.1 ≠ x.1) = items ++ rest :=
      List.filter_eq_self.2 fun y hy => by simpa using (h.1 y hy).symm
    have hfilter : ((x :: items) ++ rest).filter (fun y => y.1 ≠ x.1) = items ++ rest := by
      rw [List.cons_append, List.filter_cons_of_neg (by simp), hkeep]
    rw [List.map_cons, after, List.foldl_cons]
    change after (((x :: items) ++ rest).filter fun y => y.1 ≠ x.1) _ = rest
    rw [hfilter, ih h.2]

/-! ### The invariant -/

/-- The memory holds a list of blocks with these items. -/
def Holding (m : RingMemory) (items : List (ℤ × List UInt8)) : Prop :=
  ∃ rb queue, Repr m rb rb.data ∧ Holds rb queue ∧ queue.map Prod.snd = items

/-- `x` and `y` lie apart. -/
def Apart (x y : ℤ × List UInt8) : Prop := x.1 + x.2.length + itemSize ≤ y.1 ∨ y.1 + y.2.length + itemSize ≤ x.1

lemma Apart.ne {x y : ℤ × List UInt8} (h : Apart x y) : x.1 ≠ y.1 := by
  rcases h with h | h <;> rw [cast_itemSize] at h <;> omega

variable {m : RingMemory} {rb : CRingBufferBase (ℤ × List UInt8)} {data : ℕ → List UInt8}

/-- The items lie one behind the other. -/
lemma Repr.pairwise (h : Repr m rb rb.data) : (rb.items.filterMap CItem.value).Pairwise Apart := by
  rw [List.pairwise_filterMap, List.pairwise_iff_getElem]
  intro i j hi hj hij x hx y hy
  have hget : ∀ k (hk : k < rb.items.length), rb.item k = rb.items[k] := fun k hk => by
    rw [item, List.getD_eq_getElem?_getD, List.getElem?_eq_getElem hk]
    rfl
  rw [← hget i hi] at hx
  rw [← hget j hj] at hy
  have hle := h.held.le hij hj.le
  rw [show rb.data i = x.2 by rw [CRingBufferBase.data, hx]; rfl] at hle
  left
  rw [h.pointer i hi x hx, h.pointer j hj y hy]
  omega

lemma Holding.apart {items : List (ℤ × List UInt8)} (h : Holding m items) : items.Pairwise Apart := by
  obtain ⟨rb, queue, hrepr, hholds, rfl⟩ := h
  exact ((perm_queue hholds).pairwise_iff fun h => h.symm).1 hrepr.pairwise

/-! ### One call -/

/-- The buffer has the same size and flags. -/
def SameBuffer (m m' : RingMemory) : Prop := m'.size = m.size ∧ m'.recycle = m.recycle

lemma Repr.sameBuffer {m' : RingMemory} {rb' : CRingBufferBase (ℤ × List UInt8)} {data' : ℕ → List UInt8}
    (h : Repr m rb data) (h' : Repr m' rb' data') (hsame : SameMemory rb rb') : SameBuffer m m' :=
  ⟨by rw [h.size, h'.size, hsame.1], by rw [h.recycle, h'.recycle, hsame.2.1]⟩

/-- `PopFirst` takes the first item off, if there is one. -/
lemma popFirst_step {items : List (ℤ × List UInt8)} (h : Holding m items) :
    ∃ m', m.popFirst = some (m', items.head?.map Prod.fst) ∧ Holding m' items.tail ∧ SameBuffer m m' := by
  obtain ⟨rb, queue, hrepr, hholds, rfl⟩ := h
  cases queue with
  | nil =>
    rw [hrepr.popFirst_free (consume_nil hholds)]
    exact ⟨m, rfl, ⟨rb, [], hrepr, hholds, rfl⟩, rfl, rfl⟩
  | cons x queue =>
    have hvalue := consume_cons hholds
    have hused : rb.isFree rb.consume = false := by rw [isFree, hvalue]; rfl
    obtain ⟨m', hpop, hrepr'⟩ := hrepr.popFirst hused
    obtain ⟨-, hholds', hsame⟩ := popFirst_spec hholds
    refine ⟨m', ?_, ⟨_, queue, hrepr', hholds', rfl⟩, hrepr.sameBuffer hrepr' hsame⟩
    rw [hpop, ← hrepr.pointer _ hrepr.consume_lt _ hvalue]
    rfl

lemma reserve_succ (wanted : ℤ) (k : ℕ) (m : RingMemory) : reserve wanted (k + 1) m =
    (m.findBlock wanted).bind fun block =>
      match block with
      | some block => some (m, some block, [])
      | none =>
          if m.recycle then
            m.popFirst.bind fun r =>
              match r.2 with
              | some p => (reserve wanted k r.1).map fun s => (s.1, s.2.1, p :: s.2.2)
              | none => some (r.1, none, [])
          else some (m, none, []) := rfl

/-- The loop of `Allocate` ends within the given number of rounds.  It takes items off the front of the queue until there
is a block, and with `FLAG_RECYCLE` it does not give up before the queue is empty. -/
lemma reserve_step {queue : List (ℕ × ℤ × List UInt8)} (wanted : ℕ) {rounds : ℕ} (hrounds : queue.length < rounds)
    (h : Repr m rb rb.data) (hholds : Holds rb queue) :
    ∃ m' rb' block popped rest, reserve wanted rounds m = some (m', block.map rb'.offset, popped.map (·.2.1)) ∧
      Repr m' rb' rb'.data ∧ Holds rb' rest ∧ queue = popped ++ rest ∧ SameMemory rb rb' ∧
      rb'.findBlock wanted = block ∧ (rb.recycle = false → popped = []) ∧
      (block = none → rb.recycle = true → rest = []) := by
  induction rounds generalizing m rb queue with
  | zero => omega
  | succ k ih =>
    rw [reserve_succ, h.findBlock wanted, Option.bind_some]
    rcases hblock : rb.findBlock wanted with _ | block
    · rw [Option.map_none]
      dsimp only
      rw [h.recycle]
      rcases hrecycle : rb.recycle with _ | _
      · exact ⟨m, rb, none, [], queue, rfl, h, hholds, rfl, ⟨rfl, rfl, rfl⟩, hblock, fun _ => rfl, by simp⟩
      · rw [if_pos rfl]
        cases queue with
        | nil =>
          rw [h.popFirst_free (consume_nil hholds), Option.bind_some]
          exact ⟨m, rb, none, [], [], rfl, h, hholds, rfl, ⟨rfl, rfl, rfl⟩, hblock, by simp, fun _ _ => rfl⟩
        | cons x queue =>
          have hvalue := consume_cons hholds
          have hused : rb.isFree rb.consume = false := by rw [isFree, hvalue]; rfl
          obtain ⟨m₁, hpop, hrepr₁⟩ := h.popFirst hused
          obtain ⟨-, hholds₁, hsame₁⟩ := popFirst_spec hholds
          obtain ⟨m', rb', block, popped, rest, hreserve, hrepr', hholds', hqueue, hsame', hfind, -, hgiveup⟩ :=
            ih (by rw [List.length_cons] at hrounds; omega) hrepr₁ hholds₁
          rw [← h.pointer _ h.consume_lt _ hvalue] at hpop
          rw [hpop, Option.bind_some]
          dsimp only
          rw [hreserve]
          refine ⟨m', rb', block, x :: popped, rest, rfl, hrepr', hholds', by rw [hqueue]; rfl, ?_, hfind, by simp,
            fun hnone _ => hgiveup hnone (hsame₁.2.1.trans hrecycle)⟩
          exact ⟨hsame'.1.trans hsame₁.1, hsame'.2.1.trans hsame₁.2.1, hsame'.2.2.trans hsame₁.2.2⟩
    · exact ⟨m, rb, some block, [], queue, rfl, h, hholds, rfl, ⟨rfl, rfl, rfl⟩, hblock, fun _ => rfl, by simp⟩

/-- The size of the block for an item, as a number. -/
def paddedSize (size : BitVec 32) : ℤ := (size.toInt + itemSize + itemSize - 1) / itemSize * itemSize

/-- The call computes `WantedSize` and `WantedSize + sizeof(CItem)` without leaving the range of an `int`, for a buffer
of the given size, and the item has a size. -/
def Call.Fits (bufferSize : ℤ) : Call → Prop
  | allocate size _ =>
      0 < paddedSize size ∧ paddedSize size < 2 ^ 31 ∧
        (paddedSize size ≤ bufferSize → paddedSize size + itemSize < 2 ^ 31)
  | popFirst => True

/-- What `WantedSize` is then. -/
lemma wantedSize_eq {size : BitVec 32} (hpos : 0 < paddedSize size) (hint : paddedSize size < 2 ^ 31) :
    ∃ wanted : ℕ, wantedSize size = wanted ∧ paddedSize size = wanted ∧ itemSize ≤ wanted ∧
      itemSize + size.toInt.toNat ≤ wanted := by
  have hrange := BitVec.toInt_lt (x := size)
  rw [paddedSize, cast_itemSize] at hpos hint
  refine ⟨(paddedSize size).toNat, ?_, ?_, ?_, ?_⟩
  · rw [wantedSize, paddedSize, cast_itemSize, Int.emod_eq_of_lt (by omega) (by omega), toInt_eq (by omega) hint]
    omega
  · rw [paddedSize, cast_itemSize]
    omega
  · rw [paddedSize, cast_itemSize, itemSize]
    omega
  · rw [paddedSize, cast_itemSize, itemSize]
    omega

/-- The block that `Allocate` puts the item into. -/
lemma place_item {α : Type*} {rb : CRingBufferBase α} {b wanted : ℕ} (hb : b < rb.items.length)
    (hle : wanted ≤ (rb.item b).size) (x : α) :
    b < (rb.place b wanted x).items.length ∧ ((rb.place b wanted x).item b).value = some x ∧
      wanted ≤ ((rb.place b wanted x).item b).size := by
  have hplace := @place_eq _ b wanted rb hb x
  obtain ⟨s, hs, hlt, hsize⟩ : ∃ s, (if wanted + itemSize < (rb.item b).size then rb.split b wanted else rb) = s ∧
      b < s.items.length ∧ wanted ≤ (s.item b).size := by
    by_cases hsplit : wanted + itemSize < (rb.item b).size
    · refine ⟨_, if_pos hsplit, by rw [length_split hb]; omega, ?_⟩
      rw [item_split hb, if_neg (lt_irrefl b), if_pos rfl]
    · exact ⟨rb, if_neg hsplit, hb, hle⟩
  simp only [hs] at hplace
  have hitem := item_set s hlt ⟨(s.item b).size, some x⟩ b
  rw [if_pos rfl] at hitem
  have hsame : (rb.place b wanted x).item b = ⟨(s.item b).size, some x⟩ := by
    rw [hplace]
    exact hitem
  refine ⟨?_, by rw [hsame], by rw [hsame]; exact hsize⟩
  rw [hplace]
  simpa only [List.length_set] using hlt

/-- `Allocate`: what it pops is the front of the items, and the new item is put behind the rest of them. -/
lemma allocate_step {items : List (ℤ × List UInt8)} (h : Holding m items) {size : BitVec 32} {written : ℕ → UInt8}
    (hfits : Call.Fits m.size (.allocate size written)) :
    ∃ m₁ result popped rest, m.allocate size = some (m₁, result, popped.map Prod.fst) ∧ items = popped ++ rest ∧
      SameBuffer m m₁ ∧ (m.recycle = false → popped = []) ∧
      (m.recycle = true → paddedSize size ≤ m.size → result ≠ none) ∧ (result = none → Holding m₁ rest) ∧
      ∀ p, result = some p → ∀ bytes : List UInt8, bytes.length ≤ size.toInt.toNat →
        ∃ m', m₁.storeData p bytes = some m' ∧ Holding m' (rest ++ [(p, bytes)]) ∧ SameBuffer m m' := by
  obtain ⟨hpos, hint, hsum⟩ := hfits
  obtain ⟨wanted, hwanted, hpadded, hlo, hroom⟩ := wantedSize_eq hpos hint
  rw [hpadded] at hint hsum ⊢
  rw [RingMemory.allocate, hwanted]
  by_cases hlarge : m.size < wanted
  · rw [if_pos hlarge]
    exact ⟨m, none, [], items, rfl, rfl, ⟨rfl, rfl⟩, fun _ => rfl, fun _ hle => absurd hle (by omega), fun _ => h,
      by simp⟩
  · rw [if_neg hlarge]
    obtain ⟨rb, queue, hrepr, hholds, rfl⟩ := h
    have hrounds : queue.length < m.rounds := by
      have hblocks := hholds.length_le.trans hrepr.held.length_le
      rw [rounds]
      omega
    obtain ⟨m₁, rb₁, block, popped, rest, hreserve, hrepr₁, hholds₁, rfl, hsame₁, hfind, hkeep, hgiveup⟩ :=
      reserve_step wanted hrounds hrepr hholds
    have hpopped : popped.map (·.2.1) = (popped.map Prod.snd).map Prod.fst := by
      rw [List.map_map]
      rfl
    rw [hreserve, hpopped, Option.bind_some, List.map_append]
    cases block with
    | none =>
      refine ⟨m₁, none, popped.map Prod.snd, rest.map Prod.snd, rfl, rfl, hrepr.sameBuffer hrepr₁ hsame₁,
        fun hr => by rw [hkeep (hrepr.recycle ▸ hr)]; rfl, ?_, fun _ => ⟨rb₁, rest, hrepr₁, hholds₁, rfl⟩, by simp⟩
      -- an empty buffer has a block that is large enough
      intro hr hle
      obtain rfl := hgiveup rfl (hrepr.recycle ▸ hr)
      obtain ⟨hitems, -, hproduce⟩ := items_nil hholds₁
      have hitem : rb₁.item rb₁.produce = ⟨rb₁.size, none⟩ := item_eq (l := []) hitems hproduce
      have hfree : rb₁.isFree rb₁.produce = true := by rw [isFree, hitem]; rfl
      have hsize : wanted ≤ rb₁.size := by
        rw [hsame₁.1]
        have hm := hrepr.size
        omega
      rw [CRingBufferBase.findBlock, if_pos hfree, hitem, if_pos hsize] at hfind
      exact absurd hfind (by simp)
    | some b =>
      obtain ⟨hb, hfree, hle⟩ := findBlock_free (Nat.zero_lt_of_lt hrepr₁.produce_lt) hrepr₁.produce_lt hfind
      have hplace : ∀ bytes : List UInt8, ∃ m₂, m₁.place (rb₁.offset b) wanted = some m₂ ∧
          Repr m₂ (rb₁.place b wanted (rb₁.offset b + itemSize, bytes))
            (Function.update (rb₁.place b wanted (rb₁.offset b + itemSize, bytes)).data b []) := fun bytes =>
        hrepr₁.place hb hfree hlo (hsum (by omega)) _ rfl
      obtain ⟨m₂, hm₂, hrepr₂⟩ := hplace []
      rw [Option.map_some]
      dsimp only
      rw [hm₂]
      have hsame₂ : ∀ x, SameMemory rb (rb₁.place b wanted x) := by
        intro x
        obtain ⟨-, -, -, hsame⟩ := place_holds hholds₁ hfind x
        exact ⟨hsame.1.trans hsame₁.1, hsame.2.1.trans hsame₁.2.1, hsame.2.2.trans hsame₁.2.2⟩
      refine ⟨m₂, some (rb₁.offset b + itemSize), popped.map Prod.snd, rest.map Prod.snd, rfl, rfl,
        hrepr.sameBuffer hrepr₂ (hsame₂ _), fun hr => by rw [hkeep (hrepr.recycle ▸ hr)]; rfl, by simp, by simp, ?_⟩
      intro p hp bytes hbytes
      obtain rfl : rb₁.offset b + itemSize = p := by simpa using hp
      obtain ⟨m₃, hm₃, hrepr₃⟩ := hplace bytes
      obtain rfl : m₂ = m₃ := by
        rw [hm₂] at hm₃
        exact Option.some.inj hm₃
      obtain ⟨hlt, hvalue, hsize⟩ := place_item hb hle (rb₁.offset b + itemSize, bytes)
      obtain ⟨m', hstore, hrepr'⟩ := hrepr₃.storeData hlt hvalue (by
        dsimp only
        omega)
      obtain ⟨s, -, hholds', -⟩ := place_holds hholds₁ hfind (rb₁.offset b + itemSize, bytes)
      refine ⟨m', hstore, ⟨_, _, hrepr', hholds', ?_⟩, hrepr.sameBuffer hrepr' (hsame₂ _)⟩
      rw [List.map_append]
      rfl

/-! ### Sequences of calls -/

/-- A call, with the items before and after it. -/
lemma exec_call {items : List (ℤ × List UInt8)} (h : Holding m items) (c : Call) (hfits : c.Fits m.size) :
    ∃ m' events, c.exec m = some (m', events) ∧ Holding m' (after items events) ∧ SameBuffer m m' := by
  cases c with
  | popFirst =>
    obtain ⟨m', hpop, hholding, hsame⟩ := popFirst_step h
    rw [Call.exec, hpop]
    refine ⟨m', _, rfl, ?_, hsame⟩
    cases items with
    | nil => exact hholding
    | cons x items =>
      have hafter := @after_popped [x] _ (h.apart.imp Apart.ne)
      change Holding m' (after ([x] ++ items) ([x].map fun x => .popped x.1))
      rw [hafter]
      exact hholding
  | allocate size written =>
    obtain ⟨m₁, result, popped, rest, hallocate, rfl, hsame, -, -, hnone, hsome⟩ := allocate_step h hfits
    have hafter := after_popped (h.apart.imp Apart.ne)
    have hmap : (popped.map Prod.fst).map Event.popped = popped.map fun x => .popped x.1 := by
      rw [List.map_map]
      rfl
    rw [Call.exec, hallocate, Option.bind_some]
    dsimp only
    rw [hmap]
    cases result with
    | none =>
      refine ⟨m₁, _, rfl, ?_, hsame⟩
      rw [hafter]
      exact hnone rfl
    | some p =>
      obtain ⟨m', hstore, hholding, hsame'⟩ := hsome p rfl ((List.range size.toInt.toNat).map written) (by simp)
      dsimp only
      rw [hstore]
      refine ⟨m', _, rfl, ?_, hsame'⟩
      rw [after_append, hafter]
      exact hholding

/-- A sequence of calls. -/
lemma exec_calls {items : List (ℤ × List UInt8)} (h : Holding m items) (cs : List Call)
    (hfits : ∀ c ∈ cs, c.Fits m.size) :
    ∃ m' events, exec m cs = some (m', events) ∧ Holding m' (after items events) ∧ SameBuffer m m' := by
  induction cs generalizing m items with
  | nil => exact ⟨m, [], rfl, h, rfl, rfl⟩
  | cons c cs ih =>
    obtain ⟨m₁, events₁, hcall, h₁, hsame₁⟩ := exec_call h c (hfits c List.mem_cons_self)
    obtain ⟨m₂, events₂, hexec, h₂, hsame₂⟩ :=
      ih h₁ fun c hc => hsame₁.1.symm ▸ hfits c (List.mem_cons_of_mem _ hc)
    rw [exec, hcall, Option.bind_some, hexec]
    refine ⟨m₂, _, rfl, ?_, hsame₂.1.trans hsame₁.1, hsame₂.2.trans hsame₁.2⟩
    rw [after_append]
    exact h₂

/-- `Init` makes one free block of all the memory. -/
lemma init_holding {memory : ℕ} (hmemory : itemSize ≤ memory) (recycle : Bool) :
    ∃ m, RingMemory.init memory recycle = some m ∧ Holding m [] ∧
      m.size = (memory / itemSize * itemSize : ℕ) ∧ m.recycle = recycle := by
  have hblock : itemSize ≤ memory / itemSize * itemSize := by
    rw [itemSize] at *
    omega
  have hle : memory / itemSize * itemSize ≤ memory := Nat.div_mul_le_self ..
  have hend : (0 : ℤ) ≤ 0 ∧ (0 : ℤ) + itemSize ≤ memory := ⟨le_rfl, by omega⟩
  refine ⟨_, if_pos hend, ⟨CRingBufferBase.init memory recycle, [], ?_, init_holds memory recycle, rfl⟩, rfl, rfl⟩
  -- the list model has one block of the same size
  have hone : (CRingBufferBase.init memory recycle : CRingBufferBase (ℤ × List UInt8)).offset 1 =
      (memory / itemSize * itemSize : ℕ) := zero_add _
  exact {
    held := {
      start := le_rfl
      room := by
        intro i hi
        obtain rfl : i = 0 := Nat.lt_one_iff.1 hi
        rw [hone]
        change (0 : ℤ) + itemSize + ((0 : ℕ) : ℤ) ≤ _
        omega
      fits := by
        change (CRingBufferBase.init memory recycle : CRingBufferBase (ℤ × List UInt8)).offset 1 ≤ _
        rw [hone]
        exact_mod_cast hle
      header := by
        intro i hi
        obtain rfl : i = 0 := Nat.lt_one_iff.1 hi
        simp only [CRingBufferBase.offset, if_true]
        rfl
      data := by
        intro i hi k hk
        obtain rfl : i = 0 := Nat.lt_one_iff.1 hi
        exact absurd hk (Nat.not_lt_zero k) }
    size := rfl
    recycle := rfl
    first := rfl
    last := rfl
    produce := rfl
    consume := rfl
    produce_lt := Nat.zero_lt_one
    consume_lt := Nat.zero_lt_one
    pointer := by
      intro i hi x hx
      obtain rfl : i = 0 := Nat.lt_one_iff.1 hi
      exact absurd hx (Option.some_ne_none x).symm }

/-! ### Going through the blocks -/

/-- Going on from block `i` with `step`, these are the blocks before `stop`. -/
def Walk (step : ℕ → ℕ) (stop : ℕ) : ℕ → List ℕ → Prop
  | i, [] => step i = stop
  | i, j :: path => step i = j ∧ j ≠ stop ∧ Walk step stop j path

lemma walk_next {stop i k : ℕ} {path : List ℕ} (hlast : i + k < rb.items.length)
    (hstop : ∀ j, i < j → j ≤ i + k → j ≠ stop) (hpath : Walk rb.nextBlock stop (i + k) path) :
    Walk rb.nextBlock stop i (List.range' (i + 1) k ++ path) := by
  induction k generalizing i with
  | zero => exact hpath
  | succ k ih =>
    refine ⟨nextBlock_eq (by omega), hstop _ (by omega) (by omega), ?_⟩
    exact ih (by omega) (fun j h1 h2 => hstop j (by omega) (by omega))
      (by rwa [show i + 1 + k = i + (k + 1) by omega])

/-- `PrevBlock` of a block, as an index. -/
def prevIndex (rb : CRingBufferBase (ℤ × List UInt8)) (i : ℕ) : ℕ := if i = 0 then rb.items.length - 1 else i - 1

lemma Repr.prevBlock (h : Repr m rb data) {i : ℕ} (hi : i < rb.items.length) :
    m.prevBlock (rb.offset i) = some (rb.offset (prevIndex rb i)) := by
  rw [RingMemory.prevBlock, h.held.header i hi, Option.map_some, prevIndex]
  simp only [header]
  split_ifs
  · rw [Option.getD_none, h.last]
  · rfl

lemma prevIndex_lt {i : ℕ} (h : i < rb.items.length) : prevIndex rb i < rb.items.length := by
  rw [prevIndex]
  split_ifs <;> omega

lemma walk_prev {stop i k : ℕ} {path : List ℕ} (hstop : ∀ j, i ≤ j → j < i + k → j ≠ stop)
    (hpath : Walk (prevIndex rb) stop i path) :
    Walk (prevIndex rb) stop (i + k) ((List.range' i k).reverse ++ path) := by
  induction k with
  | zero => exact hpath
  | succ k ih =>
    rw [List.range'_concat, List.reverse_append, List.append_assoc, Nat.one_mul]
    refine ⟨?_, hstop _ (by omega) (by omega), ih fun j h1 h2 => hstop j h1 (by omega)⟩
    rw [prevIndex, if_neg (by omega)]
    rfl

section Walk

variable {step : ℕ → ℕ} {blockStep : ℤ → Option ℤ} (h : Repr m rb rb.data)
  (hstep : ∀ i < rb.items.length, blockStep (rb.offset i) = some (rb.offset (step i)))
  (hlt : ∀ i < rb.items.length, step i < rb.items.length)

include h hstep hlt

/-- The loop of `Next` and `Prev` finds the next block that is used. -/
lemma seek_walk {rounds i : ℕ} {path : List ℕ} (hi : i < rb.items.length) (hwalk : Walk step rb.produce i path)
    (hrounds : path.length < rounds) :
    m.seek blockStep rounds (rb.offset i) =
      some ((path.find? fun j => !rb.isFree j).map fun j => rb.offset j + itemSize) := by
  induction path generalizing rounds i with
  | nil =>
    obtain ⟨k, rfl⟩ : ∃ k, rounds = k + 1 := ⟨rounds - 1, by omega⟩
    have hnext : step i = rb.produce := hwalk
    rw [seek, hstep i hi, Option.bind_some, hnext, if_pos h.produce.symm]
    rfl
  | cons j path ih =>
    rw [List.length_cons] at hrounds
    obtain ⟨k, rfl⟩ : ∃ k, rounds = k + 1 := ⟨rounds - 1, by omega⟩
    obtain ⟨rfl, hne, hwalk⟩ := hwalk
    have hj := hlt i hi
    have hne' : rb.offset (step i) ≠ m.produce := fun heq =>
      hne (h.held.offset_inj hj h.produce_lt (heq.trans h.produce))
    have hfree : (rb.header (step i)).free = rb.isFree (step i) := rfl
    rw [seek, hstep i hi, Option.bind_some, if_neg hne', h.held.header _ hj, Option.bind_some, hfree,
      ih hj hwalk (by omega), List.find?_cons]
    rcases rb.isFree (step i) with _ | _ <;> rfl

/-- The loops over the items visit the blocks that are used. -/
lemma visit_walk {fuel rounds i : ℕ} {path : List ℕ} (hi : i < rb.items.length) (hwalk : Walk step rb.produce i path)
    (hrounds : path.length < rounds) (hfuel : path.length ≤ fuel) :
    (m.seek blockStep rounds (rb.offset i)).bind
        (visit (fun p => m.seek blockStep rounds (p - itemSize)) fuel) =
      some ((path.filter fun j => !rb.isFree j).map fun j => rb.offset j + itemSize) := by
  induction path generalizing fuel i with
  | nil =>
    rw [seek_walk h hstep hlt hi hwalk hrounds]
    cases fuel <;> rfl
  | cons j path ih =>
    rw [List.length_cons] at hrounds hfuel
    obtain ⟨k, rfl⟩ : ∃ k, fuel = k + 1 := ⟨fuel - 1, by omega⟩
    have hj : j < rb.items.length := hwalk.1 ▸ hlt i hi
    rw [seek_walk h hstep hlt hi hwalk (by rw [List.length_cons]; omega), List.find?_cons, Option.bind_some]
    rcases hused : rb.isFree j with _ | _
    · have hrest := @ih k _ hj hwalk.2.2 (by omega) (by omega)
      rw [List.filter_cons_of_pos (by rw [hused]; rfl), List.map_cons]
      change visit _ (k + 1) (some (rb.offset j + itemSize)) = _
      have hcons := congrArg (Option.map ((rb.offset j + itemSize) :: ·)) hrest
      rw [Option.map_bind] at hcons
      rw [visit, add_sub_cancel_right]
      exact hcons
    · have hrest := @ih (k + 1) _ hj hwalk.2.2 (by omega) (by omega)
      rw [List.filter_cons_of_neg (by rw [hused]; simp)]
      rw [seek_walk h hstep hlt hj hwalk.2.2 (by omega), Option.bind_some] at hrest
      exact hrest

end Walk

/-- The blocks that are used, and the items in them. -/
lemma Repr.pointers (h : Repr m rb data) {path : List ℕ} (hpath : ∀ i ∈ path, i < rb.items.length) :
    (path.filter fun j => !rb.isFree j).map (fun j => rb.offset j + itemSize) =
      (path.filterMap fun i => (rb.item i).value).map Prod.fst := by
  induction path with
  | nil => rfl
  | cons i path ih =>
    have hrest := ih fun j hj => hpath j (List.mem_cons_of_mem _ hj)
    rcases hvalue : (rb.item i).value with _ | x
    · rw [List.filter_cons_of_neg (by simp [isFree, hvalue]), List.filterMap_cons]
      simp only [hvalue, hrest]
    · rw [List.filter_cons_of_pos (by simp [isFree, hvalue]), List.filterMap_cons, List.map_cons, hrest]
      simp only [hvalue, List.map_cons, h.pointer i (hpath i List.mem_cons_self) x hvalue]

variable (rb) in
lemma filterMap_free {l r : List (CItem (ℤ × List UInt8))} {f : List ℕ} (h : rb.items = l ++ free f ++ r) :
    (List.range' l.length f.length).filterMap (fun i => (rb.item i).value) = [] := by
  induction f generalizing l with
  | nil => rfl
  | cons s f ih =>
    have hitem : rb.item l.length = ⟨s, none⟩ := item_eq (by simpa using h) rfl
    have htail := ih (l := l ++ [⟨s, none⟩]) (by simpa using h)
    rw [List.length_append, List.length_singleton] at htail
    rw [List.length_cons, List.range'_succ, List.filterMap_cons, hitem]
    exact htail

lemma Repr.length_lt_rounds (h : Repr m rb data) : rb.items.length < m.rounds := by
  have hle := h.held.length_le
  rw [rounds]
  omega

variable {queue : List (ℕ × ℤ × List UInt8)}

/-- From the last block on to the one to be produced. -/
lemma walk_wrap {i stop : ℕ} (hlast : rb.items.length ≤ i + 1) (hstop : stop < rb.items.length) :
    Walk rb.nextBlock stop i (List.range' 0 stop) := by
  cases stop with
  | zero => exact nextBlock_last hlast
  | succ k =>
    refine ⟨nextBlock_last hlast, by omega, ?_⟩
    have hwalk := @walk_next rb (k + 1) 0 k [] (by omega)
      (fun j h1 h2 => by omega) ((nextBlock_eq (by omega)).trans (by omega))
    rwa [List.append_nil] at hwalk

/-- From the block to be produced back to itself. -/
lemma walk_back (hproduce : rb.produce < rb.items.length) :
    Walk (prevIndex rb) rb.produce rb.produce
      (List.range' (rb.produce + 1) (rb.items.length - 1 - rb.produce) ++ List.range' 0 rb.produce).reverse := by
  have hlast : Walk (prevIndex rb) rb.produce 0
      (List.range' (rb.produce + 1) (rb.items.length - 1 - rb.produce)).reverse := by
    rcases hk : rb.items.length - 1 - rb.produce with _ | k
    · have hzero : prevIndex rb 0 = rb.items.length - 1 := if_pos rfl
      exact hzero.trans (by omega)
    · rw [List.range'_concat, List.reverse_append, Nat.one_mul]
      have hzero : prevIndex rb 0 = rb.items.length - 1 := if_pos rfl
      have hend : Walk (prevIndex rb) rb.produce (rb.produce + 1) [] := if_neg (Nat.succ_ne_zero _)
      refine ⟨hzero.trans (by omega), by omega, ?_⟩
      have hwalk := walk_prev (i := rb.produce + 1) (k := k) (fun j h1 h2 => by omega) hend
      rwa [List.append_nil] at hwalk
  rw [List.reverse_append]
  have hwalk := walk_prev (i := 0) (k := rb.produce) (fun j h1 h2 => by omega) hlast
  rwa [Nat.zero_add] at hwalk

/-- The blocks behind the first one of the queue, up to the one to be produced. -/
lemma walk_queue {x : ℕ × ℤ × List UInt8} (h : Holds rb (x :: queue)) :
    ∃ path, Walk rb.nextBlock rb.produce rb.consume path ∧ (∀ i ∈ path, i < rb.items.length) ∧
      path.length < rb.items.length ∧ (path.filterMap fun i => (rb.item i).value) = queue.map Prod.snd := by
  obtain ⟨hlayout, -⟩ := h
  generalize hfull : x :: queue = full at hlayout
  cases hlayout with
  | linear f₁ a f₂ hf₁ ha hitems hconsume hproduce =>
    subst hfull
    rw [List.length_cons] at hproduce
    have hlen : rb.items.length = f₁.length + (queue.length + 1) + 1 := by
      rw [hitems]
      simp
      omega
    refine ⟨List.range' (rb.consume + 1) queue.length ++ [], ?_, ?_, ?_, ?_⟩
    · refine walk_next (by omega) (fun j h1 h2 => by omega) ?_
      exact (nextBlock_eq (by omega)).trans (by omega)
    · intro i hi
      rw [List.append_nil, List.mem_range'_1] at hi
      omega
    · rw [List.append_nil, List.length_range']
      omega
    · rw [List.append_nil]
      have hused := @filterMap_used _ rb (free f₁ ++ used [x]) (free [f₂]) queue (by
        rw [hitems]
        simp)
      rw [List.length_append, length_free, length_used] at hused
      rw [hconsume]
      exact hused
  | wrapped b f₁ a f₂ hf₁ hf₂ ha hitems hconsume hproduce =>
    cases a with
    | nil => exact absurd rfl ha
    | cons y a =>
      obtain ⟨rfl, rfl⟩ := List.cons_eq_cons.1 hfull
      have hlen : rb.items.length = b.length + f₁.length + (a.length + 1) + f₂.length := by
        rw [hitems]
        simp
        omega
      refine ⟨List.range' (rb.consume + 1) (a.length + f₂.length) ++ List.range' 0 rb.produce, ?_, ?_, ?_, ?_⟩
      · exact walk_next (by omega) (fun j h1 h2 => by omega) (walk_wrap (by omega) (by omega))
      · intro i hi
        rw [List.mem_append, List.mem_range'_1, List.mem_range'_1] at hi
        omega
      · rw [List.length_append, List.length_range', List.length_range']
        omega
      · have hrow := @filterMap_used _ rb (used b ++ free f₁ ++ used [x]) (free f₂) a (by
          rw [hitems]
          simp)
        have hskip := filterMap_free rb (l := used b ++ free f₁ ++ used (x :: a)) (f := f₂) (r := []) (by
          rw [hitems]
          simp)
        have hstart := @filterMap_used _ rb [] (free f₁ ++ used (x :: a) ++ free f₂) b (by
          rw [hitems]
          simp)
        simp only [List.length_append, length_free, length_used, List.length_cons, List.length_nil] at hrow hskip hstart
        rw [← hconsume] at hrow hskip
        rw [← hproduce] at hstart
        rw [← List.range'_append_1, List.filterMap_append, List.filterMap_append, hrow, hstart,
          show rb.consume + 1 + a.length = rb.consume + (a.length + 1) by omega, hskip, List.append_nil, ← List.map_append]
        rfl

/-- The blocks that `Last` and `Prev` go through hold the queue backwards, without the item that the block to be produced
holds. -/
lemma back_queue (h : Holds rb queue) :
    ((List.range' (rb.produce + 1) (rb.items.length - 1 - rb.produce) ++ List.range' 0 rb.produce).filterMap
      fun i => (rb.item i).value) = (if rb.isFree rb.produce then queue else queue.tail).map Prod.snd := by
  obtain ⟨hlayout, -⟩ := h
  cases hlayout with
  | linear f₁ a f₂ hf₁ ha hitems hconsume hproduce =>
    have hlen : rb.items.length = rb.produce + 1 := by
      rw [hitems, hproduce]
      simp
      omega
    have hfree : rb.isFree rb.produce = true :=
      isFree_eq (l := free f₁ ++ used queue) (x := ⟨f₂, none⟩) (by simpa using hitems) (by simpa using hproduce)
    have hskip := filterMap_free rb (l := []) (f := f₁) (r := used queue ++ free [f₂]) (by
      rw [hitems]
      simp)
    have hrow := @filterMap_used _ rb (free f₁) (free [f₂]) queue hitems
    rw [length_free] at hrow
    rw [List.length_nil] at hskip
    rw [if_pos hfree, hlen, Nat.add_sub_cancel, Nat.sub_self, List.range'_zero, List.nil_append, hproduce,
      ← List.range'_append_1, List.filterMap_append, hskip, Nat.zero_add, hrow, List.nil_append]
  | wrapped b f₁ a f₂ hf₁ hf₂ ha hitems hconsume hproduce =>
    have hstart := @filterMap_used _ rb [] (free f₁ ++ used a ++ free f₂) b (by
      rw [hitems]
      simp)
    rw [List.length_nil, ← hproduce] at hstart
    have hlen : rb.items.length = rb.produce + f₁.length + a.length + f₂.length := by
      rw [hitems, hproduce]
      simp
      omega
    have hskip := filterMap_free rb (l := used b ++ free f₁ ++ used a) (f := f₂) (r := []) (by
      rw [hitems]
      simp)
    rw [List.length_append, List.length_append, length_free, length_used, length_used, ← hproduce] at hskip
    rw [List.filterMap_append, hstart]
    match f₁, hf₁ with
    | [f], _ =>
      have hfree : rb.isFree rb.produce = true :=
        isFree_eq (l := used b) (x := ⟨f, none⟩) (r := used a ++ free f₂) (by simpa using hitems)
          (by simpa using hproduce)
      have hrow := @filterMap_used _ rb (used b ++ free [f]) (free f₂) a hitems
      rw [List.length_append, length_free, length_used, List.length_singleton, ← hproduce] at hrow
      rw [List.length_singleton] at hlen hskip
      rw [if_pos hfree, show rb.items.length - 1 - rb.produce = a.length + f₂.length by omega, ← List.range'_append_1,
        List.filterMap_append, hrow, show rb.produce + 1 + a.length = rb.produce + 1 + a.length from rfl, hskip,
        List.append_nil, List.map_append]
    | [], _ =>
      -- the block to be produced is the one of the oldest item
      cases a with
      | nil => exact absurd rfl ha
      | cons y a =>
        have hused : rb.isFree rb.produce = false :=
          isFree_eq (l := used b) (x := ⟨y.1, some y.2⟩) (r := used a ++ free f₂) (by simpa using hitems)
            (by simpa using hproduce)
        have hrow := @filterMap_used _ rb (used b ++ used [y]) (free f₂) a (by
          rw [hitems]
          simp)
        rw [List.length_append, length_used, length_used, List.length_singleton, ← hproduce] at hrow
        rw [List.length_nil, List.length_cons] at hlen hskip
        rw [hused, if_neg (by simp), show rb.items.length - 1 - rb.produce = a.length + f₂.length by omega,
          ← List.range'_append_1, List.filterMap_append, hrow,
          show rb.produce + 1 + a.length = rb.produce + 0 + (a.length + 1) by omega, hskip, List.append_nil,
          List.cons_append, List.tail_cons, List.map_append]

/-- `First` and `Next` go through the items in their order. -/
lemma Holding.forward {items : List (ℤ × List UInt8)} (h : Holding m items) :
    m.forward = some (items.map Prod.fst) := by
  obtain ⟨rb, queue, hrepr, hholds, rfl⟩ := h
  rw [RingMemory.forward, firstItem, hrepr.consume, hrepr.held.header _ hrepr.consume_lt, Option.map_some,
    Option.bind_some]
  have hfree : (rb.header rb.consume).free = rb.isFree rb.consume := rfl
  rw [hfree]
  cases queue with
  | nil =>
    rw [consume_nil hholds, if_pos rfl]
    rfl
  | cons x queue =>
    obtain ⟨path, hwalk, hpath, hlen, hvalues⟩ := walk_queue hholds
    have hvalue := consume_cons hholds
    have hused : rb.isFree rb.consume = false := by rw [isFree, hvalue]; rfl
    have hrounds := hrepr.length_lt_rounds
    obtain ⟨k, hk⟩ : ∃ k, m.rounds = k + 1 := ⟨m.rounds - 1, by omega⟩
    have hvisit := @visit_walk _ _ _ _ hrepr (fun i hi => hrepr.nextBlock hi)
      (fun i hi => nextBlock_lt hi) k m.rounds _ _ hrepr.consume_lt hwalk (by omega) (by omega)
    rw [hrepr.pointers hpath, hvalues] at hvisit
    have hcons := congrArg (Option.map ((rb.offset rb.consume + itemSize) :: ·)) hvisit
    rw [Option.map_bind] at hcons
    rw [hused, if_neg (by simp), hk, visit, RingMemory.next, add_sub_cancel_right]
    refine hcons.trans ?_
    rw [Option.map_some, List.map_cons, List.map_cons, hrepr.pointer _ hrepr.consume_lt _ hvalue]

/-- `Last` and `Prev` go through the items backwards.  If the block to be produced is used, they miss its item. -/
lemma Holding.backward {items : List (ℤ × List UInt8)} (h : Holding m items) :
    ∃ x, m.items m.produce = some x ∧
      m.backward = some (((if x.free then items else items.tail).map Prod.fst).reverse) ∧
      (x.free = false → items ≠ []) := by
  obtain ⟨rb, queue, hrepr, hholds, rfl⟩ := h
  have hheader := hrepr.held.header _ hrepr.produce_lt
  have hrounds := hrepr.length_lt_rounds
  have hproduce := hrepr.produce_lt
  rw [← hrepr.produce] at hheader
  refine ⟨_, hheader, ?_, ?_⟩
  · have hfree : (rb.header rb.produce).free = rb.isFree rb.produce := rfl
    have hlen : (List.range' (rb.produce + 1) (rb.items.length - 1 - rb.produce) ++
        List.range' 0 rb.produce).reverse.length < rb.items.length := by
      rw [List.length_reverse, List.length_append, List.length_range', List.length_range']
      omega
    have hvisit := @visit_walk _ _ _ _ hrepr (fun i hi => hrepr.prevBlock hi)
      (fun i hi => prevIndex_lt hi) m.rounds m.rounds _ _ hproduce (walk_back hproduce) (by omega) (by omega)
    rw [hrepr.pointers (by
      intro i hi
      rw [List.mem_reverse, List.mem_append, List.mem_range'_1, List.mem_range'_1] at hi
      omega), List.filterMap_reverse, back_queue hholds] at hvisit
    rw [RingMemory.backward, lastItem, RingMemory.prev, hrepr.produce, add_sub_cancel_right, hfree]
    refine hvisit.trans ?_
    rw [List.map_reverse]
    split_ifs
    · rfl
    · rw [List.map_tail]
  · rintro hused hnil
    rw [List.map_eq_nil_iff] at hnil
    subst hnil
    obtain ⟨hitems, -, hzero⟩ := items_nil hholds
    have hfree : rb.isFree rb.produce = true := isFree_eq (l := []) (x := ⟨rb.size, none⟩) hitems hzero
    exact absurd (hfree.symm.trans hused) (by simp)

end RingMemory

end DDNet
