/-
The ring buffer (`engine/shared/ringbuffer.h`, `ringbuffer.cpp`).

The buffer is cut into blocks that lie one behind the other in memory; a block is free or
holds one item.  The model keeps the blocks as a list in the order of memory, and a pointer
to a block is its index, so the links `m_pPrev` and `m_pNext` are the neighbours in the list.
Only the sizes of the blocks matter for what the operations do, so an item is a value of an
arbitrary type together with the size of its block.

`Layout` says which lists of blocks can occur and which queue of items they hold.
`Allocate` appends to that queue and `PopFirst` takes its first item off
(`allocate_spec`, `popFirst_spec`).
-/
import Mathlib.Tactic

namespace DDNet

/-- `CRingBufferBase::CItem`: the header of a block, and the item in it. -/
structure CItem (α : Type*) where
  /-- `m_Size`, the header included. -/
  size : ℕ
  /-- The item; `none` is `m_Free`. -/
  value : Option α

/-- `sizeof(CItem)`. -/
def itemSize : ℕ := 24

/-- `CRingBufferBase`. -/
structure CRingBufferBase (α : Type*) where
  /-- `m_Size`. -/
  size : ℕ
  /-- `m_Flags & FLAG_RECYCLE`. -/
  recycle : Bool
  /-- The blocks, from `m_pFirst` to `m_pLast`. -/
  items : List (CItem α)
  /-- `m_pProduce`. -/
  produce : ℕ
  /-- `m_pConsume`. -/
  consume : ℕ

namespace CRingBufferBase

variable {α : Type*}

/-- The block at an index. -/
def item (rb : CRingBufferBase α) (i : ℕ) : CItem α := rb.items.getD i ⟨0, none⟩

/-- `m_Free`. -/
def isFree (rb : CRingBufferBase α) (i : ℕ) : Bool := (rb.item i).value.isNone

/-- `NextBlock`. -/
def nextBlock (rb : CRingBufferBase α) (i : ℕ) : ℕ := if i + 1 < rb.items.length then i + 1 else 0

/-- `MergeBack`: the buffer and the current block after it. -/
def mergeBack (rb : CRingBufferBase α) (i : ℕ) : CRingBufferBase α × ℕ :=
  -- make sure that this block and previous block is free
  if !rb.isFree i || i = 0 || !rb.isFree (i - 1) then (rb, i)
  else
    ({ rb with
        items := (rb.items.set (i - 1) ⟨(rb.item (i - 1)).size + (rb.item i).size, none⟩).eraseIdx i
        produce := if i ≤ rb.produce then rb.produce - 1 else rb.produce
        consume := if i ≤ rb.consume then rb.consume - 1 else rb.consume }, i - 1)

/-- `Init`, with a memory of the given size. -/
def init (memory : ℕ) (recycle : Bool) : CRingBufferBase α :=
  let size := memory / itemSize * itemSize
  ⟨size, recycle, [⟨size, none⟩], 0, 0⟩

/-- The loop of `PopFirst` that advances the consume pointer; `fuel` bounds the number of
blocks. -/
def advance : ℕ → CRingBufferBase α → CRingBufferBase α
  | 0, rb => rb
  | fuel + 1, rb =>
      if rb.isFree rb.consume && rb.consume ≠ rb.produce then
        let (rb, block) := rb.mergeBack rb.consume
        advance fuel { rb with consume := rb.nextBlock block }
      else rb

/-- The end of `PopFirst`: the consume pointer is advanced, and in the case that it has
caught up with the produce pointer the block there is merged. -/
def catchUp (rb : CRingBufferBase α) (block : ℕ) : CRingBufferBase α :=
  let rb := advance rb.items.length { rb with consume := rb.nextBlock block }
  (rb.mergeBack rb.consume).1

/-- `PopFirst`; `false` is its result 0. -/
def popFirst (rb : CRingBufferBase α) : CRingBufferBase α × Bool :=
  if rb.isFree rb.consume then (rb, false)
  else
    -- set the free flag
    let rb := { rb with items := rb.items.set rb.consume ⟨(rb.item rb.consume).size, none⟩ }
    -- previous block is also free, merge them
    let (rb, block) := rb.mergeBack rb.consume
    (rb.catchUp block, true)

/-- The size of the block for an item of `Size` bytes. -/
def wantedSize (size : ℕ) : ℕ := (size + itemSize + itemSize - 1) / itemSize * itemSize

/-- The block that `Allocate` finds without making room. -/
def findBlock (rb : CRingBufferBase α) (wanted : ℕ) : Option ℕ :=
  if rb.isFree rb.produce then
    if wanted ≤ (rb.item rb.produce).size then some rb.produce
    -- wrap around to try to find a block
    else if rb.isFree 0 && wanted ≤ (rb.item 0).size then some 0
    else none
  else none

/-- The loop of `Allocate`: the first items are popped until there is a block, if the flags
allow it.  `fuel` bounds the number of items. -/
def reserve (wanted : ℕ) : ℕ → CRingBufferBase α → CRingBufferBase α × Option ℕ
  | 0, rb => (rb, none)
  | fuel + 1, rb =>
      match rb.findBlock wanted with
      | some block => (rb, some block)
      | none =>
          if rb.recycle then
            match rb.popFirst with
            | (rb, true) => reserve wanted fuel rb
            | (rb, false) => (rb, none)
          else (rb, none)

/-- The end of `Allocate`: the block is split if needed, and used. -/
def place (rb : CRingBufferBase α) (block wanted : ℕ) (x : α) : CRingBufferBase α :=
  let split := (rb.item block).size > wanted + itemSize
  let items := if split then
      rb.items.take block ++ ⟨wanted, some x⟩ ::
        ⟨(rb.item block).size - wanted, none⟩ :: rb.items.drop (block + 1)
    else rb.items.set block ⟨(rb.item block).size, some x⟩
  let rb := { rb with
    items := items
    consume := if split && block < rb.consume then rb.consume + 1 else rb.consume }
  { rb with produce := rb.nextBlock block }

/-- `Allocate`, with the item that is written to the block; `false` is its result 0. -/
def allocate (rb : CRingBufferBase α) (size : ℕ) (x : α) : CRingBufferBase α × Bool :=
  -- check if we even can fit this block
  if wantedSize size > rb.size then (rb, false)
  else
    match rb.reserve (wantedSize size) (rb.items.length + 1) with
    | (rb, some block) => (rb.place block (wantedSize size) x, true)
    | (rb, none) => (rb, false)

/-- `First`: the first block of the queue. -/
def first (rb : CRingBufferBase α) : Option ℕ := if rb.isFree rb.consume then none else some rb.consume

/-- `Next`; `fuel` bounds the number of blocks. -/
def next (rb : CRingBufferBase α) : ℕ → ℕ → Option ℕ
  | 0, _ => none
  | fuel + 1, i =>
      let i := rb.nextBlock i
      if i = rb.produce then none
      else if !rb.isFree i then some i
      else rb.next fuel i

/-- The blocks that the loop `for(p = First(); p; p = Next(p))` visits from a block on. -/
def visit (rb : CRingBufferBase α) : ℕ → Option ℕ → List ℕ
  | 0, _ => []
  | _ + 1, none => []
  | fuel + 1, some i => i :: rb.visit fuel (rb.next rb.items.length i)

/-- The blocks that the loop `for(p = First(); p; p = Next(p))` visits. -/
def blocks (rb : CRingBufferBase α) : List ℕ := rb.visit rb.items.length rb.first

/-- The items that it visits. -/
def values (rb : CRingBufferBase α) : List α := rb.blocks.filterMap fun i => (rb.item i).value

/-- A change of all items in place. -/
def mapValues (rb : CRingBufferBase α) (f : α → α) : CRingBufferBase α :=
  { rb with items := rb.items.map fun x => { x with value := x.value.map f } }

/-- A change of the first item in place. -/
def mapFirst (rb : CRingBufferBase α) (f : α → α) : CRingBufferBase α :=
  { rb with items := rb.items.modify rb.consume fun x => { x with value := x.value.map f } }

/-! ### The layout of the blocks -/

/-- Free blocks of the given sizes. -/
def free (sizes : List ℕ) : List (CItem α) := sizes.map fun s => ⟨s, none⟩

/-- Blocks of the given sizes with items in them. -/
def used (queue : List (ℕ × α)) : List (CItem α) := queue.map fun x => ⟨x.1, some x.2⟩

/-- How the blocks lie in memory, and the queue of items with the sizes of their blocks.
Neighbouring free blocks are merged, so there is at most one free block in a row. -/
inductive Layout (rb : CRingBufferBase α) : List (ℕ × α) → Prop
  /-- The queue lies in one piece in front of a free block.  When it is empty all is free. -/
  | linear (f₁ : List ℕ) (a : List (ℕ × α)) (f₂ : ℕ) (hf₁ : f₁.length ≤ 1) (ha : a = [] → f₁ = [])
      (hitems : rb.items = free f₁ ++ used a ++ free [f₂]) (hconsume : rb.consume = f₁.length)
      (hproduce : rb.produce = f₁.length + a.length) : Layout rb a
  /-- The queue starts behind the block to be produced and goes on at the start of the
  memory. -/
  | wrapped (b : List (ℕ × α)) (f₁ : List ℕ) (a : List (ℕ × α)) (f₂ : List ℕ) (hf₁ : f₁.length ≤ 1)
      (hf₂ : f₂.length ≤ 1) (ha : a ≠ [])
      (hitems : rb.items = used b ++ free f₁ ++ used a ++ free f₂)
      (hconsume : rb.consume = b.length + f₁.length) (hproduce : rb.produce = b.length) :
      Layout rb (a ++ b)

/-- The buffer as a whole: the layout, and that the blocks add up to the memory. -/
structure Holds (rb : CRingBufferBase α) (queue : List (ℕ × α)) : Prop where
  layout : Layout rb queue
  total : (rb.items.map CItem.size).sum = rb.size

@[simp] lemma length_free (sizes : List ℕ) : (free sizes : List (CItem α)).length = sizes.length :=
  List.length_map _

@[simp] lemma length_used (queue : List (ℕ × α)) : (used queue).length = queue.length :=
  List.length_map _

@[simp] lemma free_nil : (free [] : List (CItem α)) = [] := rfl

@[simp] lemma used_nil : used ([] : List (ℕ × α)) = [] := rfl

@[simp] lemma free_cons (s : ℕ) (sizes : List ℕ) :
    (free (s :: sizes) : List (CItem α)) = ⟨s, none⟩ :: free sizes := rfl

@[simp] lemma used_cons (x : ℕ × α) (queue : List (ℕ × α)) :
    used (x :: queue) = ⟨x.1, some x.2⟩ :: used queue := rfl

lemma used_append (queue more : List (ℕ × α)) : used (queue ++ more) = used queue ++ used more :=
  List.map_append

@[simp] lemma map_size_free (sizes : List ℕ) : (free sizes : List (CItem α)).map CItem.size = sizes := by
  simp [free, Function.comp_def]

@[simp] lemma map_size_used (queue : List (ℕ × α)) :
    (used queue).map CItem.size = queue.map Prod.fst := by
  simp [used, Function.comp_def]

lemma item_eq {rb : CRingBufferBase α} {l r : List (CItem α)} {x : CItem α} {i : ℕ}
    (h : rb.items = l ++ x :: r) (hi : i = l.length) : rb.item i = x := by
  rw [item, h, hi, List.getD_eq_getElem?_getD, List.getElem?_append_right le_rfl]
  simp

lemma isFree_eq {rb : CRingBufferBase α} {l r : List (CItem α)} {x : CItem α} {i : ℕ}
    (h : rb.items = l ++ x :: r) (hi : i = l.length) : rb.isFree i = x.value.isNone := by
  rw [isFree, item_eq h hi]

/-- Two neighbouring free blocks are merged. -/
lemma mergeBack_free (rb : CRingBufferBase α) {l r : List (CItem α)} {s t i : ℕ}
    (h : rb.items = l ++ ⟨s, none⟩ :: ⟨t, none⟩ :: r) (hi : i = l.length + 1) :
    rb.mergeBack i = ({ rb with
      items := l ++ ⟨s + t, none⟩ :: r
      produce := if i ≤ rb.produce then rb.produce - 1 else rb.produce
      consume := if i ≤ rb.consume then rb.consume - 1 else rb.consume }, l.length) := by
  have h' : rb.items = (l ++ [⟨s, none⟩]) ++ ⟨t, none⟩ :: r := by rw [h]; simp
  have hi0 : rb.item (i - 1) = ⟨s, none⟩ := item_eq h (by omega)
  have hi1 : rb.item i = ⟨t, none⟩ := item_eq h' (by simp [hi])
  have hcond : (!rb.isFree i || decide (i = 0) || !rb.isFree (i - 1)) = false := by
    simp only [isFree, hi0, hi1]
    simp [hi]
  rw [mergeBack, hcond, if_neg (by simp), hi0, hi1]
  have hpred : i - 1 = l.length := by omega
  have hset : rb.items.set (i - 1) ⟨s + t, none⟩ = l ++ ⟨s + t, none⟩ :: ⟨t, none⟩ :: r := by
    rw [h, hpred, List.set_append_right _ _ le_rfl]
    simp
  have herase : (l ++ ⟨s + t, none⟩ :: ⟨t, none⟩ :: r).eraseIdx i =
      l ++ (⟨s + t, none⟩ : CItem α) :: r := by
    rw [hi, List.eraseIdx_append_of_length_le (by omega)]
    simp
  rw [hset, herase, hpred]

lemma mergeBack_used {rb : CRingBufferBase α} {i : ℕ} (h : rb.isFree i = false) :
    rb.mergeBack i = (rb, i) := by
  rw [mergeBack, h]
  simp

lemma mergeBack_zero (rb : CRingBufferBase α) : rb.mergeBack 0 = (rb, 0) := by
  rw [mergeBack]
  simp

lemma mergeBack_prev_used {rb : CRingBufferBase α} {i : ℕ} (h : rb.isFree (i - 1) = false) :
    rb.mergeBack i = (rb, i) := by
  rw [mergeBack, h]
  simp

lemma nextBlock_eq {rb : CRingBufferBase α} {i : ℕ} (h : i + 1 < rb.items.length) :
    rb.nextBlock i = i + 1 := if_pos h

lemma nextBlock_last {rb : CRingBufferBase α} {i : ℕ} (h : rb.items.length ≤ i + 1) :
    rb.nextBlock i = 0 := if_neg (not_lt.2 h)

/-! ### Taking the first item off -/

/-- The loop does nothing at a block in use or at the produce pointer. -/
lemma advance_stop {rb : CRingBufferBase α} (fuel : ℕ)
    (h : rb.isFree rb.consume = false ∨ rb.consume = rb.produce) : advance fuel rb = rb := by
  cases fuel with
  | zero => rfl
  | succ fuel =>
    have hcond : (rb.isFree rb.consume && decide (rb.consume ≠ rb.produce)) = false := by
      rcases h with h | h <;> simp [h]
    rw [advance, hcond]
    rfl

lemma advance_step {rb rb' : CRingBufferBase α} {n block : ℕ} (hfree : rb.isFree rb.consume = true)
    (hne : rb.consume ≠ rb.produce) (hmerge : rb.mergeBack rb.consume = (rb', block)) :
    advance (n + 1) rb = advance n { rb' with consume := rb'.nextBlock block } := by
  have hcond : (rb.isFree rb.consume && decide (rb.consume ≠ rb.produce)) = true := by simp [hfree, hne]
  rw [advance, hcond, if_pos rfl, hmerge]

/-- The operations do not change the size of the memory and the flags. -/
def SameMemory (rb rb' : CRingBufferBase α) : Prop :=
  rb'.size = rb.size ∧ rb'.recycle = rb.recycle ∧
    (rb'.items.map CItem.size).sum = (rb.items.map CItem.size).sum

/-- The block that was freed is the first one of the memory. -/
lemma catchUp_linear (rb : CRingBufferBase α) {g f : ℕ} {a : List (ℕ × α)}
    (hitems : rb.items = ⟨g, none⟩ :: (used a ++ [⟨f, none⟩])) (hproduce : rb.produce = 1 + a.length) :
    Layout (rb.catchUp 0) a ∧ SameMemory rb (rb.catchUp 0) := by
  have hnext : rb.nextBlock 0 = 1 := nextBlock_eq (by simp [hitems])
  rw [catchUp, hnext]
  cases a with
  | nil =>
    -- the free block behind it is the one to be produced
    rw [advance_stop _ (Or.inr (by simp [hproduce]))]
    have hmerge := mergeBack_free { rb with consume := 1 } (l := [])
      (s := g) (i := 1) (by simpa using hitems) rfl
    rw [hmerge]
    refine ⟨.linear [] [] (g + f) (by simp) (fun _ => rfl) (by simp) (by simp) (by simp [hproduce]), rfl, rfl, ?_⟩
    simp [hitems]
  | cons y a =>
    have husedy : ({ rb with consume := 1 } : CRingBufferBase α).isFree 1 = false :=
      isFree_eq (l := [⟨g, none⟩]) (x := ⟨y.1, some y.2⟩)
        (by simpa using hitems) rfl
    rw [advance_stop _ (Or.inl husedy), mergeBack_used husedy]
    exact ⟨.linear [g] (y :: a) f (by simp) (by simp) (by simpa using hitems) rfl hproduce, rfl, rfl, rfl⟩

/-- The block that was freed is the one to be produced, or merged with it. -/
lemma catchUp_wrapped (rb : CRingBufferBase α) {g : ℕ} {f₂ : List ℕ} {a b : List (ℕ × α)}
    (hf₂ : f₂.length ≤ 1) (hitems : rb.items = used b ++ ⟨g, none⟩ :: (used a ++ free f₂))
    (hproduce : rb.produce = b.length) :
    Layout (rb.catchUp b.length) (a ++ b) ∧ SameMemory rb (rb.catchUp b.length) := by
  cases a with
  | cons y a =>
    have hnext : rb.nextBlock b.length = b.length + 1 := nextBlock_eq (by simp [hitems])
    have hused : ({ rb with consume := b.length + 1 } : CRingBufferBase α).isFree (b.length + 1) = false :=
      isFree_eq (l := used b ++ [⟨g, none⟩]) (x := ⟨y.1, some y.2⟩)
        (by simpa using hitems) (by simp)
    rw [catchUp, hnext, advance_stop _ (Or.inl hused), mergeBack_used hused]
    exact ⟨.wrapped b [g] (y :: a) f₂ (by simp) hf₂ (by simp) (by simpa using hitems) rfl hproduce,
      rfl, rfl, rfl⟩
  | nil =>
    -- the pointer goes past the end of the memory, where the queue goes on
    have hstart : ∀ (rb' : CRingBufferBase α) {g' : ℕ} (fuel : ℕ),
        rb'.items = used b ++ [⟨g', none⟩] → rb'.consume = 0 → rb'.produce = b.length →
        ((advance fuel rb').mergeBack (advance fuel rb').consume).1 = rb' ∧ Layout rb' b := by
      intro rb' g' fuel hitems' hconsume' hproduce'
      have hstop : rb'.isFree rb'.consume = false ∨ rb'.consume = rb'.produce := by
        cases b with
        | nil => exact Or.inr (by rw [hconsume', hproduce']; rfl)
        | cons y b =>
          left
          rw [hconsume']
          exact isFree_eq (l := []) (x := ⟨y.1, some y.2⟩)
            (by simpa using hitems') rfl
      rw [advance_stop fuel hstop, hconsume', mergeBack_zero]
      exact ⟨rfl, .linear [] b g' (by simp) (fun _ => rfl) (by simpa using hitems') hconsume' (by simpa using hproduce')⟩
    match f₂, hf₂ with
    | [], _ =>
      have hnext : rb.nextBlock b.length = 0 := nextBlock_last (by simp [hitems])
      obtain ⟨heq, hlayout⟩ := hstart { rb with consume := 0 } rb.items.length
        (by simpa using hitems) rfl hproduce
      rw [catchUp, hnext, heq]
      exact ⟨hlayout, rfl, rfl, rfl⟩
    | [h], _ =>
      have hnext : rb.nextBlock b.length = b.length + 1 := nextBlock_eq (by simp [hitems])
      have hlen : rb.items.length = b.length + 1 + 1 := by simp [hitems]
      have hfree : ({ rb with consume := b.length + 1 } : CRingBufferBase α).isFree (b.length + 1) = true :=
        isFree_eq (l := used b ++ [⟨g, none⟩]) (x := ⟨h, none⟩)
          (by simpa using hitems) (by simp)
      have hmerge := mergeBack_free { rb with consume := b.length + 1 }
        (s := g) (i := b.length + 1) (by simpa using hitems) (by simp)
      have hstep := advance_step (n := b.length + 1) hfree (by simp [hproduce]) hmerge
      rw [nextBlock_last (by simp)] at hstep
      obtain ⟨heq, hlayout⟩ := hstart { rb with
          items := used b ++ [⟨g + h, none⟩]
          produce := if b.length + 1 ≤ rb.produce then rb.produce - 1 else rb.produce
          consume := 0 } (b.length + 1) rfl rfl (by simp [hproduce])
      rw [catchUp, hnext, hlen, hstep, heq]
      exact ⟨hlayout, rfl, rfl, by simp [hitems]⟩

/-- `PopFirst` takes the first item off the queue. -/
theorem popFirst_spec {rb : CRingBufferBase α} {x : ℕ × α} {queue : List (ℕ × α)}
    (h : Holds rb (x :: queue)) :
    rb.popFirst.2 = true ∧ Holds rb.popFirst.1 queue ∧ SameMemory rb rb.popFirst.1 := by
  obtain ⟨hlayout, htotal⟩ := h
  -- it is enough to follow the layout
  suffices hmain : rb.popFirst.2 = true ∧ Layout rb.popFirst.1 queue ∧ SameMemory rb rb.popFirst.1 by
    obtain ⟨h1, h2, h3⟩ := hmain
    exact ⟨h1, ⟨h2, by rw [h3.2.2, h3.1, htotal]⟩, h3⟩
  generalize hfull : x :: queue = full at hlayout
  cases hlayout with
  | linear f₁ a f₂ hf₁ ha hitems hconsume hproduce =>
    subst hfull
    have hsplit : rb.items = free f₁ ++ ⟨x.1, some x.2⟩ :: (used queue ++ [⟨f₂, none⟩]) := by
      simpa using hitems
    have hitem := item_eq hsplit (i := rb.consume) (by simpa using hconsume)
    have hused : rb.isFree rb.consume = false := isFree_eq hsplit (by simpa using hconsume)
    have hset : rb.items.set rb.consume ⟨x.1, none⟩ =
        free f₁ ++ (⟨x.1, none⟩ : CItem α) :: (used queue ++ [⟨f₂, none⟩]) := by
      rw [hsplit, hconsume, List.set_append_right _ _ (by simp)]
      simp
    rw [popFirst, hused]
    simp only [Bool.false_eq_true, if_false, hitem, hset, true_and]
    match f₁, hf₁ with
    | [], _ =>
      rw [hconsume, List.length_nil, mergeBack_zero]
      obtain ⟨h1, h2, h3, h4⟩ := catchUp_linear { rb with
          items := ⟨x.1, none⟩ :: (used queue ++ [⟨f₂, none⟩]), consume := 0 } (g := x.1) (f := f₂)
        (a := queue) rfl (by simpa [Nat.add_comm] using hproduce)
      exact ⟨h1, h2, h3, h4.trans (by simp [hsplit])⟩
    | [f], _ =>
      rw [List.length_singleton] at hconsume
      rw [hconsume]
      have hmerge := mergeBack_free { rb with
          items := free [f] ++ (⟨x.1, none⟩ : CItem α) :: (used queue ++ [⟨f₂, none⟩]), consume := 1 }
        (l := []) (s := f) (i := 1) rfl rfl
      rw [hmerge]
      rw [List.length_singleton, List.length_cons] at hproduce
      have hpred : (if 1 ≤ rb.produce then rb.produce - 1 else rb.produce) = 1 + queue.length := by
        split_ifs <;> omega
      obtain ⟨h1, h2, h3, h4⟩ := catchUp_linear { rb with
          items := [] ++ ⟨f + x.1, none⟩ :: (used queue ++ [⟨f₂, none⟩])
          produce := if 1 ≤ rb.produce then rb.produce - 1 else rb.produce
          consume := if 1 ≤ 1 then 1 - 1 else 1 } (g := f + x.1) (f := f₂) (a := queue) rfl hpred
      exact ⟨h1, h2, h3, h4.trans (by simp [hsplit, Nat.add_assoc])⟩
  | wrapped b f₁ a f₂ hf₁ hf₂ ha hitems hconsume hproduce =>
    cases a with
    | nil => exact absurd rfl ha
    | cons y a =>
      obtain ⟨rfl, rfl⟩ := List.cons_eq_cons.1 hfull
      have hsplit : rb.items = (used b ++ free f₁) ++ ⟨x.1, some x.2⟩ :: (used a ++ free f₂) := by
        simpa using hitems
      have hindex : rb.consume = (used b ++ free f₁).length := by simpa using hconsume
      have hitem := item_eq hsplit hindex
      have hused : rb.isFree rb.consume = false := isFree_eq hsplit hindex
      have hset : rb.items.set rb.consume ⟨x.1, none⟩ =
          (used b ++ free f₁) ++ (⟨x.1, none⟩ : CItem α) :: (used a ++ free f₂) := by
        rw [hsplit, hindex, List.set_append_right _ _ le_rfl]
        simp
      rw [popFirst, hused]
      simp only [Bool.false_eq_true, if_false, hitem, hset, true_and]
      match f₁, hf₁ with
      | [], _ =>
        -- the block in front of it is in use, or it is the first one
        have hkeep : (({ rb with items := (used b ++ free []) ++ (⟨x.1, none⟩ : CItem α) ::
            (used a ++ free f₂) } : CRingBufferBase α).mergeBack rb.consume) =
            ({ rb with items := (used b ++ free []) ++ (⟨x.1, none⟩ : CItem α) ::
              (used a ++ free f₂) }, b.length) := by
          rw [List.length_nil, Nat.add_zero] at hconsume
          rw [hconsume]
          rcases List.eq_nil_or_concat b with rfl | ⟨b', z, rfl⟩
          · exact mergeBack_zero _
          · refine mergeBack_prev_used (isFree_eq (l := used b') (x := ⟨z.1, some z.2⟩)
              (r := ⟨x.1, none⟩ :: (used a ++ free f₂)) ?_ (by simp))
            simp [used_append]
        rw [hkeep]
        obtain ⟨h1, h2, h3, h4⟩ := catchUp_wrapped { rb with
            items := (used b ++ free []) ++ (⟨x.1, none⟩ : CItem α) :: (used a ++ free f₂) }
          (g := x.1) (a := a) hf₂ (by simp) hproduce
        exact ⟨h1, h2, h3, h4.trans (by simp [hsplit])⟩
      | [f], _ =>
        have hmerge := mergeBack_free { rb with
            items := (used b ++ free [f]) ++ (⟨x.1, none⟩ : CItem α) :: (used a ++ free f₂) }
          (l := used b) (r := used a ++ free f₂) (s := f) (t := x.1) (i := rb.consume)
          (by simp) (by simpa using hconsume)
        rw [hmerge, length_used]
        have hpred : (if rb.consume ≤ rb.produce then rb.produce - 1 else rb.produce) = b.length := by
          rw [List.length_singleton] at hconsume
          split_ifs <;> omega
        obtain ⟨h1, h2, h3, h4⟩ := catchUp_wrapped { rb with
            items := used b ++ ⟨f + x.1, none⟩ :: (used a ++ free f₂)
            produce := if rb.consume ≤ rb.produce then rb.produce - 1 else rb.produce
            consume := if rb.consume ≤ rb.consume then rb.consume - 1 else rb.consume }
          (g := f + x.1) hf₂ rfl hpred
        exact ⟨h1, h2, h3, h4.trans (by simp [hsplit, Nat.add_assoc])⟩

lemma popFirst_nil {rb : CRingBufferBase α} (h : Holds rb []) : rb.popFirst = (rb, false) := by
  obtain ⟨hlayout, -⟩ := h
  generalize hnil : ([] : List (ℕ × α)) = queue at hlayout
  cases hlayout with
  | linear f₁ a f₂ hf₁ ha hitems hconsume hproduce =>
    subst hnil
    rw [ha rfl] at hitems hconsume
    have hfree : rb.isFree rb.consume = true :=
      isFree_eq (l := []) (x := ⟨f₂, none⟩) (by simpa using hitems) hconsume
    rw [popFirst, hfree, if_pos rfl]
  | wrapped b f₁ a f₂ hf₁ hf₂ ha hitems hconsume hproduce =>
    exact absurd (List.append_eq_nil_iff.1 hnil.symm).1 ha

/-! ### Appending an item -/

/-- The block is used up to a free rest, if there is one. -/
lemma place_spec {rb : CRingBufferBase α} {l r : List (CItem α)} {f i wanted : ℕ}
    (h : rb.items = l ++ ⟨f, none⟩ :: r) (hblock : i = l.length) (hfits : wanted ≤ f) (x : α) :
    ∃ (s : ℕ) (rest : List ℕ), wanted ≤ s ∧ s + rest.sum = f ∧ rest.length ≤ 1 ∧
      (rb.place i wanted x).items = l ++ ⟨s, some x⟩ :: (free rest ++ r) ∧
      (rb.place i wanted x).consume =
        (if i < rb.consume then rb.consume + rest.length else rb.consume) ∧
      (rb.place i wanted x).produce = (if rest.length + r.length = 0 then 0 else i + 1) ∧
      (rb.place i wanted x).size = rb.size ∧ (rb.place i wanted x).recycle = rb.recycle := by
  have hitem : rb.item i = ⟨f, none⟩ := item_eq h hblock
  by_cases hsplit : f > wanted + itemSize
  · have hitems : (rb.place i wanted x).items = l ++ ⟨wanted, some x⟩ :: (free [f - wanted] ++ r) := by
      have hdrop : rb.items.drop (i + 1) = r := by
        rw [h, hblock, List.drop_append]
        simp
      have htake : rb.items.take i = l := by
        rw [h, hblock]
        simp
      simp only [place, hitem, hsplit, decide_true, if_true, hdrop, htake, free_cons, free_nil,
        List.cons_append, List.nil_append]
    refine ⟨wanted, [f - wanted], le_rfl, by simp; omega, by simp, hitems, ?_, ?_, rfl, rfl⟩
    · simp only [place, hitem, hsplit, decide_true, Bool.true_and, decide_eq_true_eq, List.length_singleton]
    · have hnext : (rb.place i wanted x).nextBlock i = i + 1 := nextBlock_eq (by
        rw [hitems, hblock]
        simp)
      rw [if_neg (by simp)]
      exact hnext
  · have hitems : (rb.place i wanted x).items = l ++ ⟨f, some x⟩ :: (free [] ++ r) := by
      have hset : rb.items.set i ⟨f, some x⟩ = l ++ ⟨f, some x⟩ :: r := by
        rw [h, hblock, List.set_append_right _ _ le_rfl]
        simp
      simp only [place, hitem, hsplit, if_false, hset, free_nil, List.nil_append]
    refine ⟨f, [], hfits, by simp, by simp, hitems, ?_, ?_, rfl, rfl⟩
    · simp [place, hitem, hsplit]
    · have hlen : (rb.place i wanted x).items.length = i + 1 + r.length := by
        rw [hitems, hblock]
        simp
        omega
      have hproduce : (rb.place i wanted x).produce = (rb.place i wanted x).nextBlock i := rfl
      rw [hproduce, nextBlock, hlen]
      simp only [List.length_nil, Nat.zero_add]
      split_ifs <;> omega

/-- An item put into a block that `Allocate` finds is the last one of the queue. -/
lemma place_holds {rb : CRingBufferBase α} {queue : List (ℕ × α)} {block wanted : ℕ} (h : Holds rb queue)
    (hfind : rb.findBlock wanted = some block) (x : α) :
    ∃ s, wanted ≤ s ∧ Holds (rb.place block wanted x) (queue ++ [(s, x)]) ∧
      SameMemory rb (rb.place block wanted x) := by
  obtain ⟨hlayout, htotal⟩ := h
  suffices hmain : ∃ s, wanted ≤ s ∧ Layout (rb.place block wanted x) (queue ++ [(s, x)]) ∧
      SameMemory rb (rb.place block wanted x) by
    obtain ⟨s, h1, h2, h3⟩ := hmain
    exact ⟨s, h1, ⟨h2, by rw [h3.2.2, h3.1, htotal]⟩, h3⟩
  rw [findBlock] at hfind
  by_cases hfree : rb.isFree rb.produce
  · rw [if_pos hfree] at hfind
    cases hlayout with
    | linear f₁ a f₂ hf₁ ha hitems hconsume hproduce =>
      have hindex : rb.produce = (free f₁ ++ used queue : List (CItem α)).length := by simpa using hproduce
      have hitem : rb.item rb.produce = ⟨f₂, none⟩ := item_eq hitems hindex
      rw [hitem] at hfind
      by_cases hfits : wanted ≤ f₂
      · rw [if_pos hfits] at hfind
        obtain rfl : rb.produce = block := by simpa using hfind
        obtain ⟨s, rest, hs, hsum, hrest, hitems', hconsume', hproduce', hsize, hrecycle⟩ :=
          place_spec hitems hindex hfits x
        refine ⟨s, hs, ?_, hsize, hrecycle, by rw [hitems', hitems]; simp; omega⟩
        rw [if_neg (by omega)] at hconsume'
        match rest, hrest with
        | [], _ =>
          rw [show queue ++ [(s, x)] = (queue ++ [(s, x)]) ++ [] by simp]
          exact .wrapped [] f₁ (queue ++ [(s, x)]) [] hf₁ (by simp) (by simp)
            (by rw [hitems']; simp [used_append]) (by rw [hconsume', hconsume]; simp) (by simpa using hproduce')
        | [r], _ =>
          refine .linear f₁ (queue ++ [(s, x)]) r hf₁ (by simp) (by rw [hitems']; simp [used_append])
            (by rw [hconsume', hconsume]) ?_
          rw [hproduce', if_neg (by simp), hproduce]
          simp [Nat.add_assoc]
      · rw [if_neg hfits] at hfind
        match f₁, hf₁ with
        | [], _ =>
          -- the first block is the one that is too small, or it is in use
          exfalso
          cases queue with
          | nil =>
            have hitem0 : rb.item 0 = ⟨f₂, none⟩ := item_eq (l := []) (by simpa using hitems) rfl
            simp [hitem0, hfits] at hfind
          | cons y queue =>
            have hused0 : rb.isFree 0 = false :=
              isFree_eq (l := []) (x := ⟨y.1, some y.2⟩)
                (by simpa using hitems) rfl
            simp [hused0] at hfind
        | [f], _ =>
          have hsplit : rb.items = [] ++ ⟨f, none⟩ :: (used queue ++ [⟨f₂, none⟩]) := by simpa using hitems
          have hitem0 : rb.item 0 = ⟨f, none⟩ := item_eq hsplit rfl
          have hfree0 : rb.isFree 0 = true := isFree_eq hsplit rfl
          rw [hitem0, hfree0] at hfind
          simp only [Bool.true_and, decide_eq_true_eq] at hfind
          split_ifs at hfind with hfits0
          · obtain rfl : 0 = block := by simpa using hfind
            obtain ⟨s, rest, hs, hsum, hrest, hitems', hconsume', hproduce', hsize, hrecycle⟩ :=
              place_spec (i := 0) hsplit rfl hfits0 x
            have hne : queue ≠ [] := fun h => absurd (ha h) (by simp)
            refine ⟨s, hs, ?_, hsize, hrecycle, by rw [hitems', hitems]; simp; omega⟩
            refine .wrapped [(s, x)] rest queue [f₂] hrest (by simp) hne
              (by rw [hitems']; simp) ?_ ?_
            · rw [hconsume', hconsume]
              simp
            · rw [hproduce', if_neg (by simp)]
              simp
    | wrapped b f₁ a f₂ hf₁ hf₂ ha hitems hconsume hproduce =>
      match f₁, hf₁ with
      | [], _ =>
        -- the block to be produced is in use
        exfalso
        cases a with
        | nil => exact ha rfl
        | cons y a =>
          have hused : rb.isFree rb.produce = false :=
            isFree_eq (x := ⟨y.1, some y.2⟩)
              (by simpa using hitems) (by simpa using hproduce)
          simp [hused] at hfree
      | [f], _ =>
        have hsplit : rb.items = used b ++ ⟨f, none⟩ :: (used a ++ free f₂) := by simpa using hitems
        have hitem : rb.item rb.produce = ⟨f, none⟩ := item_eq hsplit (by simpa using hproduce)
        rw [hitem] at hfind
        by_cases hfits : wanted ≤ f
        · rw [if_pos hfits] at hfind
          obtain rfl : rb.produce = block := by simpa using hfind
          obtain ⟨s, rest, hs, hsum, hrest, hitems', hconsume', hproduce', hsize, hrecycle⟩ :=
            place_spec hsplit (by simpa using hproduce) hfits x
          refine ⟨s, hs, ?_, hsize, hrecycle, by rw [hitems', hitems]; simp; omega⟩
          rw [List.append_assoc]
          refine .wrapped (b ++ [(s, x)]) rest a f₂ hrest hf₂ ha (by rw [hitems']; simp [used_append]) ?_ ?_
          · rw [List.length_singleton] at hconsume
            rw [hconsume', if_pos (by omega), hconsume]
            simp
          · have hlen : a.length ≠ 0 := by simpa using ha
            rw [hproduce', if_neg (by simp [ha]), hproduce]
            simp
        · exfalso
          rw [if_neg hfits] at hfind
          cases b with
          | nil =>
            have hitem0 : rb.item 0 = ⟨f, none⟩ := item_eq hsplit rfl
            simp [hitem0, hfits] at hfind
          | cons y b =>
            have hused0 : rb.isFree 0 = false :=
              isFree_eq (l := []) (x := ⟨y.1, some y.2⟩)
                (by simpa using hsplit) rfl
            simp [hused0] at hfind
  · rw [if_neg hfree] at hfind
    exact absurd hfind (by simp)

/-- Making room takes items off the front of the queue, and none without the flag. -/
lemma reserve_spec {rb : CRingBufferBase α} {queue : List (ℕ × α)} (wanted fuel : ℕ) (h : Holds rb queue) :
    ∃ popped rest, queue = popped ++ rest ∧ Holds (rb.reserve wanted fuel).1 rest ∧
      SameMemory rb (rb.reserve wanted fuel).1 ∧
      (rb.recycle = false → (rb.reserve wanted fuel).1 = rb ∧ popped = []) ∧
      ∀ block, (rb.reserve wanted fuel).2 = some block →
        (rb.reserve wanted fuel).1.findBlock wanted = some block := by
  induction fuel generalizing rb queue with
  | zero => exact ⟨[], queue, rfl, h, ⟨rfl, rfl, rfl⟩, fun _ => ⟨rfl, rfl⟩, by simp [reserve]⟩
  | succ fuel ih =>
    rw [reserve]
    rcases hfind : rb.findBlock wanted with _ | block
    · rcases hrecycle : rb.recycle with _ | _
      · exact ⟨[], queue, rfl, h, ⟨rfl, rfl, rfl⟩, fun _ => ⟨rfl, rfl⟩, by simp⟩
      · cases queue with
        | nil =>
          rw [popFirst_nil h]
          exact ⟨[], [], rfl, h, ⟨rfl, rfl, rfl⟩, by simp, by simp⟩
        | cons x queue =>
          obtain ⟨hok, hholds, hsame⟩ := popFirst_spec h
          rcases hpop : rb.popFirst with ⟨rb', ok⟩
          rw [hpop] at hok hholds hsame
          simp only at hok hholds hsame
          subst hok
          obtain ⟨popped, rest, rfl, hrest, hsame', -, hblock⟩ := ih hholds
          refine ⟨x :: popped, rest, rfl, hrest, ?_, by simp, hblock⟩
          exact ⟨hsame'.1.trans hsame.1, hsame'.2.1.trans hsame.2.1, hsame'.2.2.trans hsame.2.2⟩
    · refine ⟨[], queue, rfl, h, ⟨rfl, rfl, rfl⟩, fun _ => ⟨rfl, rfl⟩, ?_⟩
      intro block' hblock'
      obtain rfl : block = block' := by simpa using hblock'
      exact hfind

/-- `Allocate` appends the item to the queue, in a block that is large enough, or fails and
leaves the queue as it is.  (With `FLAG_RECYCLE` it takes items off the front before.) -/
theorem allocate_spec {rb : CRingBufferBase α} {queue : List (ℕ × α)} (h : Holds rb queue) (size : ℕ) (x : α) :
    ∃ popped rest, queue = popped ++ rest ∧ (rb.recycle = false → popped = []) ∧
      SameMemory rb (rb.allocate size x).1 ∧
      ((rb.allocate size x).2 = true →
        ∃ s, wantedSize size ≤ s ∧ Holds (rb.allocate size x).1 (rest ++ [(s, x)])) ∧
      ((rb.allocate size x).2 = false →
        Holds (rb.allocate size x).1 rest ∧ (rb.recycle = false → (rb.allocate size x).1 = rb)) := by
  rw [allocate]
  by_cases hsize : wantedSize size > rb.size
  · rw [if_pos hsize]
    exact ⟨[], queue, rfl, fun _ => rfl, ⟨rfl, rfl, rfl⟩, by simp, fun _ => ⟨h, fun _ => rfl⟩⟩
  · rw [if_neg hsize]
    obtain ⟨popped, rest, hqueue, hholds, hsame, hkeep, hfind⟩ :=
      reserve_spec (wantedSize size) (rb.items.length + 1) h
    rcases hres : rb.reserve (wantedSize size) (rb.items.length + 1) with ⟨rb', _ | block⟩
    · rw [hres] at hholds hsame hkeep
      exact ⟨popped, rest, hqueue, fun hr => (hkeep hr).2, hsame, by simp,
        fun _ => ⟨hholds, fun hr => (hkeep hr).1⟩⟩
    · rw [hres] at hholds hsame hkeep hfind
      obtain ⟨s, hs, hplace, hsame'⟩ := place_holds hholds (hfind block rfl) x
      refine ⟨popped, rest, hqueue, fun hr => (hkeep hr).2, ?_, fun _ => ⟨s, hs, hplace⟩, by simp⟩
      exact ⟨hsame'.1.trans hsame.1, hsame'.2.1.trans hsame.2.1, hsame'.2.2.trans hsame.2.2⟩

/-- The buffer after `Init` is empty. -/
lemma init_holds (memory : ℕ) (recycle : Bool) : Holds (init memory recycle : CRingBufferBase α) [] :=
  ⟨.linear [] [] (memory / itemSize * itemSize) (by simp) (fun _ => rfl) rfl rfl rfl, by simp [init]⟩

/-- The blocks of the queue fit the memory. -/
lemma Holds.sum_le {rb : CRingBufferBase α} {queue : List (ℕ × α)} (h : Holds rb queue) :
    (queue.map Prod.fst).sum ≤ rb.size := by
  obtain ⟨hlayout, htotal⟩ := h
  rw [← htotal]
  cases hlayout with
  | linear f₁ a f₂ hf₁ ha hitems hconsume hproduce =>
    rw [hitems]
    simp
    omega
  | wrapped b f₁ a f₂ hf₁ hf₂ ha hitems hconsume hproduce =>
    rw [hitems]
    simp
    omega

/-- There are no more items than blocks. -/
lemma Holds.length_le {rb : CRingBufferBase α} {queue : List (ℕ × α)} (h : Holds rb queue) :
    queue.length ≤ rb.items.length := by
  obtain ⟨hlayout, -⟩ := h
  cases hlayout with
  | linear f₁ a f₂ hf₁ ha hitems hconsume hproduce =>
    rw [hitems]
    simp
    omega
  | wrapped b f₁ a f₂ hf₁ hf₂ ha hitems hconsume hproduce =>
    rw [hitems]
    simp
    omega

/-! ### Reading the queue -/

lemma isFree_used {rb : CRingBufferBase α} {l r : List (CItem α)} {queue : List (ℕ × α)} {i : ℕ}
    (h : rb.items = l ++ used queue ++ r) (hlo : l.length ≤ i) (hhi : i < l.length + queue.length) :
    rb.isFree i = false := by
  obtain ⟨k, rfl⟩ : ∃ k, i = l.length + k := ⟨i - l.length, by omega⟩
  have hk : k < queue.length := by omega
  have hsplit : rb.items = (l ++ used (queue.take k)) ++
      ⟨queue[k].1, some queue[k].2⟩ :: (used (queue.drop (k + 1)) ++ r) := by
    have hqueue : used queue = used (queue.take k) ++
        ⟨queue[k].1, some queue[k].2⟩ :: used (queue.drop (k + 1)) := by
      rw [← used_cons, ← used_append, ← List.drop_eq_getElem_cons hk, List.take_append_drop]
    rw [h, hqueue]
    simp
  exact isFree_eq hsplit (by simp [hk.le])

lemma next_used {rb : CRingBufferBase α} {fuel i : ℕ} (hne : rb.nextBlock i ≠ rb.produce)
    (hused : rb.isFree (rb.nextBlock i) = false) : rb.next (fuel + 1) i = some (rb.nextBlock i) := by
  rw [next]
  simp [hne, hused]

lemma next_produce {rb : CRingBufferBase α} {fuel i : ℕ} (h : rb.nextBlock i = rb.produce) :
    rb.next fuel i = none := by
  cases fuel with
  | zero => rfl
  | succ fuel =>
    rw [next]
    simp [h]

/-- Going through a row of blocks in use, and on from the last of them. -/
lemma visit_used {rb : CRingBufferBase α} {n : ℕ} (hlen : rb.items.length = n + 1) {i k m : ℕ}
    (hused : ∀ j, i ≤ j → j < i + (k + 1) → rb.isFree j = false)
    (hbound : i + (k + 1) ≤ rb.items.length)
    (hproduce : ∀ j, i < j → j < i + (k + 1) → j ≠ rb.produce) :
    rb.visit (k + 1 + m) (some i) =
      List.range' i (k + 1) ++ rb.visit m (rb.next rb.items.length (i + k)) := by
  induction k generalizing i with
  | zero => simp [visit, Nat.add_comm 1 m]
  | succ k ih =>
    have hnext : rb.next rb.items.length i = some (i + 1) := by
      have hn : rb.nextBlock i = i + 1 := nextBlock_eq (by omega)
      rw [hlen, next_used (by rw [hn]; exact hproduce _ (by omega) (by omega))
        (by rw [hn]; exact hused _ (by omega) (by omega)), hn]
    rw [show k + 1 + 1 + m = (k + 1 + m) + 1 by omega, visit, hnext,
      ih (fun j h1 h2 => hused j (by omega) (by omega)) (by omega)
        (fun j h1 h2 => hproduce j (by omega) (by omega)), show i + 1 + k = i + (k + 1) by omega]
    rfl

lemma visit_none (rb : CRingBufferBase α) (fuel : ℕ) : rb.visit fuel none = [] := by
  cases fuel <;> rfl

/-- What a row of blocks in use holds. -/
lemma filterMap_used {rb : CRingBufferBase α} {l r : List (CItem α)} {q : List (ℕ × α)}
    (h : rb.items = l ++ used q ++ r) :
    (List.range' l.length q.length).filterMap (fun i => (rb.item i).value) = q.map Prod.snd := by
  induction q generalizing l with
  | nil => rfl
  | cons x q ih =>
    have hitem : rb.item l.length = ⟨x.1, some x.2⟩ :=
      item_eq (by simpa using h) rfl
    have htail := ih (l := l ++ [⟨x.1, some x.2⟩]) (by simpa using h)
    rw [List.length_append, List.length_singleton] at htail
    rw [List.length_cons, List.range'_succ, List.filterMap_cons, hitem]
    simp only [htail, List.map_cons]

/-- `First` and `Next` go through the queue in its order. -/
theorem values_eq {rb : CRingBufferBase α} {queue : List (ℕ × α)} (h : Holds rb queue) :
    rb.values = queue.map Prod.snd := by
  obtain ⟨hlayout, -⟩ := h
  cases hlayout with
  | linear f₁ a f₂ hf₁ ha hitems hconsume hproduce =>
    have hlen : rb.items.length = f₁.length + queue.length + 1 := by
      simp [hitems]
      omega
    cases queue with
    | nil =>
      have hfree : rb.isFree rb.consume = true := by
        rw [ha rfl] at hitems hconsume
        exact isFree_eq (l := []) (x := ⟨f₂, none⟩) (by simpa using hitems) hconsume
      rw [values, blocks, first, hfree, if_pos rfl, visit_none]
      rfl
    | cons x queue =>
      have husedall : ∀ j, f₁.length ≤ j → j < f₁.length + (queue.length + 1) → rb.isFree j = false :=
        fun j h1 h2 => isFree_used hitems (by simpa using h1) (by simpa using h2)
      have hfirst : rb.first = some f₁.length := by
        rw [first, hconsume, husedall _ le_rfl (by omega)]
        rfl
      rw [List.length_cons] at hlen hproduce
      have hnone : rb.next rb.items.length (f₁.length + queue.length) = none :=
        next_produce (by rw [nextBlock_eq (by omega)]; omega)
      have hfuel : rb.items.length = queue.length + 1 + (f₁.length + 1) := by omega
      have hvisit := visit_used (m := f₁.length + 1) hlen husedall (by omega)
        (fun j h1 h2 => by omega)
      rw [← hfuel, hnone, visit_none, List.append_nil] at hvisit
      rw [values, blocks, hfirst, hvisit]
      have hfilter := filterMap_used hitems
      rwa [length_free, List.length_cons] at hfilter
  | wrapped b f₁ a f₂ hf₁ hf₂ ha hitems hconsume hproduce =>
    cases a with
    | nil => exact absurd rfl ha
    | cons x a =>
      have hlen : rb.items.length = b.length + f₁.length + (a.length + 1) + f₂.length := by
        simp [hitems]
        omega
      have hstart : (used b ++ free f₁ : List (CItem α)).length = b.length + f₁.length := by simp
      have husedall : ∀ j, b.length + f₁.length ≤ j → j < b.length + f₁.length + (a.length + 1) →
          rb.isFree j = false := fun j h1 h2 =>
        isFree_used hitems (by simpa using h1) (by simpa using h2)
      have husedb : ∀ j, j < b.length → rb.isFree j = false := fun j hj =>
        isFree_used (l := []) (by simpa using hitems)
          (Nat.zero_le _) (by simpa using hj)
      have hfirst : rb.first = some (b.length + f₁.length) := by
        rw [first, hconsume, husedall _ le_rfl (by omega)]
        rfl
      have hvisit := visit_used (m := b.length + f₁.length + f₂.length) (i := b.length + f₁.length)
        (k := a.length) (n := b.length + f₁.length + a.length + f₂.length) (by omega) husedall
        (by omega) (fun j h1 h2 => by omega)
      rw [show a.length + 1 + (b.length + f₁.length + f₂.length) = rb.items.length by omega] at hvisit
      have hfilter := filterMap_used hitems
      rw [hstart, List.length_cons] at hfilter
      -- behind the last block of the first row the queue goes on at the start
      have hwrap : rb.next rb.items.length (b.length + f₁.length + a.length) =
          if b = [] then none else some 0 := by
        have hzero : ∀ fuel i, rb.nextBlock i = 0 →
            rb.next (fuel + 1) i = if b = [] then none else some 0 := by
          intro fuel i hi
          by_cases hb : b = []
          · rw [if_pos hb, next_produce (by rw [hi, hproduce, hb]; rfl)]
          · have hpos : 0 < b.length := List.length_pos_iff.2 hb
            rw [if_neg hb, next_used (by rw [hi]; omega) (by rw [hi]; exact husedb 0 hpos), hi]
        match f₂, hf₂ with
        | [], _ =>
          rw [hlen]
          exact hzero _ _ (nextBlock_last (by rw [hlen, List.length_nil]; omega))
        | [g], _ =>
          have hnext : rb.nextBlock (b.length + f₁.length + a.length) =
              b.length + f₁.length + (a.length + 1) := nextBlock_eq (by rw [hlen, List.length_singleton]; omega)
          have hfree : rb.isFree (b.length + f₁.length + (a.length + 1)) = true :=
            isFree_eq (l := used b ++ free f₁ ++ used (x :: a)) (x := ⟨g, none⟩)
              (by simpa using hitems) (by simp; omega)
          rw [hlen, List.length_singleton, show b.length + f₁.length + (a.length + 1) + 1 =
            (b.length + f₁.length + a.length + 1) + 1 by omega, next, hnext]
          simp only [hfree, Bool.not_true, Bool.false_eq_true, if_false]
          rw [if_neg (by omega)]
          exact hzero _ _ (nextBlock_last (by rw [hlen]; exact Nat.lt_succ_self _))
      rw [values, blocks, hfirst, hvisit, hwrap, List.filterMap_append, hfilter, List.map_append]
      congr 1
      cases b with
      | nil => rw [if_pos rfl, visit_none]; rfl
      | cons y b =>
        rw [if_neg (by simp)]
        have hvisitb := visit_used (m := f₁.length + f₂.length) (i := 0) (k := b.length)
          (n := b.length + 1 + f₁.length + a.length + f₂.length)
          (by rw [List.length_cons] at hlen; omega)
          (fun j _ h2 => husedb j (by rw [List.length_cons]; omega)) (by rw [List.length_cons] at hlen; omega)
          (fun j h1 h2 => by rw [List.length_cons] at hproduce; omega)
        have hnone : rb.next rb.items.length (0 + b.length) = none :=
          next_produce (by
            rw [nextBlock_eq (by rw [List.length_cons] at hlen; omega), hproduce, List.length_cons]
            omega)
        rw [hnone, visit_none, List.append_nil] at hvisitb
        rw [List.length_cons, show b.length + 1 + f₁.length + f₂.length =
          b.length + 1 + (f₁.length + f₂.length) by omega, hvisitb]
        have hfilterb := filterMap_used (l := []) (q := y :: b)
          (by simpa using hitems)
        exact hfilterb

/-- The first item of the queue is the one that `First` points to. -/
lemma first_spec {rb : CRingBufferBase α} {queue : List (ℕ × α)} (h : Holds rb queue) :
    rb.first.bind (fun i => (rb.item i).value) = queue.head?.map Prod.snd := by
  obtain ⟨hlayout, -⟩ := h
  cases hlayout with
  | linear f₁ a f₂ hf₁ ha hitems hconsume hproduce =>
    cases queue with
    | nil =>
      rw [ha rfl] at hitems hconsume
      have hfree : rb.isFree rb.consume = true :=
        isFree_eq (l := []) (x := ⟨f₂, none⟩) (by simpa using hitems) hconsume
      rw [first, hfree]
      rfl
    | cons x queue =>
      have hitem : rb.item rb.consume = ⟨x.1, some x.2⟩ :=
        item_eq (by simpa using hitems)
          (by simpa using hconsume)
      rw [first, isFree, hitem]
      simp [hitem]
  | wrapped b f₁ a f₂ hf₁ hf₂ ha hitems hconsume hproduce =>
    cases a with
    | nil => exact absurd rfl ha
    | cons x a =>
      have hitem : rb.item rb.consume = ⟨x.1, some x.2⟩ :=
        item_eq (l := used b ++ free f₁) (by simpa using hitems)
          (by simpa using hconsume)
      rw [first, isFree, hitem]
      simp [hitem]

/-! ### Changing items in place -/

lemma map_free (f : α → α) (sizes : List ℕ) :
    (free sizes : List (CItem α)).map (fun x => { x with value := x.value.map f }) = free sizes := by
  simp [free, Function.comp_def]

lemma map_used (f : α → α) (queue : List (ℕ × α)) :
    (used queue).map (fun x => { x with value := x.value.map f }) =
      used (queue.map fun x => (x.1, f x.2)) := by
  simp [used, Function.comp_def]

lemma mapValues_holds {rb : CRingBufferBase α} {queue : List (ℕ × α)} (h : Holds rb queue) (f : α → α) :
    Holds (rb.mapValues f) (queue.map fun x => (x.1, f x.2)) := by
  obtain ⟨hlayout, htotal⟩ := h
  refine ⟨?_, by simpa [mapValues, Function.comp_def] using htotal⟩
  cases hlayout with
  | linear f₁ a f₂ hf₁ ha hitems hconsume hproduce =>
    refine .linear f₁ _ f₂ hf₁ (fun hnil => ha (List.map_eq_nil_iff.1 hnil)) ?_ hconsume
      (by rw [List.length_map]; exact hproduce)
    simp only [mapValues, hitems, List.map_append, map_free, map_used]
  | wrapped b f₁ a f₂ hf₁ hf₂ ha hitems hconsume hproduce =>
    rw [List.map_append]
    refine .wrapped _ f₁ _ f₂ hf₁ hf₂ (by simpa using ha) ?_ (by rw [List.length_map]; exact hconsume)
      (by rw [List.length_map]; exact hproduce)
    simp only [mapValues, hitems, List.map_append, map_free, map_used]

lemma mapFirst_items {rb : CRingBufferBase α} {l r : List (CItem α)} {x : ℕ × α}
    (h : rb.items = l ++ ⟨x.1, some x.2⟩ :: r) (hconsume : rb.consume = l.length) (f : α → α) :
    (rb.mapFirst f).items = l ++ ⟨x.1, some (f x.2)⟩ :: r := by
  simp only [mapFirst, h, hconsume]
  rw [List.modify_eq_take_cons_drop (by simp)]
  simp

lemma mapFirst_holds {rb : CRingBufferBase α} {x : ℕ × α} {queue : List (ℕ × α)} (h : Holds rb (x :: queue))
    (f : α → α) : Holds (rb.mapFirst f) ((x.1, f x.2) :: queue) := by
  obtain ⟨hlayout, htotal⟩ := h
  generalize hfull : x :: queue = full at hlayout
  cases hlayout with
  | linear f₁ a f₂ hf₁ ha hitems hconsume hproduce =>
    subst hfull
    have hmap := mapFirst_items (x := x)
      (by simpa using hitems) (by simpa using hconsume) f
    refine ⟨.linear f₁ _ f₂ hf₁ (by simp) (by simpa using hmap) hconsume hproduce, ?_⟩
    rw [hmap, ← show rb.size = (rb.mapFirst f).size from rfl, ← htotal, hitems]
    simp
  | wrapped b f₁ a f₂ hf₁ hf₂ ha hitems hconsume hproduce =>
    cases a with
    | nil => exact absurd rfl ha
    | cons y a =>
      obtain ⟨rfl, rfl⟩ := List.cons_eq_cons.1 hfull
      have hmap := mapFirst_items (l := used b ++ free f₁) (x := x)
        (by simpa using hitems) (by simpa using hconsume) f
      refine ⟨.wrapped b f₁ ((x.1, f x.2) :: a) f₂ hf₁ hf₂ (by simp) (by simpa using hmap) hconsume
        hproduce, ?_⟩
      rw [hmap, ← show rb.size = (rb.mapFirst f).size from rfl, ← htotal, hitems]
      simp

end CRingBufferBase

end DDNet
