/-
The ring buffer in memory.

`Shared/RingBuffer.lean` describes the blocks as a list.  Here they are what the code has: headers that lie in the memory
given to `Init` and point to each other, with the bytes of the items behind them.  Addresses count from the start of that
memory.  Storing a header makes the bytes under it no bytes of an item, and storing bytes destroys the headers they
overlap; reading a header that is not there and storing outside of the memory is undefined.

The functions return `none` when they do something undefined or a loop takes more rounds than there is room for blocks.
-/
import DDNet.Shared.RingBuffer

namespace DDNet

/-- The header `CItem`. -/
@[ext]
structure ItemHeader where
  /-- `m_pPrev`; `none` is the null pointer. -/
  prev : Option ℤ
  /-- `m_pNext`. -/
  next : Option ℤ
  /-- `m_Free`. -/
  free : Bool
  /-- `m_Size`. -/
  size : ℤ
deriving DecidableEq

/-- `CRingBufferBase` with its memory. -/
structure RingMemory where
  /-- The number of bytes at `pMemory`. -/
  memory : ℕ
  /-- The headers in the memory. -/
  items : ℤ → Option ItemHeader
  /-- The bytes of the items. -/
  bytes : ℤ → Option UInt8
  /-- `m_pProduce`. -/
  produce : ℤ
  /-- `m_pConsume`. -/
  consume : ℤ
  /-- `m_pFirst`. -/
  first : ℤ
  /-- `m_pLast`. -/
  last : ℤ
  /-- `m_Size`. -/
  size : ℤ
  /-- `m_Flags & FLAG_RECYCLE`. -/
  recycle : Bool

namespace RingMemory

/-- A header is stored. -/
def store (m : RingMemory) (a : ℤ) (x : ItemHeader) : Option RingMemory :=
  if 0 ≤ a ∧ a + itemSize ≤ m.memory then
    some { m with
      items := fun b => if b = a then some x else if a - itemSize < b ∧ b < a + itemSize then none else m.items b
      bytes := fun b => if a ≤ b ∧ b < a + itemSize then none else m.bytes b }
  else none

/-- Fields of a header are changed. -/
def update (m : RingMemory) (a : ℤ) (f : ItemHeader → ItemHeader) : Option RingMemory :=
  (m.items a).bind fun x => m.store a (f x)

/-- The bytes of an item are stored by the caller of `Allocate`. -/
def storeData (m : RingMemory) (p : ℤ) (data : List UInt8) : Option RingMemory :=
  if 0 ≤ p ∧ p + data.length ≤ m.memory then
    some { m with
      items := fun b => if data ≠ [] ∧ p - itemSize < b ∧ b < p + data.length then none else m.items b
      bytes := fun b => if p ≤ b ∧ b < p + data.length then data[(b - p).toNat]? else m.bytes b }
  else none

/-- `NextBlock`. -/
def nextBlock (m : RingMemory) (p : ℤ) : Option ℤ := (m.items p).map fun x => x.next.getD m.first

/-- `PrevBlock`. -/
def prevBlock (m : RingMemory) (p : ℤ) : Option ℤ := (m.items p).map fun x => x.prev.getD m.last

/-- The part of `MergeBack` behind the tests, for the header `x` at `p` and its previous block `q`: the blocks are merged
and the pointers fixed. -/
def merge (m : RingMemory) (p q : ℤ) (x : ItemHeader) : Option RingMemory :=
  (m.update q fun y => { y with size := y.size + x.size, next := x.next }).bind fun (m : RingMemory) =>
    let fixed : Option RingMemory :=
      match x.next with
      | some n => m.update n fun z => { z with prev := some q }
      | none => some { m with last := q }
    fixed.map fun m =>
      { m with
        produce := if p = m.produce then q else m.produce
        consume := if p = m.consume then q else m.consume }

/-- `MergeBack`: the buffer and the current block after it. -/
def mergeBack (m : RingMemory) (p : ℤ) : Option (RingMemory × ℤ) :=
  (m.items p).bind fun x =>
    match x.free, x.prev with
    | true, some q =>
        (m.items q).bind fun y => if y.free then (m.merge p q x).map fun m => (m, q) else some (m, p)
    | _, _ => some (m, p)

/-- `Init`.  A memory without room for a header is written beyond its end. -/
def init (memory : ℕ) (recycle : Bool) : Option RingMemory :=
  let size : ℤ := (memory / itemSize * itemSize : ℕ)
  store ⟨memory, fun _ => none, fun _ => none, 0, 0, 0, 0, size, recycle⟩ 0 ⟨none, none, true, size⟩

/-- The loop of `PopFirst` that advances the consume pointer. -/
def advance : ℕ → RingMemory → Option RingMemory
  | 0, _ => none
  | rounds + 1, m =>
      (m.items m.consume).bind fun x =>
        if x.free ∧ m.consume ≠ m.produce then
          (m.mergeBack m.consume).bind fun r =>
            (r.1.nextBlock r.2).bind fun n => advance rounds { r.1 with consume := n }
        else some m

/-- More rounds than there is room for blocks. -/
def rounds (m : RingMemory) : ℕ := m.memory / itemSize + 2

/-- `PopFirst`: the buffer, and the pointer that is given to `m_PopCallback`; none for the result 0. -/
def popFirst (m : RingMemory) : Option (RingMemory × Option ℤ) :=
  (m.items m.consume).bind fun x =>
    if x.free then some (m, none)
    else
      let popped := m.consume + itemSize
      (m.update m.consume fun x => { x with free := true }).bind fun m =>
        (m.mergeBack m.consume).bind fun r =>
          (r.1.nextBlock r.2).bind fun n =>
            (advance m.rounds { r.1 with consume := n }).bind fun m =>
              (m.mergeBack m.consume).map fun r => (r.1, some popped)

/-- A number stored in an `int`. -/
def toInt (n : ℤ) : ℤ := n.bmod (2 ^ 32)

/-- `WantedSize`, which is computed as a `size_t` and stored in an `int`. -/
def wantedSize (size : BitVec 32) : ℤ :=
  toInt ((size.toInt + itemSize + itemSize - 1) % 2 ^ 64 / itemSize * itemSize)

/-- The block that `Allocate` finds without making room; the outer `none` is undefined. -/
def findBlock (m : RingMemory) (wanted : ℤ) : Option (Option ℤ) :=
  (m.items m.produce).bind fun x =>
    if x.free then
      if wanted ≤ x.size then some (some m.produce)
      -- wrap around to try to find a block
      else (m.items m.first).map fun y => if y.free ∧ wanted ≤ y.size then some m.first else none
    else some none

/-- The loop of `Allocate`: the buffer, the block if there is one, and the items that were popped for it. -/
def reserve (wanted : ℤ) : ℕ → RingMemory → Option (RingMemory × Option ℤ × List ℤ)
  | 0, _ => none
  | rounds + 1, m =>
      (m.findBlock wanted).bind fun block =>
        match block with
        | some block => some (m, some block, [])
        | none =>
            if m.recycle then
              m.popFirst.bind fun r =>
                match r.2 with
                | some p => (reserve wanted rounds r.1).map fun s => (s.1, s.2.1, p :: s.2.2)
                | none => some (r.1, none, [])
            else some (m, none, [])

/-- The block is split in `Allocate`. -/
def split (m : RingMemory) (p wanted : ℤ) (x : ItemHeader) : Option RingMemory :=
  (m.store (p + wanted) ⟨some p, x.next, true, x.size - wanted⟩).bind fun (m : RingMemory) =>
    let linked : Option RingMemory :=
      match x.next with
      | some n => m.update n fun z => { z with prev := some (p + wanted) }
      | none => some m
    linked.bind fun m =>
      (m.update p fun y => { y with next := some (p + wanted), size := wanted }).bind fun m =>
        (m.items (p + wanted)).map fun z => if z.next = none then { m with last := p + wanted } else m

/-- The end of `Allocate`: the block is split if needed, and used. -/
def place (m : RingMemory) (p wanted : ℤ) : Option RingMemory :=
  (m.items p).bind fun x =>
    (if toInt (wanted + itemSize) < x.size then m.split p wanted x else some m).bind fun m =>
      (m.nextBlock p).bind fun n =>
        { m with produce := n }.update p fun y => { y with free := false }

/-- `Allocate`: the buffer, the pointer that is returned, and the items that were popped. -/
def allocate (m : RingMemory) (size : BitVec 32) : Option (RingMemory × Option ℤ × List ℤ) :=
  -- check if we even can fit this block
  if m.size < wantedSize size then some (m, none, [])
  else
    (reserve (wantedSize size) m.rounds m).bind fun r =>
      match r.2.1 with
      | some p => (r.1.place p (wantedSize size)).map fun m => (m, some (p + itemSize), r.2.2)
      | none => some (r.1, none, r.2.2)

/-- `First`; the outer `none` is undefined. -/
def firstItem (m : RingMemory) : Option (Option ℤ) :=
  (m.items m.consume).map fun x => if x.free then none else some (m.consume + itemSize)

/-- The loops of `Next` and `Prev`, which go on from block to block with `step`. -/
def seek (m : RingMemory) (step : ℤ → Option ℤ) : ℕ → ℤ → Option (Option ℤ)
  | 0, _ => none
  | rounds + 1, p =>
      (step p).bind fun q =>
        if q = m.produce then some none
        else (m.items q).bind fun x => if x.free then m.seek step rounds q else some (some (q + itemSize))

/-- `Next`. -/
def next (m : RingMemory) (pCurrent : ℤ) : Option (Option ℤ) := m.seek m.nextBlock m.rounds (pCurrent - itemSize)

/-- `Prev`. -/
def prev (m : RingMemory) (pCurrent : ℤ) : Option (Option ℤ) := m.seek m.prevBlock m.rounds (pCurrent - itemSize)

/-- `Last`. -/
def lastItem (m : RingMemory) : Option (Option ℤ) := m.prev (m.produce + itemSize)

/-- The items that a loop visits that starts at `p` and goes on with `step` until it gets a null pointer. -/
def visit (step : ℤ → Option (Option ℤ)) : ℕ → Option ℤ → Option (List ℤ)
  | _, none => some []
  | 0, some _ => none
  | rounds + 1, some p => (step p).bind fun q => (visit step rounds q).map (p :: ·)

/-- The items that `for(p = First(); p; p = Next(p))` visits. -/
def forward (m : RingMemory) : Option (List ℤ) := m.firstItem.bind (visit m.next m.rounds)

/-- The items that `for(p = Last(); p; p = Prev(p))` visits. -/
def backward (m : RingMemory) : Option (List ℤ) := m.lastItem.bind (visit m.prev m.rounds)

/-! ### Sequences of calls -/

/-- A call: `Allocate`, with the bytes that the caller stores in the item, or `PopFirst`. -/
inductive Call where
  | allocate (size : BitVec 32) (data : ℕ → UInt8)
  | popFirst

/-- What happens to an item. -/
inductive Event where
  | allocated (p : ℤ) (data : List UInt8)
  | popped (p : ℤ)
deriving DecidableEq

/-- A call: the buffer after it, and what happened. -/
def Call.exec (m : RingMemory) : Call → Option (RingMemory × List Event)
  | allocate size data =>
      (m.allocate size).bind fun r =>
        let popped := r.2.2.map Event.popped
        match r.2.1 with
        | none => some (r.1, popped)
        | some p =>
            let bytes := (List.range size.toInt.toNat).map data
            (r.1.storeData p bytes).map fun m => (m, popped ++ [.allocated p bytes])
  | popFirst => m.popFirst.map fun r => (r.1, r.2.toList.map Event.popped)

/-- The buffer after a sequence of calls, and all that happened. -/
def exec (m : RingMemory) : List Call → Option (RingMemory × List Event)
  | [] => some (m, [])
  | c :: cs => (c.exec m).bind fun r => (exec r.1 cs).map fun s => (s.1, r.2 ++ s.2)

/-- The items that have been allocated and not been popped, in the order in which they were allocated. -/
def live (events : List Event) : List (ℤ × List UInt8) :=
  events.foldl (fun items e =>
    match e with
    | .allocated p data => items ++ [(p, data)]
    | .popped p => items.filter fun x => x.1 ≠ p) []

end RingMemory

end DDNet
