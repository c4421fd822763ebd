/-
Snapshots (`engine/shared/snapshot.cpp`): the builder, and the delta between two snapshots.

A snapshot is a list of items; an item has a key, made of its type and id, and ints as data.  Types from `OFFSET_UUID` on
are extended: within a snapshot they have a number below `MAX_TYPE`, and a hidden item of type 0 says which UUID the
number stands for.
-/
import DDNet.Shared.IntArray
import DDNet.Shared.Datafile
import Mathlib.Logic.Function.Basic

namespace DDNet

/-! ### Items and snapshots -/

/-- `CSnapshotItem`; sizes are in ints. -/
structure CSnapshotItem where
  typeAndId : BitVec 32
  data : List (BitVec 32)
  deriving DecidableEq

namespace CSnapshotItem

def key (item : CSnapshotItem) : BitVec 32 := item.typeAndId

def type (item : CSnapshotItem) : ℤ := (item.typeAndId.sshiftRight 16).toInt

def id (item : CSnapshotItem) : ℤ := (item.typeAndId &&& 0xffff).toInt

/-- The bytes of an item, its key included. -/
def size (item : CSnapshotItem) : ℕ := 4 + 4 * item.data.length

/-- The key of a type and an id. -/
def keyOf (type id : ℤ) : BitVec 32 := BitVec.ofInt 32 type <<< 16 ||| BitVec.ofInt 32 id

end CSnapshotItem

/-- The items of a snapshot in their order. -/
abbrev CSnapshot := List CSnapshotItem

namespace CSnapshot

def maxType : ℤ := 0x7fff
def maxItems : ℕ := 1024
def maxParts : ℕ := 64
def maxSize : ℕ := maxParts * 1024

lemma maxSize_eq : maxSize = 65536 := rfl

def dataSize (s : CSnapshot) : ℕ := (s.map CSnapshotItem.size).sum

/-- `TotalSize`: the header, the offsets and the items. -/
def totalSize (s : CSnapshot) : ℕ := 8 + 4 * s.length + dataSize s

def crc (s : CSnapshot) : BitVec 32 := (s.flatMap CSnapshotItem.data).foldl (· + ·) 0

end CSnapshot

/-! ### The builder -/

structure CSnapshotBuilder where
  items : CSnapshot
  extendedItemTypes : List ℤ
  sixup : Bool

namespace CSnapshotBuilder

-- `Obj_SixToSeven` and `g_UuidManager`
variable (sixToSeven : ℤ → ℤ) (uuids : CUuidManager)

def new : CSnapshotBuilder := ⟨[], [], false⟩

/-- The checks at the start of `NewItem`. -/
def hasRoom (b : CSnapshotBuilder) (words : ℕ) : Bool :=
  b.items.length < CSnapshot.maxItems &&
    8 + 4 * (b.items.length + 1) + CSnapshot.dataSize b.items + (4 + 4 * words) ≤ CSnapshot.maxSize

def push (b : CSnapshotBuilder) (type id : ℤ) (data : List (BitVec 32)) : CSnapshotBuilder :=
  { b with items := b.items ++ [⟨CSnapshotItem.keyOf type id, data⟩] }

def getTypeFromIndex (index : ℕ) : ℤ := CSnapshot.maxType - index

/-- `NewItem` for a type that is not extended, with the data the caller writes into the item; `none` for the null
pointer. -/
def newPlainItem (b : CSnapshotBuilder) (type id : ℤ) (data : List (BitVec 32)) : Option CSnapshotBuilder :=
  if id = -1 ∨ b.hasRoom data.length = false then none
  else if b.sixup then
    let type := if 0 ≤ type then sixToSeven type else -type
    -- the caller gets room behind the items to write to
    if type < 0 then some b else some (b.push type id data)
  else if type < 0 then none
  else some (b.push type id data)

/-- The data of the hidden item of an extended type: its UUID. -/
def uuidItem (typeId : ℤ) : List (BitVec 32) := List.ofFn (CItemEx.fromUuid ((uuids.getUuid typeId).getD uuidZeroed))

def addExtendedItemType (b : CSnapshotBuilder) (index : ℕ) : Option CSnapshotBuilder :=
  newPlainItem sixToSeven b 0 (getTypeFromIndex index) (uuidItem uuids (b.extendedItemTypes[index]?.getD 0))

def getExtendedItemTypeIndex (b : CSnapshotBuilder) (typeId : ℤ) : Option (ℕ × CSnapshotBuilder) :=
  match b.extendedItemTypes.findIdx? (· = typeId) with
  | some index => some (index, b)
  | none =>
    let index := b.extendedItemTypes.length
    (addExtendedItemType sixToSeven uuids { b with extendedItemTypes := b.extendedItemTypes ++ [typeId] } index).map
      fun b' => (index, b')

def newItem (b : CSnapshotBuilder) (type id : ℤ) (data : List (BitVec 32)) : Option CSnapshotBuilder :=
  if type < offsetUuid then newPlainItem sixToSeven b type id data
  else if id = -1 ∨ b.hasRoom data.length = false then none
  else
    (getExtendedItemTypeIndex sixToSeven uuids b type).map fun (index, b') =>
      b'.push (getTypeFromIndex index) id data

/-- `Init`: the hidden items of the extended types known so far come first. -/
def init (b : CSnapshotBuilder) (sixup : Bool) : CSnapshotBuilder :=
  (List.range b.extendedItemTypes.length).foldl
    (fun b index => (addExtendedItemType sixToSeven uuids b index).getD b) { b with items := [], sixup }

/-- `Finish`; `none` if an assertion fails. -/
def finish (b : CSnapshotBuilder) : Option CSnapshot :=
  if b.items.length ≤ CSnapshot.maxItems ∧ CSnapshot.totalSize b.items ≤ CSnapshot.maxSize then some b.items else none

/-- What is done with a builder; after a `NewItem` that returns null the caller goes on without the item. -/
inductive Call
  | init (sixup : Bool)
  | newItem (type id : ℤ) (data : List (BitVec 32))

def exec (b : CSnapshotBuilder) : Call → CSnapshotBuilder
  | .init sixup => init sixToSeven uuids b sixup
  | .newItem type id data => (newItem sixToSeven uuids b type id data).getD b

def run (b : CSnapshotBuilder) (calls : List Call) : CSnapshotBuilder := calls.foldl (exec sixToSeven uuids) b

end CSnapshotBuilder

/-! ### The delta -/

def hashlistSize : ℕ := 256
def hashlistBucketSize : ℕ := 64

/-- The keys and indices in each bucket. -/
abbrev CItemList := ℕ → List (BitVec 32 × ℕ)

/-- One round of the loop of `CalcHashId`. -/
def calcHashByte (key hash : BitVec 32) (shift : ℕ) : BitVec 32 :=
  (hash <<< 5 + hash) + (key.sshiftRight (shift * 8) &&& 0xFF)

def calcHashId (key : BitVec 32) : ℕ := ((List.range 4).foldl (calcHashByte key) 5381).toNat % hashlistSize

/-- One round of the loop of `GenerateHash`. -/
def addToHash (hashlist : CItemList) (entry : CSnapshotItem × ℕ) : CItemList :=
  let bucket := hashlist (calcHashId entry.1.key)
  if bucket.length < hashlistBucketSize then
    Function.update hashlist (calcHashId entry.1.key) (bucket ++ [(entry.1.key, entry.2)])
  else hashlist

def generateHash (s : CSnapshot) : CItemList := s.zipIdx.foldl addToHash fun _ => []

def getItemIndexHashed (key : BitVec 32) (hashlist : CItemList) : Option ℕ :=
  ((hashlist (calcHashId key)).find? fun entry => entry.1 = key).map (·.2)

namespace CSnapshotDelta

def maxNetobjSizes : ℤ := 64

-- `m_aItemSizes` in bytes; 0 for a type whose size goes with each item
variable (itemSizes : ℤ → ℤ)

def includeSize (item : CSnapshotItem) : Bool := maxNetobjSizes ≤ item.type || itemSizes item.type = 0

/-- What stands before the data of an item. -/
def recordHead (item : CSnapshotItem) : List (BitVec 32) :=
  [BitVec.ofInt 32 item.type, BitVec.ofInt 32 item.id] ++
    if includeSize itemSizes item then [BitVec.ofNat 32 item.data.length] else []

/-- The record of an item of the new snapshot, given the item of the same key in the old one; `none` if nothing has
changed. -/
def updateRecord (past : Option CSnapshotItem) (item : CSnapshotItem) : Option (List (BitVec 32)) :=
  match past with
  | some past =>
    let diff := diffItem past.data item.data
    if diff.foldl (· ||| ·) 0 = 0 then none else some (recordHead itemSizes item ++ diff)
  | none => some (recordHead itemSizes item ++ item.data)

/-- The keys of the old snapshot that are not in the new one. -/
def deletedItems (old new : CSnapshot) : List (BitVec 32) :=
  (old.map CSnapshotItem.key).filter fun key => (getItemIndexHashed key (generateHash new)).isNone

/-- The item of the old snapshot that the hash list of it finds for a key. -/
def pastItem (old : CSnapshot) (key : BitVec 32) : Option CSnapshotItem :=
  (getItemIndexHashed key (generateHash old)).bind fun index => old[index]?

def updateRecords (old new : CSnapshot) : List (List (BitVec 32)) :=
  new.filterMap fun item => updateRecord itemSizes (pastItem old item.key) item

/-- `CreateDelta`; `none` for the return value 0. -/
def createDelta (old new : CSnapshot) : Option (List (BitVec 32)) :=
  let deleted := deletedItems old new
  let records := updateRecords itemSizes old new
  if deleted = [] ∧ records = [] then none
  else some ([BitVec.ofNat 32 deleted.length, BitVec.ofNat 32 records.length, 0] ++ deleted ++ records.flatten)

lemma createDelta_ne_nil {old new : CSnapshot} {delta : List (BitVec 32)}
    (h : createDelta itemSizes old new = some delta) : delta ≠ [] := by
  rintro rfl
  rw [createDelta] at h
  split_ifs at h
  simp at h

/-- Against the empty snapshot every item is new. -/
lemma createDelta_empty (new : CSnapshot) (hne : new ≠ []) :
    createDelta itemSizes [] new =
      some ([0, BitVec.ofNat 32 new.length, 0] ++ (new.map fun item => recordHead itemSizes item ++ item.data).flatten) := by
  have hrecords : updateRecords itemSizes [] new = new.map fun item => recordHead itemSizes item ++ item.data := by
    rw [updateRecords, ← List.filterMap_eq_map]
    rfl
  rw [createDelta, hrecords, if_neg (by simp [hne])]
  simp [deletedItems]

end CSnapshotDelta

end DDNet
