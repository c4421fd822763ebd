/-
The writer of datafiles (`CDataFileWriter`, `engine/shared/datafile.cpp`).

Items are linked by type, in the order in which they are added, and written type by type.  A type with a uuid gets an
internal type, from the top of the internal types downwards, and an item that describes it.  An assertion that fails
is `none`.
-/
import DDNet.Lib.LinkedList
import DDNet.Shared.Datafile

namespace DDNet

open Lib

/-- `CDataFileWriter::ECompressionLevel`. -/
inductive ECompressionLevel where
  | compressionDefault
  | compressionBest
deriving DecidableEq

/-- `CItemInfo`, without the links. -/
structure CItemInfo where
  type : ℤ
  id : ℤ
  data : List UInt8
deriving DecidableEq

/-- `CItemTypeInfo`; `none` stands for -1. -/
structure CItemTypeInfo where
  num : ℕ
  first : Option ℕ
  last : Option ℕ

/-- `CDataInfo`, before it is compressed. -/
structure CDataInfo where
  data : List UInt8
  compressionLevel : ECompressionLevel

structure CExtendedItemType where
  type : ℤ
  uuid : CUuid

/-- The links `m_Next` and `m_Prev` of the items are functions of the index. -/
structure CDataFileWriter where
  itemTypes : ℤ → CItemTypeInfo
  items : List CItemInfo
  next : ℕ → Option ℕ
  prev : ℕ → Option ℕ
  datas : List CDataInfo
  extendedItemTypes : List CExtendedItemType

/-- The calls of a writer. -/
inductive WriterCall where
  | addItem (type id : ℤ) (data : List UInt8) (uuid : Option CUuid)
  | addData (data : List UInt8) (compressionLevel : ECompressionLevel)

/-- `MAX_ITEM_TYPES`. -/
def maxItemTypes : ℕ := 0x10000

/-- The largest int. -/
def maxInt : ℕ := 2 ^ 31 - 1

/-- The bytes of a `CItemEx`. -/
def itemExBytes (uuid : CUuid) : List UInt8 := tableBytes (List.ofFn (CItemEx.fromUuid uuid))

namespace CDataFileWriter

/-- The constructor. -/
def empty : CDataFileWriter where
  itemTypes _ := ⟨0, none, none⟩
  items := []
  next _ := none
  prev _ := none
  datas := []
  extendedItemTypes := []

def getTypeFromIndex (index : ℕ) : ℤ := itemtypeEx - index - 1

/-- The end of `AddItem`: the item is stored, and linked behind the last one of its type. -/
def linkItem (w : CDataFileWriter) (type id : ℤ) (data : List UInt8) : CDataFileWriter :=
  let numItems := w.items.length
  let info := w.itemTypes type
  { w with
    items := w.items ++ [⟨type, id, data⟩]
    prev := Function.update w.prev numItems info.last
    next := setAt (Function.update w.next numItems none) info.last (some numItems)
    itemTypes := Function.update w.itemTypes type
      { num := info.num + 1, first := info.first.or (some numItems), last := some numItems } }

/-- `GetExtendedItemTypeIndex`. -/
def getExtendedItemTypeIndex (m : CUuidManager) (w : CDataFileWriter) (type : ℤ) (uuid : Option CUuid) :
    Option (ℕ × CDataFileWriter) :=
  match w.extendedItemTypes.findIdx? fun e => if type = -1 then some e.uuid = uuid else e.type = type with
  | some index => some (index, w)
  | none => do
      -- Type not found, add it.
      let uuid ← (if type = -1 then uuid else m.getUuid type)
      let index := w.extendedItemTypes.length
      let w : CDataFileWriter := { w with extendedItemTypes := w.extendedItemTypes ++ [⟨type, uuid⟩] }
      if 0 ≤ getTypeFromIndex index then
        return (index, w.linkItem itemtypeEx (getTypeFromIndex index) (itemExBytes uuid))
      else
        none

/-- `AddItem`. -/
def addItem (m : CUuidManager) (w : CDataFileWriter) (type id : ℤ) (data : List UInt8) (uuid : Option CUuid) :
    Option CDataFileWriter := do
  if (0 ≤ type ∧ type < maxItemTypes ∨ offsetUuid ≤ type ∨ type = -1 ∧ uuid.isSome = true) ∧
      (0 ≤ id ∧ id ≤ itemtypeEx) ∧ data.length ≤ maxInt ∧ data.length % 4 = 0 then
    if type = -1 ∨ offsetUuid ≤ type then
      let extended ← w.getExtendedItemTypeIndex m type uuid
      return extended.2.linkItem (getTypeFromIndex extended.1) id data
    else
      return w.linkItem type id data
  else
    none

/-- `AddData`. -/
def addData (w : CDataFileWriter) (data : List UInt8) (compressionLevel : ECompressionLevel) :
    Option CDataFileWriter :=
  if data ≠ [] ∧ data.length ≤ maxInt then some { w with datas := w.datas ++ [⟨data, compressionLevel⟩] } else none

/-- A call; `none` if an assertion fails. -/
def step (m : CUuidManager) (w : CDataFileWriter) : WriterCall → Option CDataFileWriter
  | .addItem type id data uuid => w.addItem m type id data uuid
  | .addData data compressionLevel => w.addData data compressionLevel

/-- A run. -/
def run (m : CUuidManager) (w : CDataFileWriter) : List WriterCall → Option CDataFileWriter
  | [] => some w
  | call :: calls => (w.step m call).bind fun w => w.run m calls

/-! ### `Finish` -/

/-- The indices of the items of a type, along the links; there are at most `fuel`. -/
def follow (next : ℕ → Option ℕ) : ℕ → Option ℕ → List ℕ
  | 0, _ => []
  | _, none => []
  | fuel + 1, some i => i :: follow next fuel (next i)

def typeItems (w : CDataFileWriter) (type : ℤ) : List CItemInfo :=
  (follow w.next w.items.length (w.itemTypes type).first).filterMap fun i => w.items[i]?

/-- The internal types, in the order in which they are written. -/
def types : List ℤ := (List.range maxItemTypes).map fun n : ℕ => (n : ℤ)

/-- The items, sorted by type. -/
def sortedItems (w : CDataFileWriter) : List CItemInfo := types.flatMap w.typeItems

/-- The item types that are written, from the type and the count on. -/
def typeTable (w : CDataFileWriter) : List ℤ → ℕ → List (BitVec 32)
  | [], _ => []
  | type :: types, count =>
      let num := (w.itemTypes type).num
      if num = 0 then w.typeTable types count
      else
        [BitVec.ofInt 32 type, BitVec.ofNat 32 count, BitVec.ofNat 32 num] ++ w.typeTable types (count + num)

/-- The offsets of what has the sizes. -/
def offsetTable : List ℕ → ℕ → List (BitVec 32)
  | [], _ => []
  | size :: sizes, offset => BitVec.ofNat 32 offset :: offsetTable sizes (offset + size)

/-- An item with its header. -/
def itemBytes (item : CItemInfo) : List UInt8 :=
  tableBytes [BitVec.ofInt 32 item.type <<< 16 ||| BitVec.ofInt 32 item.id, BitVec.ofNat 32 item.data.length] ++
    item.data

/-- `Finish`: the bytes of the file, with zlib's `compress2`. -/
def finish (compress : ECompressionLevel → List UInt8 → List UInt8) (w : CDataFileWriter) : Option (List UInt8) :=
  let compressed := w.datas.map fun info => compress info.compressionLevel info.data
  let itemSize := (w.items.map fun item => item.data.length + sizeofDatafileItem).sum
  let dataSize := (compressed.map List.length).sum
  let numItemTypes := types.countP fun type => (w.itemTypes type).num ≠ 0
  let typesSize := numItemTypes * sizeofDatafileItemType
  let offsetSize := (w.items.length + w.datas.length * 2) * 4
  let swapSize := sizeofDatafileHeader + typesSize + offsetSize + itemSize
  let fileSize := swapSize + dataSize
  if fileSize ≤ maxInt then
    some ([0x44, 0x41, 0x54, 0x41] ++
      tableBytes [4, BitVec.ofNat 32 (fileSize - 16), BitVec.ofNat 32 (swapSize - 16), BitVec.ofNat 32 numItemTypes,
        BitVec.ofNat 32 w.items.length, BitVec.ofNat 32 w.datas.length, BitVec.ofNat 32 itemSize,
        BitVec.ofNat 32 dataSize] ++
      tableBytes (w.typeTable types 0) ++
      tableBytes (offsetTable (w.sortedItems.map fun item => item.data.length + sizeofDatafileItem) 0) ++
      tableBytes (offsetTable (compressed.map List.length) 0) ++
      tableBytes (w.datas.map fun info => BitVec.ofNat 32 info.data.length) ++
      w.sortedItems.flatMap itemBytes ++
      compressed.flatten)
  else
    none

end CDataFileWriter

end DDNet
