/-
The reader of datafiles (`CDataFileReader`, `engine/shared/datafile.cpp`).

A file is a header, tables of item types, item offsets, data offsets and (from version 4 on) data sizes, the items,
and the data.  `Open` loads all but the data; what it loads is trusted by the functions that read items.  A function
returns `none` if it reads an entry that is not in its table, or a byte that is not loaded.

`GetItem`, `GetExternalItemType`, `GetInternalItemType` and `FindItemIndex` call each other.  Here they get the
`GetItem` that they call as an argument, and `getItem` has the depth of its calls as fuel.
-/
import Mathlib.Data.Fin.VecNotation
import Mathlib.Tactic.FinCases
import DDNet.Lib.Words

namespace DDNet

open Lib

/-! ### Uuids -/

/-- `CUuid`. -/
abbrev CUuid := Fin 16 → UInt8

/-- `UUID_ZEROED`. -/
def uuidZeroed : CUuid := fun _ => 0

/-- `UUID_UNKNOWN`. -/
def uuidUnknown : ℤ := -1

/-- `OFFSET_UUID`. -/
def offsetUuid : ℤ := 2 ^ 16

/-- `CUuidManager`: the uuids of the names, in the order of their ids.  No uuid is registered twice. -/
structure CUuidManager where
  names : List CUuid
  nodup : names.Nodup

namespace CUuidManager

/-- `none` if there is no such name. -/
def getUuid (m : CUuidManager) (id : ℤ) : Option CUuid := m.names[(id - offsetUuid).toNat]?

def lookupUuid (m : CUuidManager) (uuid : CUuid) : ℤ :=
  match m.names.idxOf? uuid with
  | some index => index + offsetUuid
  | none => uuidUnknown

end CUuidManager

/-- `CItemEx`: a uuid as four big-endian ints. -/
abbrev CItemEx := Fin 4 → BitVec 32

namespace CItemEx

def fromUuid (uuid : CUuid) : CItemEx := fun i =>
  wordOfBytes (uuid ⟨4 * i + 3, by omega⟩) (uuid ⟨4 * i + 2, by omega⟩) (uuid ⟨4 * i + 1, by omega⟩)
    (uuid ⟨4 * i, by omega⟩)

def toUuid (item : CItemEx) : CUuid := fun i => (wordBytes (item ⟨i / 4, by omega⟩)).getD (3 - i % 4) 0

lemma toUuid_fromUuid (uuid : CUuid) : (fromUuid uuid).toUuid = uuid := by
  funext i
  rw [toUuid, fromUuid, wordBytes_wordOfBytes]
  fin_cases i <;> rfl

end CItemEx

/-! ### The file -/

/-- `CDatafileHeader`, after the signature. -/
structure CDatafileHeader where
  version : BitVec 32
  size : BitVec 32
  swaplen : BitVec 32
  numItemTypes : BitVec 32
  numItems : BitVec 32
  numRawData : BitVec 32
  itemSize : BitVec 32
  dataSize : BitVec 32

/-- The sizes of `CDatafileHeader`, `CDatafileItemType`, `CDatafileItem`, `CItemEx` and `CDatafile`. -/
def sizeofDatafileHeader : ℕ := 36

@[inherit_doc sizeofDatafileHeader] def sizeofDatafileItemType : ℕ := 12

@[inherit_doc sizeofDatafileHeader] def sizeofDatafileItem : ℕ := 8

@[inherit_doc sizeofDatafileHeader] def sizeofItemEx : ℕ := 16

@[inherit_doc sizeofDatafileHeader] def sizeofDatafile : ℕ := 160

/-- `ITEMTYPE_EX`. -/
def itemtypeEx : ℤ := 0xffff

/-- `OFFSET_UUID_TYPE`. -/
def offsetUuidType : ℤ := 0x8000

namespace CDatafileHeader

/-- `Size` of `Open`, an unsigned int: the size of the file without the header and the data. -/
def loadSize (h : CDatafileHeader) : BitVec 32 :=
  12 * h.numItemTypes + 4 * (h.numItems + h.numRawData) + (if h.version = 4 then 4 * h.numRawData else 0) +
    h.itemSize

/-- `AllocSize` of `Open`, an unsigned int. -/
def allocSize (h : CDatafileHeader) : BitVec 32 :=
  h.loadSize + BitVec.ofNat 32 sizeofDatafile + 8 * h.numRawData + 4 * h.numRawData

/-- What `Open` writes into the block that it allocates. -/
def blockSize (h : CDatafileHeader) : ℕ := h.loadSize.toNat + sizeofDatafile + 12 * h.numRawData.toNat

end CDatafileHeader

/-- The ints behind the signature. -/
def readHeader (file : List UInt8) : Option CDatafileHeader := do
  let version ← wordAt file 4
  let size ← wordAt file 8
  let swaplen ← wordAt file 12
  let numItemTypes ← wordAt file 16
  let numItems ← wordAt file 20
  let numRawData ← wordAt file 24
  let itemSize ← wordAt file 28
  let dataSize ← wordAt file 32
  return ⟨version, size, swaplen, numItemTypes, numItems, numRawData, itemSize, dataSize⟩

/-- `CDatafile`, with the file that is open. -/
structure CDatafile where
  header : CDatafileHeader
  /-- `m_pData`: what is loaded. -/
  data : List UInt8
  file : List UInt8
  dataPtrs : ℕ → Option (List UInt8)
  dataSizes : ℕ → BitVec 32

/-- The results of `Open`. -/
inductive OpenResult where
  | rejected
  /-- The block is too small for what is written into it. -/
  | overrun
  | opened (df : CDatafile)

/-- `CDataFileReader::Open`, on the bytes of the file. -/
def openDatafile (file : List UInt8) : OpenResult :=
  match readHeader file with
  | none => .rejected
  | some h =>
      if file.take 4 ≠ [0x41, 0x54, 0x41, 0x44] ∧ file.take 4 ≠ [0x44, 0x41, 0x54, 0x41] then .rejected
      else if h.version ≠ 3 ∧ h.version ≠ 4 then .rejected
      else if 2 ^ 31 < h.loadSize.toNat ∨ h.numItemTypes.toInt < 0 ∨ h.numItems.toInt < 0 ∨ h.numRawData.toInt < 0 ∨
          h.itemSize.toInt < 0 then .rejected
      else if h.allocSize.toNat < h.blockSize then .overrun
      else
        let data := (file.drop sizeofDatafileHeader).take h.loadSize.toNat
        if data.length ≠ h.loadSize.toNat then .rejected
        else .opened ⟨h, data, file, fun _ => none, fun _ => 0⟩

namespace CDatafile

/-! ### The tables -/

def numItemTypes (df : CDatafile) : ℕ := df.header.numItemTypes.toNat

def numItems (df : CDatafile) : ℕ := df.header.numItems.toNat

def numRawData (df : CDatafile) : ℕ := df.header.numRawData.toNat

/-- Where `m_Info` points to. -/
def itemOffsetsStart (df : CDatafile) : ℕ := 12 * df.numItemTypes

def dataOffsetsStart (df : CDatafile) : ℕ := df.itemOffsetsStart + 4 * df.numItems

def dataSizesStart (df : CDatafile) : ℕ := df.dataOffsetsStart + 4 * df.numRawData

def itemStart (df : CDatafile) : ℕ :=
  if df.header.version = 4 then df.dataSizesStart + 4 * df.numRawData else df.dataSizesStart

/-- An entry of `m_pItemTypes`: type, start and number. -/
def itemType (df : CDatafile) (i : ℕ) : Option (ℤ × ℤ × ℤ) :=
  if i < df.numItemTypes then do
    let type ← wordAt df.data (12 * i)
    let start ← wordAt df.data (12 * i + 4)
    let num ← wordAt df.data (12 * i + 8)
    return (type.toInt, start.toInt, num.toInt)
  else
    none

/-- An entry of a table of ints. -/
def tableEntry (df : CDatafile) (start num : ℕ) (i : ℤ) : Option (BitVec 32) :=
  if 0 ≤ i ∧ i < num then wordAt df.data (start + 4 * i.toNat) else none

/-- `m_pItemOffsets[i]`. -/
def itemOffset (df : CDatafile) (i : ℤ) : Option (BitVec 32) := df.tableEntry df.itemOffsetsStart df.numItems i

/-- `m_pDataOffsets[i]`. -/
def dataOffset (df : CDatafile) (i : ℤ) : Option (BitVec 32) := df.tableEntry df.dataOffsetsStart df.numRawData i

/-- `m_pDataSizes[i]`, the sizes in the file. -/
def dataSize (df : CDatafile) (i : ℤ) : Option (BitVec 32) := df.tableEntry df.dataSizesStart df.numRawData i

/-- An int of an item, at a place behind its offset. -/
def itemInt (df : CDatafile) (i : ℤ) (place : ℕ) : Option (BitVec 32) := do
  let offset ← df.itemOffset i
  let pos := df.itemStart + offset.toInt + place
  if 0 ≤ pos then wordAt df.data pos.toNat else none

/-! ### Items -/

/-- `GetItemSize`. -/
def getItemSize (df : CDatafile) (i : ℤ) : Option (BitVec 32) := do
  if i = df.numItems - 1 then
    let offset ← df.itemOffset i
    return df.header.itemSize - offset - 8
  else
    let next ← df.itemOffset (i + 1)
    let offset ← df.itemOffset i
    return next - offset - 8

/-- What `GetItem` returns; the item itself is the position behind its header. -/
structure Item where
  type : ℤ
  id : ℤ
  uuid : CUuid
  pos : ℤ
deriving DecidableEq

/-- The type of an item in the file, without sign extension. -/
def internalType (df : CDatafile) (i : ℤ) : Option ℤ := do
  let typeAndId ← df.itemInt i 0
  return (typeAndId.sshiftRight 16 &&& 0xffff).toNat

/-- The id of an item. -/
def itemId (df : CDatafile) (i : ℤ) : Option ℤ := do
  let typeAndId ← df.itemInt i 0
  return (typeAndId &&& 0xffff).toNat

/-- The `CItemEx` of an item. -/
def itemEx (df : CDatafile) (i : ℤ) : Option CItemEx := do
  let a ← df.itemInt i 8
  let b ← df.itemInt i 12
  let c ← df.itemInt i 16
  let d ← df.itemInt i 20
  return ![a, b, c, d]

/-- The loop of `GetType` over the item types from `i` on; `n` of them are left. -/
def typeLoop (df : CDatafile) (type : ℤ) : ℕ → ℕ → Option (ℤ × ℤ)
  | _, 0 => some (0, 0)
  | i, n + 1 => do
      let info ← df.itemType i
      if info.1 = type then return info.2 else df.typeLoop type (i + 1) n

/-- The start and the number of the items of an internal type. -/
def lookupType (df : CDatafile) (type : ℤ) : Option (ℤ × ℤ) := df.typeLoop type 0 df.numItemTypes

/-- The loop of `FindItemIndex` over the items from `i` on; `n` of them are left. -/
def findLoop (getItem : ℤ → Option Item) (id : ℤ) : ℤ → ℕ → Option ℤ
  | _, 0 => some (-1)
  | i, n + 1 => do
      let item ← getItem i
      if item.id = id then return i else findLoop getItem id (i + 1) n

/-- The loop of `GetInternalItemType` over the items from `i` on; `n` of them are left. -/
def uuidLoop (df : CDatafile) (getItem : ℤ → Option Item) (uuid : CUuid) : ℤ → ℕ → Option ℤ
  | _, 0 => some (-1)
  | i, n + 1 => do
      let size ← df.getItemSize i
      if size.toInt < sizeofItemEx then df.uuidLoop getItem uuid (i + 1) n
      else
        let item ← getItem i
        let itemEx ← df.itemEx i
        if itemEx.toUuid = uuid then return item.id else df.uuidLoop getItem uuid (i + 1) n

/-- `GetInternalItemType`.  `ITEMTYPE_EX` is its own internal type. -/
def getInternalItemType (m : CUuidManager) (df : CDatafile) (getItem : ℤ → Option Item) (type : ℤ) : Option ℤ := do
  if type < offsetUuid then return type
  else
    let uuid ← m.getUuid type
    let range ← df.lookupType itemtypeEx
    df.uuidLoop getItem uuid range.1 range.2.toNat

/-- `GetType`. -/
def getType (m : CUuidManager) (df : CDatafile) (getItem : ℤ → Option Item) (type : ℤ) : Option (ℤ × ℤ) := do
  let internal ← df.getInternalItemType m getItem type
  df.lookupType internal

/-- `FindItemIndex`. -/
def findItemIndex (m : CUuidManager) (df : CDatafile) (getItem : ℤ → Option Item) (type id : ℤ) : Option ℤ := do
  let range ← df.getType m getItem type
  findLoop getItem id range.1 range.2.toNat

/-- `GetExternalItemType`: the type and its uuid. -/
def getExternalItemType (m : CUuidManager) (df : CDatafile) (getItem : ℤ → Option Item) (type : ℤ) :
    Option (ℤ × CUuid) := do
  if type ≤ offsetUuidType ∨ type = itemtypeEx then return (type, uuidZeroed)
  else
    let index ← df.findItemIndex m getItem itemtypeEx type
    if index < 0 then return (type, uuidZeroed)
    else
      let size ← df.getItemSize index
      if size.toInt < sizeofItemEx then return (type, uuidZeroed)
      else
        let _ ← getItem index
        let itemEx ← df.itemEx index
        return (m.lookupUuid itemEx.toUuid, itemEx.toUuid)

/-- The body of `GetItem`. -/
def getItemStep (m : CUuidManager) (df : CDatafile) (getItem : ℤ → Option Item) (i : ℤ) : Option Item := do
  let offset ← df.itemOffset i
  let internal ← df.internalType i
  let external ← df.getExternalItemType m getItem internal
  let id ← df.itemId i
  return ⟨external.1, id, external.2, df.itemStart + offset.toInt + sizeofDatafileItem⟩

/-- `GetItem`. -/
def getItem (m : CUuidManager) (df : CDatafile) : ℕ → ℤ → Option Item
  | 0, _ => none
  | fuel + 1, i => df.getItemStep m (df.getItem m fuel) i

/-- `FindItem`; `none` inside stands for a null pointer. -/
def findItem (m : CUuidManager) (df : CDatafile) (fuel : ℕ) (type id : ℤ) : Option (Option Item) := do
  let index ← df.findItemIndex m (df.getItem m fuel) type id
  if index < 0 then return none
  else
    let item ← df.getItem m fuel index
    return some item

/-! ### Data -/

/-- `GetFileDataSize`. -/
def getFileDataSize (df : CDatafile) (i : ℤ) : Option (BitVec 32) := do
  if i = df.numRawData - 1 then
    let offset ← df.dataOffset i
    return df.header.dataSize - offset
  else
    let next ← df.dataOffset (i + 1)
    let offset ← df.dataOffset i
    return next - offset

/-- `GetDataSize`. -/
def getDataSize (df : CDatafile) (i : ℤ) : Option (BitVec 32) :=
  if i < 0 ∨ df.numRawData ≤ i then some 0
  else if df.dataPtrs i.toNat = none then
    if 4 ≤ df.header.version.toInt then df.dataSize i else df.getFileDataSize i
  else if (df.dataSizes i.toNat).toInt < 0 then some 0
  else some (df.dataSizes i.toNat)

/-- What is read of the file at a position; a seek to a negative position fails. -/
def readFile (df : CDatafile) (pos : ℤ) (size : ℕ) : List UInt8 :=
  if pos < 0 then [] else (df.file.drop pos.toNat).take size

/-- The data is loaded, or cannot be loaded. -/
def setData (df : CDatafile) (i : ℕ) (data : Option (List UInt8)) : CDatafile :=
  { df with
    dataPtrs := Function.update df.dataPtrs i data
    dataSizes := Function.update df.dataSizes i
      (match data with
        | some data => BitVec.ofNat 32 data.length
        | none => -1) }

/-- `GetData`, with zlib's `uncompress`. -/
def getData (uncompress : List UInt8 → ℕ → Option (List UInt8)) (df : CDatafile) (i : ℤ) :
    Option (Option (List UInt8) × CDatafile) := do
  if i < 0 ∨ df.numRawData ≤ i then return (none, df)
  else
    match df.dataPtrs i.toNat with
    | some data => return (some data, df)
    | none =>
        -- don't try to load again if it previously failed
        if (df.dataSizes i.toNat).toInt < 0 then return (none, df)
        else
          let dataSize ← df.getFileDataSize i
          let offset ← df.dataOffset i
          let pos := (BitVec.ofNat 32 sizeofDatafileHeader + df.header.loadSize + offset).toInt
          let bytes := df.readFile pos dataSize.toNat
          if df.header.version = 4 then
            let size ← df.dataSize i
            if bytes.length ≠ dataSize.toNat then return (none, df.setData i.toNat none)
            else
              match uncompress bytes size.toNat with
              | some data =>
                  if data.length = size.toNat then return (some data, df.setData i.toNat (some data))
                  else return (none, df.setData i.toNat none)
              | none => return (none, df.setData i.toNat none)
          else if bytes.length ≠ dataSize.toNat then return (none, df.setData i.toNat none)
          else return (some bytes, df.setData i.toNat (some bytes))

end CDatafile

end DDNet
