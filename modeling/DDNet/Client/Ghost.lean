/-
Ghost files (`engine/client/ghost.cpp`).

A recorder collects items of one type in a chunk, each as the difference to the one before.  A chunk is packed into
variable-length ints, these are compressed, and the chunk is written into the file.  A loader goes the other way.  The
header of the file, which both handle apart from the chunks, is left out.
-/
import DDNet.Shared.IntArray
import DDNet.Shared.HuffmanRoundTrip

namespace DDNet

/-! ### Items -/

/-- The ints of an item or of the buffer of a chunk; sizes are in ints. -/
def maxItemSize : ℕ := 128 / 4

def numItemsPerChunk : ℕ := 50

/-- The size of `m_aBuffer`, `s_aBuffer` and the like in bytes. -/
def ghostBufferSize : ℕ := 4 * maxItemSize * numItemsPerChunk

structure CGhostItem where
  data : List (BitVec 32)
  type : ℤ

namespace CGhostItem

def reset (item : CGhostItem) : CGhostItem := { item with type := -1 }

end CGhostItem

/-- `CNetBase::Compress` and `CNetBase::Decompress`. -/
def ghostNodes : CHuffman.Nodes := CHuffman.constructTree CHuffman.defaultFrequencies

/-! ### Recorder -/

structure CGhostRecorder where
  file : List UInt8
  lastItem : CGhostItem
  /-- The ints of `m_aBuffer` before `m_pBufferPos`. -/
  buffer : List (BitVec 32)
  numItems : ℕ

namespace CGhostRecorder

/-- `Start`. -/
def start : CGhostRecorder := ⟨[], ⟨[], -1⟩, [], 0⟩

/-- The four bytes before a chunk. -/
def chunkHeader (type : ℤ) (numItems size : ℕ) : List UInt8 :=
  [UInt8.ofNat (type % 256).toNat, UInt8.ofNat numItems, UInt8.ofNat (size / 256), UInt8.ofNat size]

/-- `FlushChunk`; what does not fit when it is compressed stays in the buffer. -/
def flushChunk (r : CGhostRecorder) : CGhostRecorder :=
  if r.buffer = [] then r
  else
    match CVariableInt.compress r.buffer ghostBufferSize with
    | none => r
    | some packed =>
        match CHuffman.compress ghostNodes packed ghostBufferSize with
        | (_, false) => r
        | (compressed, true) =>
            { file := r.file ++ chunkHeader r.lastItem.type r.numItems compressed.length ++ compressed
              lastItem := r.lastItem.reset
              buffer := []
              numItems := 0 }

/-- `WriteData`; `none` if this leaves the buffer. -/
def writeData (r : CGhostRecorder) (type : ℤ) (data : List (BitVec 32)) : Option CGhostRecorder :=
  if maxItemSize < data.length ∨ data.length = 0 ∨ type = -1 then some r
  else
    let r' := if r.lastItem.type = type then r else r.flushChunk
    let stored := if r.lastItem.type = type then diffItem r.lastItem.data data else data
    if ghostBufferSize < 4 * (r'.buffer.length + stored.length) then none
    else
      let next := { r' with lastItem := ⟨data, type⟩, buffer := r'.buffer ++ stored, numItems := r'.numItems + 1 }
      some (if numItemsPerChunk ≤ next.numItems then next.flushChunk else next)

/-- The calls of `WriteData`, and `Stop`. -/
def record (r : CGhostRecorder) : List (ℤ × List (BitVec 32)) → Option (List UInt8)
  | [] => some r.flushChunk.file
  | (type, data) :: items => (r.writeData type data).bind fun r => r.record items

end CGhostRecorder

/-! ### Loader -/

structure CGhostLoader where
  /-- What has not been read. -/
  file : List UInt8
  lastItem : CGhostItem
  /-- The ints of `m_aBuffer`; what a chunk does not overwrite stays. -/
  buffer : List (BitVec 32)
  bufferPos : ℕ
  numItems : ℕ
  curItem : ℕ
  prevItem : ℤ

namespace CGhostLoader

/-- `Load`; the ints of the buffer are not initialized. -/
def load (file : List UInt8) (buffer : List (BitVec 32)) : CGhostLoader := ⟨file, ⟨[], -1⟩, buffer, 0, 0, 0, -1⟩

/-- `ResetBuffer`. -/
def resetBuffer (l : CGhostLoader) : CGhostLoader := { l with bufferPos := 0, numItems := 0, curItem := 0, prevItem := -1 }

/-- Both steps of the decompression. -/
def decompressChunk (data : List UInt8) : Option (List (BitVec 32)) :=
  (CHuffman.decompress ghostNodes data ghostBufferSize).bind fun packed =>
    CVariableInt.decompress packed (ghostBufferSize / 4)

/-- `ReadChunk` behind the header. -/
def readChunkData (l : CGhostLoader) (type : ℤ) (size : ℕ) : CGhostLoader × Option ℤ :=
  if ghostBufferSize < size ∨ size = 0 then (l, none)
  else if l.file.length < size then ({ l with file := [] }, none)
  else
    match decompressChunk (l.file.take size) with
    | none => ({ l with file := l.file.drop size }, none)
    | some ints =>
        ({ l with file := l.file.drop size, buffer := ints ++ l.buffer.drop ints.length }, some type)

/-- `ReadChunk` in a file of the current version: the type of the chunk, `none` for `-1`. -/
def readChunk (l : CGhostLoader) : CGhostLoader × Option ℤ :=
  let l := resetBuffer { l with lastItem := l.lastItem.reset }
  match l.file with
  | type :: numItems :: high :: low :: rest =>
      readChunkData { l with file := rest, numItems := numItems.toNat } type.toNat (high.toNat * 256 + low.toNat)
  | _ => ({ l with file := [] }, none)

/-- `ReadNextType`; `none` for `false`. -/
def readNextType (l : CGhostLoader) : CGhostLoader × Option ℤ :=
  let r := if (l.curItem : ℤ) ≠ l.prevItem ∧ l.curItem < l.numItems then (l, some l.lastItem.type) else l.readChunk
  match r.2 with
  | none => r
  | some type => ({ r.1 with prevItem := r.1.curItem }, some type)

/-- `ReadData`; `none` if it returns `false` or reads behind the buffer. -/
def readData (l : CGhostLoader) (type : ℤ) (size : ℕ) : Option (CGhostLoader × List (BitVec 32)) :=
  if maxItemSize < size ∨ size = 0 ∨ type = -1 ∨ ghostBufferSize < 4 * (l.bufferPos + size) then none
  else
    let stored := (l.buffer.drop l.bufferPos).take size
    let data := if l.lastItem.type = type then undiffItem l.lastItem.data stored else stored
    some ({ l with lastItem := ⟨data, type⟩, bufferPos := l.bufferPos + size, curItem := l.curItem + 1 }, data)

/-- Read items until there are no more, in at most `n` calls of `ReadNextType`. -/
def readAll (size : ℤ → ℕ) : ℕ → CGhostLoader → Option (List (ℤ × List (BitVec 32)))
  | 0, _ => none
  | n + 1, l =>
      match l.readNextType with
      | (_, none) => some []
      | (l, some type) =>
          (l.readData type (size type)).bind fun r => (readAll size n r.1).map ((type, r.2) :: ·)

end CGhostLoader

/-! ### Round trip -/

/-- What is recorded is read back, and no buffer is left. -/
def GhostRoundTrips (size : ℤ → ℕ) (items : List (ℤ × List (BitVec 32))) : Prop :=
  ∃ file, CGhostRecorder.start.record items = some file ∧
    ∀ buffer, buffer.length = ghostBufferSize / 4 → ∃ n, (CGhostLoader.load file buffer).readAll size n = some items

end DDNet
