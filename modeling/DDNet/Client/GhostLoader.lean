/-
What a ghost loader reads, and the round trip.

Between two chunks the loader has read all items of the buffer (`CGhostLoader.AtEnd`); within a chunk the rest of the buffer
is the differences of the rest of the items (`CGhostLoader.Within`).
-/
import DDNet.Client.GhostRecorder

namespace DDNet

/-! ### A chunk of the file -/

lemma ghostBytes_cons (chunk : List GhostItem) (chunks : List (List GhostItem)) : ghostBytes (chunk :: chunks) =
    ghostChunkBytes ((chunk.head?.map Prod.fst).getD (-1)) chunk.length (deltas chunk) ++ ghostBytes chunks := rfl

lemma ghostNodes_roundTrips : CHuffman.RoundTrips ghostNodes := by
  rw [ghostNodes]
  exact CHuffman.roundTrips_default

lemma length_ghostCompressed_le (ints : List (BitVec 32)) : (ghostCompressed ints).length ≤ ghostBufferSize := by
  rw [ghostCompressed]
  exact (ghostNodes_roundTrips _ _ ghostBufferSize_pos).1

/-- What fits is decompressed. -/
lemma decompress_ghostCompressed {ints : List (BitVec 32)} (hfits : GhostFits ints) :
    CHuffman.decompress ghostNodes (ghostCompressed ints) ghostBufferSize = some (CVariableInt.packedInts ints) := by
  rw [ghostCompressed]
  exact (ghostNodes_roundTrips _ _ ghostBufferSize_pos).2 ((compress_ghost_iff hfits.1).mpr hfits.2) _ hfits.1

lemma length_ghostCompressed_pos {ints : List (BitVec 32)} (hfits : GhostFits ints) : 0 < (ghostCompressed ints).length := by
  rw [ghostCompressed]
  exact CHuffman.length_compress_pos ((compress_ghost_iff hfits.1).mpr hfits.2)

namespace CGhostLoader

variable {size : ℤ → ℕ} {l : CGhostLoader}

/-- The loader with a chunk in its buffer. -/
def loaded (l : CGhostLoader) (file : List UInt8) (ints : List (BitVec 32)) (numItems : ℕ) : CGhostLoader where
  file := file
  lastItem := l.lastItem.reset
  buffer := ints ++ l.buffer.drop ints.length
  bufferPos := 0
  numItems := numItems
  curItem := 0
  prevItem := -1

lemma readChunk_eq {type : ℤ} (htype : 0 ≤ type ∧ type ≤ 255) {numItems : ℕ} (hnum : numItems ≤ numItemsPerChunk)
    {ints : List (BitVec 32)} (hfits : GhostFits ints) (hints : 4 * ints.length ≤ ghostBufferSize) {rest : List UInt8}
    (hfile : l.file = ghostChunkBytes type numItems ints ++ rest) :
    l.readChunk = (l.loaded rest ints numItems, some type) := by
  have hle := length_ghostCompressed_le ints
  have hpos := length_ghostCompressed_pos hfits
  have hsize : (UInt8.ofNat ((ghostCompressed ints).length / 256)).toNat * 256 +
      (UInt8.ofNat (ghostCompressed ints).length).toNat = (ghostCompressed ints).length := by
    rw [ghostBufferSize, maxItemSize, numItemsPerChunk] at hle
    simp only [UInt8.toNat_ofNat']
    omega
  have hnumItems : (UInt8.ofNat numItems).toNat = numItems := by
    rw [numItemsPerChunk] at hnum
    simp only [UInt8.toNat_ofNat']
    omega
  have htype' : ((UInt8.ofNat (type % 256).toNat).toNat : ℤ) = type := by
    simp only [UInt8.toNat_ofNat']
    omega
  have hdecompress : decompressChunk (ghostCompressed ints) = some ints := by
    have hints' : ints.length ≤ ghostBufferSize / 4 := by omega
    rw [decompressChunk, decompress_ghostCompressed hfits, Option.bind_some, CVariableInt.decompress_packedInts hints']
  have hdata : l.readChunk = readChunkData { resetBuffer { l with lastItem := l.lastItem.reset } with
      file := ghostCompressed ints ++ rest, numItems := numItems } type (ghostCompressed ints).length := by
    rw [ghostChunkBytes, CGhostRecorder.chunkHeader, List.append_assoc] at hfile
    rw [← hsize, ← hnumItems, ← htype', readChunk, resetBuffer, hfile]
    rfl
  rw [hdata, readChunkData, if_neg (by omega), if_neg (by rw [List.length_append]; omega), List.take_left', List.drop_left',
    hdecompress]
  · rfl
  · rfl
  · rfl

lemma readChunk_nil (hfile : l.file = []) : l.readChunk.2 = none := by
  rw [readChunk, resetBuffer, hfile]

/-! ### Items of a chunk -/

/-- The next item is in a chunk that has not been read. -/
def AtEnd (l : CGhostLoader) : Prop := ¬ ((l.curItem : ℤ) ≠ l.prevItem ∧ l.curItem < l.numItems)

/-- After the item `past` the items `rest` of the chunk are to be read. -/
structure Within (l : CGhostLoader) (past : GhostItem) (rest : List GhostItem) : Prop where
  lastItem : l.lastItem = ⟨past.2, past.1⟩
  buffer : ∃ stale, l.buffer.drop l.bufferPos = deltasFrom past.2 rest ++ stale
  length : l.buffer.length = ghostBufferSize / 4
  numItems : l.curItem + rest.length = l.numItems
  prevItem : l.prevItem < l.curItem

lemma Within.atEnd {past : GhostItem} (h : l.Within past []) : l.AtEnd := by
  have hnum := h.numItems
  rw [List.length_nil] at hnum
  rintro ⟨-, hlt⟩
  omega

/-- `ReadNextType` has been called. -/
def typed (l : CGhostLoader) : CGhostLoader := { l with prevItem := l.curItem }

lemma Within.readNextType {past item : GhostItem} {rest : List GhostItem} (h : l.Within past (item :: rest)) :
    l.readNextType = (l.typed, some past.1) := by
  have hnum := h.numItems
  have hprev := h.prevItem
  rw [List.length_cons] at hnum
  rw [CGhostLoader.readNextType, if_pos ⟨by omega, by omega⟩, h.lastItem]
  rfl

/-- The loader after an item. -/
def next (l : CGhostLoader) (item : GhostItem) (n : ℕ) : CGhostLoader :=
  { l with lastItem := ⟨item.2, item.1⟩, bufferPos := l.bufferPos + n, curItem := l.curItem + 1 }

/-- An item is read from its ints in the buffer. -/
lemma readData_eq {item : GhostItem} (hitem : GhostValid size item) {stored stale : List (BitVec 32)}
    (hbuffer : l.buffer.drop l.bufferPos = stored ++ stale) (hstored : stored.length = size item.1)
    (hlength : l.buffer.length = ghostBufferSize / 4)
    (hdata : (if l.lastItem.type = item.1 then undiffItem l.lastItem.data stored else stored) = item.2) :
    l.readData item.1 (size item.1) = some (l.next item (size item.1), item.2) := by
  have hsize := hitem.size
  have htype := hitem.type
  have hroom := congrArg List.length hbuffer
  rw [List.length_drop, List.length_append, hstored, hlength] at hroom
  have htake : (l.buffer.drop l.bufferPos).take (size item.1) = stored := by
    rw [hbuffer, ← hstored, List.take_left]
  have hguard : ¬ (maxItemSize < size item.1 ∨ size item.1 = 0 ∨ item.1 = -1 ∨
      ghostBufferSize < 4 * (l.bufferPos + size item.1)) := by
    rw [ghostBufferSize, maxItemSize, numItemsPerChunk] at *
    omega
  rw [CGhostLoader.readData, if_neg hguard]
  simp only [htake, hdata]
  rfl

/-- The next item of a chunk. -/
lemma Within.readData {past item : GhostItem} {rest : List GhostItem} (h : l.Within past (item :: rest))
    (hpast : GhostValid size past) (hitem : GhostValid size item) (htype : past.1 = item.1) :
    l.typed.readData past.1 (size past.1) = some (l.typed.next item (size item.1), item.2) ∧
      (l.typed.next item (size item.1)).Within item rest := by
  obtain ⟨stale, hbuffer⟩ := h.buffer
  have hlengths : past.2.length = item.2.length := by rw [hpast.length, hitem.length, htype]
  have hstored : (diffItem past.2 item.2).length = size item.1 := by rw [length_diffItem hlengths, hitem.length]
  rw [deltasFrom, List.append_assoc] at hbuffer
  constructor
  · rw [htype]
    refine readData_eq hitem (l := l.typed) hbuffer hstored h.length ?_
    have hlast : l.typed.lastItem = ⟨past.2, past.1⟩ := h.lastItem
    rw [hlast, if_pos htype, undiffItem_diffItem hlengths]
  · have hnum := h.numItems
    rw [List.length_cons] at hnum
    refine ⟨rfl, ⟨stale, ?_⟩, h.length, ?_, ?_⟩
    · show l.buffer.drop (l.bufferPos + size item.1) = deltasFrom item.2 rest ++ stale
      rw [← List.drop_drop, hbuffer, ← hstored, List.drop_left]
    · show l.curItem + 1 + rest.length = l.numItems
      omega
    · show (l.curItem : ℤ) < ((l.curItem + 1 : ℕ) : ℤ)
      omega

/-- The first item of the next chunk. -/
lemma AtEnd.readNextType (h : l.AtEnd) {first : GhostItem} {rest : List GhostItem} (hrun : GhostRun size (first :: rest))
    (hfits : GhostFits (deltas (first :: rest))) {chunks : List (List GhostItem)}
    (hfile : l.file = ghostBytes ((first :: rest) :: chunks)) :
    l.readNextType = ((l.loaded (ghostBytes chunks) (deltas (first :: rest)) (rest.length + 1)).typed, some first.1) := by
  have hfirst := hrun.valid first (by simp)
  have hchunk : l.readChunk = (l.loaded (ghostBytes chunks) (deltas (first :: rest)) (rest.length + 1), some first.1) :=
    readChunk_eq hfirst.type hrun.length hfits hrun.length_deltas hfile
  rw [CGhostLoader.readNextType, if_neg h, hchunk]
  rfl

lemma readData_first {first : GhostItem} {rest : List GhostItem} (hrun : GhostRun size (first :: rest))
    (hlength : l.buffer.length = ghostBufferSize / 4) (file : List UInt8) :
    (l.loaded file (deltas (first :: rest)) (rest.length + 1)).typed.readData first.1 (size first.1) =
        some ((l.loaded file (deltas (first :: rest)) (rest.length + 1)).typed.next first (size first.1), first.2) ∧
      ((l.loaded file (deltas (first :: rest)) (rest.length + 1)).typed.next first (size first.1)).Within first rest := by
  have hfirst := hrun.valid first (by simp)
  have htype := hfirst.type
  have hdeltas := hrun.length_deltas
  have hbuffer : (l.loaded file (deltas (first :: rest)) (rest.length + 1)).typed.buffer =
      first.2 ++ (deltasFrom first.2 rest ++ l.buffer.drop (deltas (first :: rest)).length) := List.append_assoc _ _ _
  have hlength' : (l.loaded file (deltas (first :: rest)) (rest.length + 1)).typed.buffer.length = ghostBufferSize / 4 := by
    show (deltas (first :: rest) ++ l.buffer.drop (deltas (first :: rest)).length).length = _
    rw [List.length_append, List.length_drop, hlength]
    omega
  constructor
  · refine readData_eq hfirst hbuffer hfirst.length hlength' ?_
    have hreset : (l.loaded file (deltas (first :: rest)) (rest.length + 1)).typed.lastItem.type = -1 := rfl
    rw [hreset, if_neg (by omega)]
  · refine ⟨rfl, ⟨l.buffer.drop (deltas (first :: rest)).length, ?_⟩, hlength', ?_, ?_⟩
    · show List.drop (0 + size first.1) _ = _
      rw [Nat.zero_add]
      show List.drop (size first.1) (l.loaded file (deltas (first :: rest)) (rest.length + 1)).typed.buffer = _
      rw [hbuffer, ← hfirst.length, List.drop_left]
    · show 0 + 1 + rest.length = rest.length + 1
      omega
    · show (0 : ℤ) < ((0 + 1 : ℕ) : ℤ)
      omega

/-! ### Whole files -/

/-- Chunks as the recorder writes them. -/
def ReadableChunks (size : ℤ → ℕ) (chunks : List (List GhostItem)) : Prop :=
  ∀ chunk ∈ chunks, (chunk ≠ [] ∧ GhostRun size chunk) ∧ GhostFits (deltas chunk)

/-- The rest of a chunk, and the chunks behind it. -/
lemma readAll_within {chunks : List (List GhostItem)}
    (hchunks : ∀ (l : CGhostLoader) (n : ℕ), l.AtEnd → l.file = ghostBytes chunks →
      l.buffer.length = ghostBufferSize / 4 → chunks.flatten.length < n → l.readAll size n = some chunks.flatten)
    {past : GhostItem} {rest : List GhostItem} (h : l.Within past rest) (hfile : l.file = ghostBytes chunks)
    (hvalid : ∀ item ∈ past :: rest, GhostValid size item)
    (htype : ∀ item ∈ past :: rest, ∀ item' ∈ past :: rest, item.1 = item'.1) {n : ℕ}
    (hn : rest.length + chunks.flatten.length < n) : l.readAll size n = some (rest ++ chunks.flatten) := by
  induction rest generalizing l past n with
  | nil =>
    rw [List.length_nil, Nat.zero_add] at hn
    exact hchunks l n h.atEnd hfile h.length hn
  | cons item rest ih =>
    obtain ⟨n, rfl⟩ := Nat.exists_eq_succ_of_ne_zero (Nat.ne_of_gt (Nat.zero_lt_of_lt hn))
    have hsame := htype past (by simp) item (by simp)
    obtain ⟨hread, hnext⟩ := h.readData (hvalid past (by simp)) (hvalid item (by simp)) hsame
    rw [List.length_cons] at hn
    have hrest := ih hnext hfile (fun x hx => hvalid x (List.mem_cons_of_mem _ hx))
      (fun x hx y hy => htype x (List.mem_cons_of_mem _ hx) y (List.mem_cons_of_mem _ hy)) (n := n) (by omega)
    rw [hsame] at hread
    rw [readAll, h.readNextType]
    simp only [hsame, hread, Option.bind_some, hrest, Option.map_some]
    rfl

lemma readAll_chunks {chunks : List (List GhostItem)} (hchunks : ReadableChunks size chunks) (hend : l.AtEnd)
    (hfile : l.file = ghostBytes chunks) (hlength : l.buffer.length = ghostBufferSize / 4) {n : ℕ}
    (hn : chunks.flatten.length < n) : l.readAll size n = some chunks.flatten := by
  induction chunks generalizing l n with
  | nil =>
    obtain ⟨n, rfl⟩ := Nat.exists_eq_succ_of_ne_zero (Nat.ne_of_gt hn)
    have hnone : l.readNextType.2 = none := by
      rw [CGhostLoader.readNextType, if_neg hend, readChunk_nil hfile]
      exact readChunk_nil hfile
    rw [readAll]
    rcases hnext : l.readNextType with ⟨l', type⟩
    rw [hnext] at hnone
    simp only at hnone
    rw [hnone]
    rfl
  | cons chunk chunks ih =>
    obtain ⟨n, rfl⟩ := Nat.exists_eq_succ_of_ne_zero (Nat.ne_of_gt (Nat.zero_lt_of_lt hn))
    obtain ⟨⟨hne, hrun⟩, hfits⟩ := hchunks chunk (by simp)
    cases chunk with
    | nil => exact absurd rfl hne
    | cons first rest =>
      have hbehind : ReadableChunks size chunks := fun c hc => hchunks c (List.mem_cons_of_mem _ hc)
      obtain ⟨hread, hwithin⟩ := readData_first hrun hlength (ghostBytes chunks)
      rw [List.flatten_cons, List.length_append, List.length_cons] at hn
      have hrest := readAll_within (fun l n hl hf hb hm => ih hbehind hl hf hb hm) hwithin rfl hrun.valid hrun.type
        (n := n) (by omega)
      rw [readAll, hend.readNextType hrun hfits hfile]
      simp only [hread, Option.bind_some, hrest, Option.map_some]
      rfl

/-- More calls than enough read the same. -/
lemma readAll_succ {n : ℕ} {items : List GhostItem} (h : l.readAll size n = some items) :
    l.readAll size (n + 1) = some items := by
  induction n generalizing l items with
  | zero => exact nomatch h
  | succ n ih =>
    rw [readAll] at h ⊢
    rcases hnext : l.readNextType with ⟨l', type⟩
    rw [hnext] at h
    cases type with
    | none => exact h
    | some type =>
      simp only at h ⊢
      obtain ⟨⟨l'', data⟩, hread, hrest⟩ := Option.bind_eq_some_iff.mp h
      obtain ⟨rest, hall, rfl⟩ := Option.map_eq_some_iff.mp hrest
      rw [hread, Option.bind_some]
      simp only
      rw [ih hall]
      rfl

lemma readAll_mono {n m : ℕ} (hle : n ≤ m) {items : List GhostItem} (h : l.readAll size n = some items) :
    l.readAll size m = some items := by
  induction hle with
  | refl => exact h
  | step _ ih => exact readAll_succ ih

/-- What the file of some chunks is read as. -/
lemma readAll_load {chunks : List (List GhostItem)} (hchunks : ReadableChunks size chunks) {buffer : List (BitVec 32)}
    (hbuffer : buffer.length = ghostBufferSize / 4) {items : List GhostItem} :
    (∃ n, (load (ghostBytes chunks) buffer).readAll size n = some items) ↔ items = chunks.flatten := by
  have hend : (load (ghostBytes chunks) buffer).AtEnd := fun hbad => absurd hbad.2 (Nat.lt_irrefl 0)
  constructor
  · rintro ⟨n, hn⟩
    have hall := readAll_chunks hchunks hend rfl hbuffer (n := n + chunks.flatten.length + 1) (by omega)
    rw [readAll_mono (by omega) hn] at hall
    exact Option.some.inj hall
  · rintro rfl
    exact ⟨_, readAll_chunks hchunks hend rfl hbuffer (Nat.lt_succ_self _)⟩

end CGhostLoader

/-! ### The round trip -/

section roundTrip

variable {size : ℤ → ℕ} {items : List GhostItem}

lemma ghostChunks_wf (hitems : ∀ item ∈ items, GhostValid size item) :
    (items.foldl GhostChunks.add ([], [])).Wf size := by
  refine GhostChunks.Wf.foldl ⟨fun _ hbad => absurd hbad List.not_mem_nil, GhostChunks.ghostRun_nil, ?_⟩ hitems
  simp [numItemsPerChunk]

lemma flatten_ghostChunks (items : List GhostItem) : (ghostChunks items).flatten = items := by
  rw [ghostChunks, GhostChunks.flatten_finish_foldl]
  rfl

lemma record_cases (hitems : ∀ item ∈ items, GhostValid size item) :
    GhostAllFit (ghostChunks items) ∧ CGhostRecorder.start.record items = some (ghostBytes (ghostChunks items)) ∨
    ¬ GhostAllFit (ghostChunks items) ∧ (CGhostRecorder.start.record items = none ∨ ∃ done chunk, chunk ≠ [] ∧
      done ++ [chunk] <+: ghostChunks items ∧ GhostAllFit done ∧
      CGhostRecorder.start.record items = some (ghostBytes done)) := by
  refine CGhostRecorder.holds_start.record ?_ (fun _ hbad => absurd hbad List.not_mem_nil) hitems
  refine ⟨fun _ hbad => absurd hbad List.not_mem_nil, GhostChunks.ghostRun_nil, ?_⟩
  simp [numItemsPerChunk]

lemma ghostRoundTrips_of_allFit (hitems : ∀ item ∈ items, GhostValid size item) (hfit : GhostAllFit (ghostChunks items)) :
    GhostRoundTrips size items := by
  obtain ⟨-, hrecord⟩ | ⟨hbad, -⟩ := record_cases hitems
  · refine ⟨_, hrecord, fun buffer hbuffer => ?_⟩
    rw [CGhostLoader.readAll_load _ hbuffer]
    · exact (flatten_ghostChunks items).symm
    · exact fun chunk hchunk => ⟨(ghostChunks_wf hitems).finish chunk hchunk, hfit chunk hchunk⟩
  · exact absurd hfit hbad

/-- The items of a chunk that does not fit are missing in the file. -/
lemma allFit_of_ghostRoundTrips (hitems : ∀ item ∈ items, GhostValid size item) (h : GhostRoundTrips size items) :
    GhostAllFit (ghostChunks items) := by
  obtain ⟨file, hfile, hread⟩ := h
  obtain ⟨hfit, -⟩ | ⟨-, hnone | ⟨done, chunk, hne, hbegin, hfit, hdone⟩⟩ := record_cases hitems
  · exact hfit
  · rw [hfile] at hnone
    exact nomatch hnone
  · rw [hfile] at hdone
    obtain rfl := Option.some.inj hdone
    have hread := hread (List.replicate (ghostBufferSize / 4) 0) List.length_replicate
    rw [CGhostLoader.readAll_load _ List.length_replicate] at hread
    · obtain ⟨more, hmore⟩ := hbegin
      have hlength := congrArg List.length (flatten_ghostChunks items)
      have hpos := List.length_pos_iff.mpr hne
      rw [← hmore, List.flatten_append, List.flatten_append, ← hread] at hlength
      simp only [List.length_append, List.flatten_cons, List.flatten_nil, List.append_nil] at hlength
      omega
    · intro c hc
      exact ⟨(ghostChunks_wf hitems).finish c (hbegin.subset (List.mem_append_left _ hc)), hfit c hc⟩

/-- A recording is read back if and only if each of its chunks fits into the buffers. -/
theorem ghost_roundTrips_iff (hitems : ∀ item ∈ items, GhostValid size item) :
    GhostRoundTrips size items ↔ GhostAllFit (ghostChunks items) :=
  ⟨allFit_of_ghostRoundTrips hitems, ghostRoundTrips_of_allFit hitems⟩

end roundTrip

/-- Few bytes fit, whatever they are. -/
lemma ghostFits_of_length_le {ints : List (BitVec 32)} (h : (CVariableInt.packedInts ints).length ≤ 2000) :
    GhostFits ints := by
  obtain ⟨-, h22⟩ := ghostNodes_table
  have hsum := CHuffman.sum_numBits_le ghostNodes h22 (CVariableInt.packedInts ints)
  have hsize : ghostBufferSize = 6400 := rfl
  constructor
  · omega
  · omega

/-- Two items of one type and one of another. -/
def fewItems : List GhostItem := [(0, [1, 2]), (0, [3, -4]), (5, [7])]

def fewSizes (type : ℤ) : ℕ := if type = 0 then 2 else 1

theorem fewItems_roundTrips : GhostRoundTrips fewSizes fewItems := by
  have hvalid : ∀ item ∈ fewItems, GhostValid fewSizes item := by
    intro item hitem
    simp only [fewItems, List.mem_cons, List.not_mem_nil, or_false] at hitem
    obtain rfl | rfl | rfl := hitem <;> exact ⟨by decide, rfl, by decide⟩
  refine (ghost_roundTrips_iff hvalid).mpr fun chunk hchunk => ghostFits_of_length_le ?_
  have hchunks : ghostChunks fewItems = [[(0, [1, 2]), (0, [3, -4])], [(5, [7])]] := by decide +kernel
  rw [hchunks] at hchunk
  simp only [List.mem_cons, List.not_mem_nil, or_false] at hchunk
  obtain rfl | rfl := hchunk <;> decide +kernel

/-- Fifty items of the full size that differ by large numbers. -/
def wideItems : List GhostItem :=
  (List.range 50).map fun k => (0, List.replicate 32 (if k % 2 = 0 then 0x40000000#32 else 0#32))

theorem not_wideItems_roundTrips : ¬ GhostRoundTrips (fun _ => 32) wideItems := by
  have hvalid : ∀ item ∈ wideItems, GhostValid (fun _ => 32) item := by
    intro item hitem
    obtain ⟨k, -, rfl⟩ := List.mem_map.mp hitem
    exact ⟨⟨le_refl 0, by norm_num⟩, List.length_replicate, ⟨by norm_num, le_refl 32⟩⟩
  have hchunks : ghostChunks wideItems = [wideItems] := by decide +kernel
  have hlong : ghostBufferSize < (CVariableInt.packedInts (deltas wideItems)).length := by decide +kernel
  intro hbad
  have hfit := allFit_of_ghostRoundTrips hvalid hbad wideItems (by rw [hchunks]; simp)
  exact absurd hfit.1 (not_le.mpr hlong)

end DDNet
