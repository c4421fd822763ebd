/-
The chunks of a ghost file.

A chunk is a run of items of one type, cut after fifty of them.  What the recorder has written is a row of chunks, and what
it holds is the chunk that is not finished (`CGhostRecorder.Holds`).  A chunk that does not fit into the buffers when it is
compressed is never written, and nothing behind it either (`CGhostRecorder.Stalled`).
-/
import DDNet.Client.Ghost

namespace DDNet

open Lib

/-- The type of an item and its ints. -/
abbrev GhostItem := ℤ × List (BitVec 32)

/-! ### Chunks -/

/-- Finished chunks, and the items of the next one. -/
abbrev GhostChunks := List (List GhostItem) × List GhostItem

/-- An item of another type finishes the chunk before it, and the fiftieth one its own. -/
def GhostChunks.add (s : GhostChunks) (item : GhostItem) : GhostChunks :=
  let s' := if s.2.all fun past => past.1 = item.1 then s else (s.1 ++ [s.2], [])
  if numItemsPerChunk ≤ s'.2.length + 1 then (s'.1 ++ [s'.2 ++ [item]], []) else (s'.1, s'.2 ++ [item])

def GhostChunks.finish (s : GhostChunks) : List (List GhostItem) := if s.2 = [] then s.1 else s.1 ++ [s.2]

def ghostChunks (items : List GhostItem) : List (List GhostItem) := GhostChunks.finish (items.foldl GhostChunks.add ([], []))

/-- The differences of items to the ones before them. -/
def deltasFrom (past : List (BitVec 32)) : List GhostItem → List (BitVec 32)
  | [] => []
  | item :: items => diffItem past item.2 ++ deltasFrom item.2 items

/-- The ints of a chunk. -/
def deltas : List GhostItem → List (BitVec 32)
  | [] => []
  | item :: items => item.2 ++ deltasFrom item.2 items

/-- The ints fit into the buffers, as variable-length ints and after these have been compressed. -/
def GhostFits (ints : List (BitVec 32)) : Prop :=
  (CVariableInt.packedInts ints).length ≤ ghostBufferSize ∧
    ((CHuffman.symbolsOf (CVariableInt.packedInts ints)).map (CHuffman.numBits ghostNodes)).sum / 8 < ghostBufferSize

/-- Items as the game records them. -/
structure GhostValid (size : ℤ → ℕ) (item : GhostItem) : Prop where
  type : 0 ≤ item.1 ∧ item.1 ≤ 255
  length : item.2.length = size item.1
  size : 1 ≤ size item.1 ∧ size item.1 ≤ maxItemSize

/-- A run of items of one type. -/
structure GhostRun (size : ℤ → ℕ) (items : List GhostItem) : Prop where
  valid : ∀ item ∈ items, GhostValid size item
  type : ∀ item ∈ items, ∀ item' ∈ items, item.1 = item'.1
  length : items.length ≤ numItemsPerChunk

/-! ### Differences -/

lemma deltasFrom_append_singleton (past : List (BitVec 32)) (items : List GhostItem) (item : GhostItem) :
    deltasFrom past (items ++ [item]) =
      deltasFrom past items ++ diffItem ((items.getLast?.map Prod.snd).getD past) item.2 := by
  induction items generalizing past with
  | nil => simp [deltasFrom]
  | cons first items ih =>
    rw [List.cons_append, deltasFrom, deltasFrom, ih, List.append_assoc, List.getLast?_cons]
    cases items.getLast? <;> rfl

lemma deltas_append_singleton (items : List GhostItem) (item : GhostItem) :
    deltas (items ++ [item]) = deltas items ++
      match items.getLast? with
      | none => item.2
      | some past => diffItem past.2 item.2 := by
  cases items with
  | nil => simp [deltas, deltasFrom]
  | cons first items =>
    rw [List.cons_append, deltas, deltas, deltasFrom_append_singleton, List.append_assoc, List.getLast?_cons]
    cases items.getLast? <;> rfl

section size

variable {size : ℤ → ℕ}

lemma length_deltasFrom {type : ℤ} {past : List (BitVec 32)} {items : List GhostItem} (hpast : past.length = size type)
    (hitems : ∀ item ∈ items, item.2.length = size type) : (deltasFrom past items).length = items.length * size type := by
  induction items generalizing past with
  | nil => simp [deltasFrom]
  | cons item items ih =>
    have hitem := hitems item (by simp)
    rw [deltasFrom, List.length_append, length_diffItem (hpast.trans hitem.symm), hitem,
      ih hitem fun item' h => hitems item' (List.mem_cons_of_mem _ h), List.length_cons, Nat.succ_mul, Nat.add_comm]

/-- A run fills the buffer at most. -/
lemma GhostRun.length_deltas {items : List GhostItem} (h : GhostRun size items) :
    4 * (deltas items).length ≤ ghostBufferSize := by
  cases items with
  | nil => exact Nat.zero_le _
  | cons first items =>
    have hfirst := h.valid first (by simp)
    have hsame : ∀ item ∈ items, item.2.length = size first.1 := by
      intro item hitem
      rw [(h.valid item (by simp [hitem])).length, h.type item (by simp [hitem]) first (by simp)]
    have hlength := h.length
    have hsize := hfirst.size.2
    have hall : (deltas (first :: items)).length = (items.length + 1) * size first.1 := by
      rw [deltas, List.length_append, hfirst.length, length_deltasFrom hfirst.length hsame, Nat.succ_mul, Nat.add_comm]
    have hle : (items.length + 1) * size first.1 ≤ numItemsPerChunk * maxItemSize := Nat.mul_le_mul hlength hsize
    rw [hall, ghostBufferSize]
    rw [numItemsPerChunk, maxItemSize] at hle ⊢
    omega

end size

/-! ### Cutting the items into chunks -/

/-- Finished chunks have items, and the next one has room. -/
structure GhostChunks.Wf (size : ℤ → ℕ) (s : GhostChunks) : Prop where
  finished : ∀ chunk ∈ s.1, chunk ≠ [] ∧ GhostRun size chunk
  next : GhostRun size s.2
  room : s.2.length < numItemsPerChunk

namespace GhostChunks

variable {size : ℤ → ℕ} {s : GhostChunks} {item : GhostItem}

/-- An item joins the next chunk, fills it, or finishes it as it is of another type. -/
lemma add_cases (s : GhostChunks) (item : GhostItem) :
    (∀ past ∈ s.2, past.1 = item.1) ∧ s.2.length + 1 < numItemsPerChunk ∧ s.add item = (s.1, s.2 ++ [item]) ∨
    (∀ past ∈ s.2, past.1 = item.1) ∧ numItemsPerChunk ≤ s.2.length + 1 ∧
      s.add item = (s.1 ++ [s.2 ++ [item]], []) ∨
    (∃ past ∈ s.2, past.1 ≠ item.1) ∧ s.add item = (s.1 ++ [s.2], [item]) := by
  rw [add]
  by_cases hsame : ∀ past ∈ s.2, past.1 = item.1
  · rw [if_pos (List.all_eq_true.mpr fun past hpast => decide_eq_true (hsame past hpast))]
    by_cases hfull : numItemsPerChunk ≤ s.2.length + 1
    · exact .inr (.inl ⟨hsame, hfull, if_pos hfull⟩)
    · exact .inl ⟨hsame, not_le.mp hfull, if_neg hfull⟩
  · have hother : ∃ past ∈ s.2, past.1 ≠ item.1 := by simpa using hsame
    rw [if_neg fun hbad => hsame fun past hpast => of_decide_eq_true (List.all_eq_true.mp hbad past hpast)]
    exact .inr (.inr ⟨hother, if_neg (by simp [numItemsPerChunk])⟩)

lemma Wf.run (h : s.Wf size) (hitem : GhostValid size item) (hsame : ∀ past ∈ s.2, past.1 = item.1) :
    GhostRun size (s.2 ++ [item]) where
  valid past hpast := by
    obtain hpast | hpast := List.mem_append.mp hpast
    · exact h.next.valid past hpast
    · exact List.mem_singleton.mp hpast ▸ hitem
  type := by
    have htype : ∀ past ∈ s.2 ++ [item], past.1 = item.1 := by
      intro past hpast
      obtain hpast | hpast := List.mem_append.mp hpast
      · exact hsame past hpast
      · rw [List.mem_singleton.mp hpast]
    exact fun past hpast past' hpast' => (htype past hpast).trans (htype past' hpast').symm
  length := by
    rw [List.length_append]
    exact h.room

lemma ghostRun_nil : GhostRun size [] :=
  ⟨fun _ hbad => absurd hbad List.not_mem_nil, fun _ hbad => absurd hbad List.not_mem_nil, Nat.zero_le _⟩

lemma Wf.add (h : s.Wf size) (hitem : GhostValid size item) : (s.add item).Wf size := by
  have hone : GhostRun size [item] := by
    refine ⟨fun past hpast => List.mem_singleton.mp hpast ▸ hitem, fun past hpast past' hpast' => ?_, by simp [numItemsPerChunk]⟩
    rw [List.mem_singleton.mp hpast, List.mem_singleton.mp hpast']
  obtain ⟨hsame, hroom, hadd⟩ | ⟨hsame, hfull, hadd⟩ | ⟨⟨past, hpast, -⟩, hadd⟩ := s.add_cases item
  · rw [hadd]
    refine ⟨h.finished, h.run hitem hsame, ?_⟩
    rwa [List.length_append]
  · rw [hadd]
    refine ⟨fun chunk hchunk => ?_, ghostRun_nil, by simp [numItemsPerChunk]⟩
    obtain hchunk | hchunk := List.mem_append.mp hchunk
    · exact h.finished chunk hchunk
    · rw [List.mem_singleton.mp hchunk]
      exact ⟨by simp, h.run hitem hsame⟩
  · rw [hadd]
    refine ⟨fun chunk hchunk => ?_, hone, by simp [numItemsPerChunk]⟩
    obtain hchunk | hchunk := List.mem_append.mp hchunk
    · exact h.finished chunk hchunk
    · rw [List.mem_singleton.mp hchunk]
      exact ⟨List.ne_nil_of_mem hpast, h.next⟩

lemma Wf.foldl (h : s.Wf size) {items : List GhostItem} (hitems : ∀ item ∈ items, GhostValid size item) :
    (items.foldl GhostChunks.add s).Wf size := by
  induction items generalizing s with
  | nil => exact h
  | cons item items ih =>
    exact ih (h.add (hitems item (by simp))) fun past hpast => hitems past (List.mem_cons_of_mem _ hpast)

lemma Wf.finish (h : s.Wf size) : ∀ chunk ∈ s.finish, chunk ≠ [] ∧ GhostRun size chunk := by
  intro chunk hchunk
  rw [GhostChunks.finish] at hchunk
  by_cases hnil : s.2 = []
  · rw [if_pos hnil] at hchunk
    exact h.finished chunk hchunk
  · rw [if_neg hnil] at hchunk
    obtain hchunk | hchunk := List.mem_append.mp hchunk
    · exact h.finished chunk hchunk
    · rw [List.mem_singleton.mp hchunk]
      exact ⟨hnil, h.next⟩

/-- Nothing is lost when the items are cut. -/
lemma flatten_finish_add (s : GhostChunks) (item : GhostItem) : (s.add item).finish.flatten = s.finish.flatten ++ [item] := by
  have hfinish : ∀ t : GhostChunks, t.finish.flatten = t.1.flatten ++ t.2 := by
    intro t
    rw [GhostChunks.finish]
    split_ifs with hnil
    · rw [hnil, List.append_nil]
    · simp
  rw [hfinish, hfinish]
  obtain ⟨-, -, hadd⟩ | ⟨-, -, hadd⟩ | ⟨-, hadd⟩ := s.add_cases item <;> rw [hadd] <;> simp

lemma flatten_finish_foldl (s : GhostChunks) (items : List GhostItem) :
    (items.foldl GhostChunks.add s).finish.flatten = s.finish.flatten ++ items := by
  induction items generalizing s with
  | nil => rw [List.append_nil]; rfl
  | cons item items ih => rw [List.foldl_cons, ih, flatten_finish_add, List.append_assoc, List.singleton_append]

/-- Finished chunks stay. -/
lemma prefix_finish_foldl (s : GhostChunks) (items : List GhostItem) :
    s.1 <+: (items.foldl GhostChunks.add s).finish := by
  induction items generalizing s with
  | nil =>
    rw [List.foldl_nil, GhostChunks.finish]
    split_ifs
    · exact List.prefix_rfl
    · exact List.prefix_append _ _
  | cons item items ih =>
    refine List.IsPrefix.trans ?_ (ih (s.add item))
    obtain ⟨-, -, hadd⟩ | ⟨-, -, hadd⟩ | ⟨-, hadd⟩ := s.add_cases item <;> rw [hadd]
    · exact List.prefix_append _ _
    · exact List.prefix_append _ _

end GhostChunks

/-! ### What fits -/

lemma ghostNodes_table : (∃ t, CHuffman.CodeTable ghostNodes t) ∧
    ∀ s < huffmanMaxSymbols, CHuffman.numBits ghostNodes s ≤ 22 := by
  rw [ghostNodes]
  obtain ⟨t, ht, -⟩ := CHuffman.constructTree_codeTable CHuffman.defaultFrequencies
  exact ⟨⟨t, ht⟩, fun s hs => CHuffman.numBits_default_le hs⟩

/-- More ints do not fit better. -/
lemma GhostFits.of_append {ints more : List (BitVec 32)} (h : GhostFits (ints ++ more)) : GhostFits ints := by
  obtain ⟨hints, hbits⟩ := h
  have hpacked : CVariableInt.packedInts (ints ++ more) = CVariableInt.packedInts ints ++ CVariableInt.packedInts more :=
    List.flatMap_append
  rw [hpacked] at hints hbits
  rw [List.length_append] at hints
  have hle := CHuffman.sum_numBits_le_append ghostNodes (CVariableInt.packedInts ints) (CVariableInt.packedInts more)
  exact ⟨(Nat.le_add_right _ _).trans hints, (Nat.div_le_div_right hle).trans_lt hbits⟩

/-- What `Compress` makes of a chunk. -/
def ghostCompressed (ints : List (BitVec 32)) : List UInt8 :=
  (CHuffman.compress ghostNodes (CVariableInt.packedInts ints) ghostBufferSize).1

lemma ghostBufferSize_pos : 1 ≤ ghostBufferSize := by decide

lemma compress_ghost_iff {ints : List (BitVec 32)} (h : (CVariableInt.packedInts ints).length ≤ ghostBufferSize) :
    (CHuffman.compress ghostNodes (CVariableInt.packedInts ints) ghostBufferSize).2 = true ↔
      ((CHuffman.symbolsOf (CVariableInt.packedInts ints)).map (CHuffman.numBits ghostNodes)).sum / 8 < ghostBufferSize := by
  obtain ⟨⟨t, ht⟩, h22⟩ := ghostNodes_table
  refine CHuffman.compress_ok_iff ht (fun s hs => (h22 s hs).trans (by norm_num)) ghostBufferSize_pos ?_
  have hsum := CHuffman.sum_numBits_le ghostNodes h22 (CVariableInt.packedInts ints)
  rw [ghostBufferSize, maxItemSize, numItemsPerChunk] at h
  omega

/-- The bytes of a chunk in the file. -/
def ghostChunkBytes (type : ℤ) (numItems : ℕ) (ints : List (BitVec 32)) : List UInt8 :=
  CGhostRecorder.chunkHeader type numItems (ghostCompressed ints).length ++ ghostCompressed ints

namespace CGhostRecorder

variable {r : CGhostRecorder}

lemma flushChunk_nil (h : r.buffer = []) : r.flushChunk = r := if_pos h

lemma flushChunk_of_fits (hne : r.buffer ≠ []) (hfits : GhostFits r.buffer) : r.flushChunk =
    { file := r.file ++ ghostChunkBytes r.lastItem.type r.numItems r.buffer
      lastItem := r.lastItem.reset
      buffer := []
      numItems := 0 } := by
  have hcompress : CHuffman.compress ghostNodes (CVariableInt.packedInts r.buffer) ghostBufferSize =
      (ghostCompressed r.buffer, true) := Prod.ext rfl ((compress_ghost_iff hfits.1).mpr hfits.2)
  have hpacked : CVariableInt.compress r.buffer ghostBufferSize = some (CVariableInt.packedInts r.buffer) := by
    rw [CVariableInt.compress_eq _ (Int.natCast_nonneg _)]
    exact if_pos (by exact_mod_cast hfits.1)
  rw [flushChunk, if_neg hne, hpacked]
  simp only [hcompress]
  rw [ghostChunkBytes, List.append_assoc]

/-- What does not fit stays. -/
lemma flushChunk_of_not_fits (hfits : ¬ GhostFits r.buffer) : r.flushChunk = r := by
  rw [flushChunk]
  by_cases hne : r.buffer = []
  · rw [if_pos hne]
  · rw [if_neg hne, CVariableInt.compress_eq _ (Int.natCast_nonneg _)]
    by_cases hpacked : (CVariableInt.packedInts r.buffer).length ≤ ghostBufferSize
    · have hcompress : (CHuffman.compress ghostNodes (CVariableInt.packedInts r.buffer) ghostBufferSize).2 = false := by
        rw [← Bool.not_eq_true, compress_ghost_iff hpacked]
        exact fun hbits => hfits ⟨hpacked, hbits⟩
      rw [if_pos (by exact_mod_cast hpacked)]
      rcases hw : CHuffman.compress ghostNodes (CVariableInt.packedInts r.buffer) ghostBufferSize with ⟨bytes, ok⟩
      rw [hw] at hcompress
      simp only at hcompress
      subst hcompress
      simp only [hw]
    · rw [if_neg (by exact_mod_cast hpacked)]

end CGhostRecorder

end DDNet
