/-
What a ghost recorder writes.

As long as the chunks fit, the recorder has written the finished ones and holds the items of the next one.  The first chunk
that does not fit stays in the buffer, with everything that comes after it.
-/
import DDNet.Client.GhostChunks

namespace DDNet

/-- The bytes of chunks. -/
def ghostBytes (chunks : List (List GhostItem)) : List UInt8 :=
  chunks.flatMap fun chunk => ghostChunkBytes ((chunk.head?.map Prod.fst).getD (-1)) chunk.length (deltas chunk)

lemma ghostBytes_append_singleton (chunks : List (List GhostItem)) (chunk : List GhostItem) :
    ghostBytes (chunks ++ [chunk]) =
      ghostBytes chunks ++ ghostChunkBytes ((chunk.head?.map Prod.fst).getD (-1)) chunk.length (deltas chunk) := by
  simp [ghostBytes]

/-- All chunks fit. -/
def GhostAllFit (chunks : List (List GhostItem)) : Prop := ∀ chunk ∈ chunks, GhostFits (deltas chunk)

namespace CGhostRecorder

/-- The finished chunks are written, the items of the next one are in the buffer. -/
structure Holds (r : CGhostRecorder) (s : GhostChunks) : Prop where
  file : r.file = ghostBytes s.1
  buffer : r.buffer = deltas s.2
  numItems : r.numItems = s.2.length
  lastItem : ∀ past, s.2.getLast? = some past → r.lastItem = ⟨past.2, past.1⟩
  reset : s.2 = [] → r.lastItem.type = -1

/-- Only the chunks `done` are and will be written. -/
structure Stalled (r : CGhostRecorder) (done : List (List GhostItem)) : Prop where
  file : r.file = ghostBytes done
  full : ¬ GhostFits r.buffer

variable {size : ℤ → ℕ} {r : CGhostRecorder} {s : GhostChunks} {item : GhostItem}

lemma holds_start : start.Holds ([], []) where
  file := rfl
  buffer := rfl
  numItems := rfl
  lastItem _ hbad := nomatch hbad
  reset _ := rfl

lemma deltas_ne_nil {chunk : List GhostItem} (hrun : GhostRun size chunk) (hne : chunk ≠ []) : deltas chunk ≠ [] := by
  cases chunk with
  | nil => exact absurd rfl hne
  | cons first chunk =>
    have hfirst := hrun.valid first (by simp)
    have hlength := hfirst.length
    have hsize := hfirst.size.1
    intro hnil
    have hzero := congrArg List.length hnil
    rw [deltas, List.length_append, List.length_nil] at hzero
    omega

/-- The type of a run is the one of its last item. -/
lemma Holds.type (h : r.Holds s) (hrun : GhostRun size s.2) (hne : s.2 ≠ []) :
    r.lastItem.type = (s.2.head?.map Prod.fst).getD (-1) := by
  obtain ⟨first, hfirst⟩ := Option.ne_none_iff_exists'.mp fun hnone => hne (List.head?_eq_none_iff.mp hnone)
  obtain ⟨last, hlast⟩ := Option.ne_none_iff_exists'.mp fun hnone => hne (List.getLast?_eq_none_iff.mp hnone)
  rw [h.lastItem last hlast, hfirst]
  exact hrun.type last (List.mem_of_getLast? hlast) first (List.mem_of_head? hfirst)

/-- A chunk that fits is written. -/
lemma Holds.flush (h : r.Holds s) (hrun : GhostRun size s.2) (hne : s.2 ≠ []) (hfits : GhostFits (deltas s.2)) :
    r.flushChunk.Holds (s.1 ++ [s.2], []) := by
  have hbuffer : r.buffer ≠ [] := h.buffer ▸ deltas_ne_nil hrun hne
  rw [flushChunk_of_fits hbuffer (h.buffer ▸ hfits)]
  refine ⟨?_, rfl, rfl, fun _ hbad => (nomatch hbad), fun _ => rfl⟩
  rw [ghostBytes_append_singleton, ← h.file, h.type hrun hne, h.numItems, h.buffer]

/-- What `WriteData` adds to the buffer. -/
lemma Holds.stored (h : r.Holds s) (hsame : ∀ past ∈ s.2, past.1 = item.1) (htype : item.1 ≠ -1) :
    deltas (s.2 ++ [item]) =
      deltas s.2 ++ if r.lastItem.type = item.1 then diffItem r.lastItem.data item.2 else item.2 := by
  rw [deltas_append_singleton]
  cases hlast : s.2.getLast? with
  | none =>
    have hreset := h.reset (List.getLast?_eq_none_iff.mp hlast)
    rw [if_neg (by rw [hreset]; exact htype.symm)]
  | some past =>
    rw [h.lastItem past hlast, if_pos (hsame past (List.mem_of_getLast? hlast))]

/-- The recorder after an item is put into the buffer. -/
def push (r : CGhostRecorder) (item : GhostItem) (stored : List (BitVec 32)) : CGhostRecorder :=
  { r with lastItem := ⟨item.2, item.1⟩, buffer := r.buffer ++ stored, numItems := r.numItems + 1 }

lemma writeData_eq (hitem : GhostValid size item) {r' : CGhostRecorder} {stored : List (BitVec 32)}
    (hr' : (if r.lastItem.type = item.1 then r else r.flushChunk) = r')
    (hstored : (if r.lastItem.type = item.1 then diffItem r.lastItem.data item.2 else item.2) = stored) :
    r.writeData item.1 item.2 = if ghostBufferSize < 4 * (r'.buffer.length + stored.length) then none
      else some (if numItemsPerChunk ≤ r'.numItems + 1 then (r'.push item stored).flushChunk else r'.push item stored) := by
  have hsize := hitem.size
  have hlength := hitem.length
  have htype := hitem.type
  rw [writeData, if_neg (by omega)]
  simp only [hr', hstored]
  rfl

lemma Holds.push (h : r.Holds s) {stored : List (BitVec 32)} (hstored : deltas (s.2 ++ [item]) = deltas s.2 ++ stored) :
    (r.push item stored).Holds (s.1, s.2 ++ [item]) where
  file := h.file
  buffer := by
    rw [hstored, ← h.buffer]
    rfl
  numItems := by
    rw [List.length_append, ← h.numItems]
    rfl
  lastItem past hpast := by
    rw [List.getLast?_concat] at hpast
    obtain rfl := Option.some.inj hpast
    rfl
  reset hbad := absurd hbad (by simp)

/-- An item of the same type goes behind the others. -/
lemma Holds.same (h : r.Holds s) (hsame : ∀ past ∈ s.2, past.1 = item.1) :
    (if r.lastItem.type = item.1 then r else r.flushChunk) = r := by
  cases hlast : s.2.getLast? with
  | none =>
    have hnil : r.buffer = [] := by
      rw [h.buffer, List.getLast?_eq_none_iff.mp hlast]
      rfl
    rw [flushChunk_nil hnil, ite_self]
  | some past =>
    rw [if_pos]
    rw [h.lastItem past hlast]
    exact hsame past (List.mem_of_getLast? hlast)

/-- An item of another type finishes the chunk. -/
lemma Holds.other (h : r.Holds s) (hrun : GhostRun size s.2) (hother : ∃ past ∈ s.2, past.1 ≠ item.1) :
    r.lastItem.type ≠ item.1 := by
  obtain ⟨past, hpast, hne⟩ := hother
  obtain ⟨last, hlast⟩ := Option.ne_none_iff_exists'.mp fun hnone =>
    List.ne_nil_of_mem hpast (List.getLast?_eq_none_iff.mp hnone)
  rw [h.lastItem last hlast]
  rw [hrun.type past hpast last (List.mem_of_getLast? hlast)] at hne
  exact hne

lemma push_stalled {done : List (List GhostItem)} (hfile : r.file = ghostBytes done) {stored : List (BitVec 32)}
    (hfull : ¬ GhostFits (r.buffer ++ stored)) : (if numItemsPerChunk ≤ r.numItems + 1 then
      (r.push item stored).flushChunk else r.push item stored).Stalled done := by
  have hpush : (r.push item stored).flushChunk = r.push item stored := flushChunk_of_not_fits hfull
  rw [hpush, ite_self]
  exact ⟨hfile, hfull⟩

/-- One item: the chunks that it finishes fit, or the recorder stalls. -/
lemma Holds.writeData (h : r.Holds s) (hwf : s.Wf size) (hitem : GhostValid size item) :
    (GhostAllFit s.1 → GhostAllFit (s.add item).1) ∧ (∃ r', r.writeData item.1 item.2 = some r' ∧ r'.Holds (s.add item)) ∨
    ∃ chunk, chunk ≠ [] ∧ ¬ GhostFits (deltas chunk) ∧ (s.add item).1 = s.1 ++ [chunk] ∧
      (r.writeData item.1 item.2 = none ∨ ∃ r', r.writeData item.1 item.2 = some r' ∧ r'.Stalled s.1) := by
  have htype : item.1 ≠ -1 := by
    have := hitem.type
    omega
  obtain ⟨hsame, hroom, hadd⟩ | ⟨hsame, hfull, hadd⟩ | ⟨hother, hadd⟩ := s.add_cases item
  · have hstored := h.stored hsame htype
    have hlength := (hwf.run hitem hsame).length_deltas
    rw [hstored, List.length_append, ← h.buffer] at hlength
    rw [hadd, writeData_eq hitem (h.same hsame) rfl, if_neg (not_lt.mpr hlength), h.numItems, if_neg (not_le.mpr hroom)]
    exact .inl ⟨id, _, rfl, h.push hstored⟩
  · have hstored := h.stored hsame htype
    have hrun := hwf.run hitem hsame
    have hlength := hrun.length_deltas
    have hnext := h.push hstored
    rw [hstored, List.length_append, ← h.buffer] at hlength
    rw [hadd, writeData_eq hitem (h.same hsame) rfl, if_neg (not_lt.mpr hlength)]
    by_cases hfits : GhostFits (deltas (s.2 ++ [item]))
    · refine .inl ⟨fun hall chunk hchunk => ?_, _, rfl, ?_⟩
      · obtain hchunk | hchunk := List.mem_append.mp hchunk
        · exact hall chunk hchunk
        · exact List.mem_singleton.mp hchunk ▸ hfits
      · rw [h.numItems, if_pos hfull]
        exact hnext.flush hrun (by simp) hfits
    · refine .inr ⟨s.2 ++ [item], by simp, hfits, rfl, .inr ⟨_, rfl, push_stalled h.file ?_⟩⟩
      rw [h.buffer, ← hstored]
      exact hfits
  · have hne : s.2 ≠ [] := by
      obtain ⟨past, hpast, -⟩ := hother
      exact List.ne_nil_of_mem hpast
    have htypes := h.other hwf.next hother
    rw [hadd, writeData_eq hitem (if_neg htypes) (if_neg htypes)]
    by_cases hfits : GhostFits (deltas s.2)
    · have hflush := h.flush hwf.next hne hfits
      have hnext : (r.flushChunk.push item item.2).Holds (s.1 ++ [s.2], [] ++ [item]) :=
        hflush.push (by simp [deltas, deltasFrom])
      have hsize := hitem.size.2
      have hlength : 4 * (r.flushChunk.buffer.length + item.2.length) ≤ ghostBufferSize := by
        rw [hflush.buffer, hitem.length, ghostBufferSize, numItemsPerChunk]
        simp only [deltas, List.length_nil]
        omega
      rw [if_neg (not_lt.mpr hlength), hflush.numItems, if_neg (by simp [numItemsPerChunk])]
      refine .inl ⟨fun hall chunk hchunk => ?_, _, rfl, hnext⟩
      obtain hchunk | hchunk := List.mem_append.mp hchunk
      · exact hall chunk hchunk
      · exact List.mem_singleton.mp hchunk ▸ hfits
    · have hstay : r.flushChunk = r := flushChunk_of_not_fits (h.buffer ▸ hfits)
      refine .inr ⟨s.2, hne, hfits, rfl, ?_⟩
      rw [hstay]
      by_cases hleave : ghostBufferSize < 4 * (r.buffer.length + item.2.length)
      · exact .inl (if_pos hleave)
      · refine .inr ⟨_, if_neg hleave, push_stalled h.file fun hbad => hfits ?_⟩
        rw [h.buffer] at hbad
        exact hbad.of_append

/-! ### Whole recordings -/

lemma Stalled.writeData {done : List (List GhostItem)} (h : r.Stalled done) (type : ℤ) (data : List (BitVec 32)) :
    r.writeData type data = none ∨ ∃ r', r.writeData type data = some r' ∧ r'.Stalled done := by
  have hstay : r.flushChunk = r := flushChunk_of_not_fits h.full
  rw [CGhostRecorder.writeData]
  by_cases hguard : maxItemSize < data.length ∨ data.length = 0 ∨ type = -1
  · exact .inr ⟨r, if_pos hguard, h⟩
  · rw [if_neg hguard, hstay, ite_self]
    set stored := if r.lastItem.type = type then diffItem r.lastItem.data data else data
    simp only
    by_cases hleave : ghostBufferSize < 4 * (r.buffer.length + stored.length)
    · exact .inl (if_pos hleave)
    · refine .inr ⟨_, if_neg hleave, ?_⟩
      exact @push_stalled r (type, data) done h.file stored fun hbad => h.full hbad.of_append

lemma Stalled.record {done : List (List GhostItem)} (h : r.Stalled done) (items : List GhostItem) :
    r.record items = none ∨ r.record items = some (ghostBytes done) := by
  induction items generalizing r with
  | nil =>
    rw [CGhostRecorder.record, flushChunk_of_not_fits h.full, h.file]
    exact .inr rfl
  | cons item items ih =>
    rw [CGhostRecorder.record]
    obtain hnone | ⟨r', hsome, hr'⟩ := h.writeData item.1 item.2
    · rw [hnone]
      exact .inl rfl
    · rw [hsome]
      exact ih hr'

/-- All chunks are written if they fit; otherwise those before the first that does not. -/
lemma Holds.record (h : r.Holds s) (hwf : s.Wf size) (hfit : GhostAllFit s.1) {items : List GhostItem}
    (hitems : ∀ item ∈ items, GhostValid size item) :
    GhostAllFit (items.foldl GhostChunks.add s).finish ∧
      r.record items = some (ghostBytes (items.foldl GhostChunks.add s).finish) ∨
    ¬ GhostAllFit (items.foldl GhostChunks.add s).finish ∧ (r.record items = none ∨ ∃ done chunk, chunk ≠ [] ∧
      done ++ [chunk] <+: (items.foldl GhostChunks.add s).finish ∧ GhostAllFit done ∧
      r.record items = some (ghostBytes done)) := by
  induction items generalizing r s with
  | nil =>
    rw [List.foldl_nil, GhostChunks.finish, CGhostRecorder.record]
    by_cases hnil : s.2 = []
    · have hbuffer : r.buffer = [] := by
        rw [h.buffer, hnil]
        rfl
      rw [if_pos hnil, flushChunk_nil hbuffer, h.file]
      exact .inl ⟨hfit, rfl⟩
    · rw [if_neg hnil]
      by_cases hfits : GhostFits (deltas s.2)
      · rw [(h.flush hwf.next hnil hfits).file]
        refine .inl ⟨fun chunk hchunk => ?_, rfl⟩
        obtain hchunk | hchunk := List.mem_append.mp hchunk
        · exact hfit chunk hchunk
        · exact List.mem_singleton.mp hchunk ▸ hfits
      · rw [flushChunk_of_not_fits (h.buffer ▸ hfits), h.file]
        exact .inr ⟨fun hbad => hfits (hbad s.2 (by simp)), .inr ⟨s.1, s.2, hnil, List.prefix_rfl, hfit, rfl⟩⟩
  | cons item items ih =>
    have hitem := hitems item (by simp)
    have hrest : ∀ past ∈ items, GhostValid size past := fun past hpast => hitems past (List.mem_cons_of_mem _ hpast)
    rw [List.foldl_cons, CGhostRecorder.record]
    obtain ⟨hkeep, r', hwrite, hr'⟩ | ⟨chunk, hne, hfull, hadd, hwrite⟩ := h.writeData hwf hitem
    · rw [hwrite]
      exact ih hr' (hwf.add hitem) (hkeep hfit) hrest
    · have hbegin := (s.add item).prefix_finish_foldl items
      rw [hadd] at hbegin
      refine .inr ⟨fun hbad => hfull (hbad chunk (hbegin.subset (by simp))), ?_⟩
      obtain hnone | ⟨r', hsome, hr'⟩ := hwrite
      · rw [hnone]
        exact .inl rfl
      · rw [hsome]
        exact (hr'.record items).imp_right fun hfile => ⟨s.1, chunk, hne, hbegin, hfit, hfile⟩

end CGhostRecorder

end DDNet
