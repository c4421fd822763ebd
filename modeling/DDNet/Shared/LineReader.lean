/-
The line reader (`engine/shared/linereader.cpp`).

`Get` scans the buffer in place and writes zeros over the line ends, so that each line is a C string.  The lines that it
returns for a file are those of the text without its byte order mark, in order, except for lines that are not UTF-8
(`openFile_gets`); a file with a zero byte is not read at all.
-/
import DDNet.Base.Utf8
import DDNet.Lib.Lines

namespace DDNet

open Lib Utf8

/-- `CLineReader`, with a buffer. -/
structure CLineReader where
  buffer : List UInt8
  bufferPos : ℕ
  readLastLine : Bool

/-- `io_read_all_str`: the content with a zero behind it. -/
def ioReadAllStr (content : List UInt8) : Option (List UInt8) :=
  if 0 ∈ content then none else some (content ++ [0])

namespace CLineReader

/-- `OpenBuffer`. -/
def openBuffer (buffer : List UInt8) : CLineReader where
  buffer
  bufferPos := if buffer[0]? = some 0xEF ∧ buffer[1]? = some 0xBB ∧ buffer[2]? = some 0xBF then 3 else 0
  readLastLine := false

/-- `OpenFile`. -/
def openFile (content : List UInt8) : Option CLineReader := (ioReadAllStr content).map openBuffer

/-- The C string at a position of the buffer. -/
def cstrAt (r : CLineReader) (pos : ℕ) : List UInt8 := (r.buffer.drop pos).takeWhile (· ≠ 0)

/-- A zero is written at the position, which moves on. -/
def terminate (r : CLineReader) : CLineReader :=
  { r with buffer := r.buffer.set r.bufferPos 0, bufferPos := r.bufferPos + 1 }

/-- What is done at the end of a line, where the byte is `c`. -/
def endLine (r : CLineReader) (c : UInt8) : CLineReader :=
  if c = 0 then { r with readLastLine := true }
  else if c = 13 then r.terminate.terminate
  else r.terminate

/-- The loop of `Get`, at most so many rounds; `none` if it reads behind the buffer. -/
def getLoop : ℕ → ℕ → CLineReader → Option (Option (List UInt8) × CLineReader)
  | 0, _, _ => none
  | fuel + 1, lineStart, r => do
    let c ← r.buffer[r.bufferPos]?
    if c = 0 ∨ c = 10 ∨ (c = 13 ∧ r.buffer[r.bufferPos + 1]? = some 10) then
      let r := r.endLine c
      if ¬ strUtf8Check (r.cstrAt lineStart) then
        -- lines that are not UTF-8 are skipped
        if r.readLastLine then return (none, r) else getLoop fuel r.bufferPos r
      else if r.readLastLine ∧ r.buffer[lineStart]? = some 0 then return (none, r)
      else return (some (r.cstrAt lineStart), r)
    else getLoop fuel lineStart { r with bufferPos := r.bufferPos + 1 }

/-- `Get`. -/
def get (r : CLineReader) : Option (Option (List UInt8) × CLineReader) :=
  if r.readLastLine then some (none, r) else getLoop r.buffer.length r.bufferPos r

/-- The results of the next calls of `Get`. -/
def gets : ℕ → CLineReader → Option (List (Option (List UInt8)))
  | 0, _ => some []
  | n + 1, r => do
    let (line, r) ← r.get
    let lines ← gets n r
    return line :: lines

end CLineReader

/-- The text of a file without the byte order mark. -/
def withoutBom (content : List UInt8) : List UInt8 :=
  if [0xEF, 0xBB, 0xBF] <+: content then content.drop 3 else content

/-- The lines of a file that are UTF-8. -/
def fileLines (content : List UInt8) : List (List UInt8) := (linesOf (withoutBom content)).filter strUtf8Check

namespace CLineReader

/-! ### Reading on -/

/-- The reader has left a part of the buffer behind, has scanned the start of a line, and has the rest before it. -/
def scanning (done pre rest : List UInt8) : CLineReader := ⟨done ++ pre ++ rest ++ [0], (done ++ pre).length, false⟩

/-- The lines to come after the start of a line. -/
def linesFrom (pre rest : List UInt8) : List (List UInt8) :=
  (dropEmptyLast ((pieces rest).modifyHead (pre ++ ·))).filter strUtf8Check

/-- The reader will return these lines. -/
inductive Reads : CLineReader → List (List UInt8) → Prop
  | finished {r : CLineReader} (hlast : r.readLastLine = true) : Reads r []
  | scanning {done rest : List UInt8} (hrest : 0 ∉ rest) : Reads (scanning done [] rest) (linesFrom [] rest)

/-- The reader returns the first line and will return the others. -/
def Returns (result : Option (Option (List UInt8) × CLineReader)) : List (List UInt8) → Prop
  | [] => ∃ r, result = some (none, r) ∧ Reads r []
  | line :: lines => ∃ r, result = some (some line, r) ∧ Reads r lines

lemma linesFrom_nil (pre : List UInt8) :
    linesFrom pre [] = if strUtf8Check pre ∧ pre ≠ [] then [pre] else [] := by
  rw [linesFrom, pieces_nil, List.modifyHead_cons, List.append_nil, dropEmptyLast_singleton]
  by_cases hpre : pre = []
  · rw [if_pos hpre, if_neg fun h => h.2 hpre, List.filter_nil]
  · rw [if_neg hpre]
    by_cases hcheck : strUtf8Check pre = true
    · rw [if_pos ⟨hcheck, hpre⟩, List.filter_cons_of_pos hcheck, List.filter_nil]
    · rw [if_neg fun h => hcheck h.1, List.filter_cons_of_neg hcheck, List.filter_nil]

/-- A line ends. -/
lemma linesFrom_endLine (pre rest : List UInt8) {s : List UInt8} (hs : pieces s = [] :: pieces rest) :
    linesFrom pre s = if strUtf8Check pre then pre :: linesFrom [] rest else linesFrom [] rest := by
  have hrest : linesFrom [] rest = (dropEmptyLast (pieces rest)).filter strUtf8Check := by
    obtain ⟨p, ps, heq⟩ := List.exists_cons_of_ne_nil (pieces_ne_nil rest)
    rw [linesFrom, heq, List.modifyHead_cons, List.nil_append]
  rw [hrest, linesFrom, hs, List.modifyHead_cons, List.append_nil, dropEmptyLast_cons pre (pieces_ne_nil rest),
    List.filter_cons]

lemma linesFrom_cons (pre : List UInt8) {c : UInt8} {rest : List UInt8} (hc : c ≠ 10)
    (hrest : ¬(c = 13 ∧ rest.head? = some 10)) : linesFrom pre (c :: rest) = linesFrom (pre ++ [c]) rest := by
  obtain ⟨p, ps, heq⟩ := List.exists_cons_of_ne_nil (pieces_ne_nil rest)
  rw [linesFrom, linesFrom, pieces_cons hc hrest, heq]
  simp

/-! ### One line -/

lemma cstrAt_eq {r : CLineReader} {done pre tail : List UInt8} (hbuffer : r.buffer = done ++ pre ++ 0 :: tail)
    (hpre : 0 ∉ pre) : r.cstrAt done.length = pre := by
  have hall : ∀ c ∈ pre, decide (c ≠ 0) = true := fun c hc => decide_eq_true fun h => hpre (h ▸ hc)
  rw [cstrAt, hbuffer, List.append_assoc, List.drop_left, List.takeWhile_append_of_pos hall,
    List.takeWhile_cons_of_neg (by simp), List.append_nil]

/-- The byte at the position is overwritten, and belongs to what is left behind. -/
lemma terminate_eq (done pre rest : List UInt8) (c : UInt8) :
    (scanning done pre (c :: rest)).terminate = scanning (done ++ pre ++ [0]) [] rest := by
  rw [terminate, scanning, scanning]
  simp [Nat.add_assoc]

lemma buffer_scanning (done pre rest : List UInt8) (i : ℕ) :
    (scanning done pre rest).buffer[(scanning done pre rest).bufferPos + i]? = (rest ++ [0])[i]? := by
  rw [scanning, List.append_assoc, List.getElem?_append_right (Nat.le_add_right _ _), Nat.add_sub_cancel_left]

/-- At a line end, the line is returned or skipped. -/
lemma getLoop_endLine {fuel : ℕ} {done pre rest rest' s : List UInt8} {c : UInt8} (hpre : 0 ∉ pre)
    (hc : c = 10 ∨ (c = 13 ∧ rest.head? = some 10))
    (hend : (scanning done pre (c :: rest)).endLine c = scanning (done ++ pre ++ 0 :: s) [] rest') :
    getLoop (fuel + 1) done.length (scanning done pre (c :: rest)) =
      if strUtf8Check pre then some (some pre, scanning (done ++ pre ++ 0 :: s) [] rest')
      else getLoop fuel (done ++ pre ++ 0 :: s).length (scanning (done ++ pre ++ 0 :: s) [] rest') := by
  have hbyte : (scanning done pre (c :: rest)).buffer[(scanning done pre (c :: rest)).bufferPos]? = some c :=
    buffer_scanning done pre (c :: rest) 0
  have hnext : c = 13 → rest.head? = some 10 →
      (scanning done pre (c :: rest)).buffer[(scanning done pre (c :: rest)).bufferPos + 1]? = some 10 := by
    intro _ hhead
    obtain ⟨rest, rfl⟩ : ∃ rest', rest = 10 :: rest' := by
      cases rest with
      | nil => contradiction
      | cons d rest => exact ⟨rest, by rw [Option.some.inj hhead]⟩
    exact buffer_scanning done pre (c :: 10 :: rest) 1
  have hbuffer : (scanning (done ++ pre ++ 0 :: s) [] rest').buffer = done ++ pre ++ 0 :: (s ++ rest' ++ [0]) := by
    simp [scanning]
  have hline := cstrAt_eq hbuffer hpre
  have hpos : (scanning (done ++ pre ++ 0 :: s) [] rest').bufferPos = (done ++ pre ++ 0 :: s).length := by
    simp [scanning]
  rw [getLoop, hbyte, Option.bind_eq_bind, Option.bind_some,
    if_pos (.inr (hc.imp_right fun h => ⟨h.1, hnext h.1 h.2⟩))]
  dsimp only
  rw [hend, hline, hpos]
  cases strUtf8Check pre <;> simp [scanning]

/-- The loop returns the next line. -/
lemma getLoop_returns {fuel : ℕ} {done pre rest : List UInt8} (hfuel : rest.length < fuel) (hpre : 0 ∉ pre)
    (hrest : 0 ∉ rest) : Returns (getLoop fuel done.length (scanning done pre rest)) (linesFrom pre rest) := by
  induction fuel generalizing done pre rest with
  | zero => omega
  | succ fuel ih =>
    -- the rest after a line end is read in the same way
    have hended : ∀ {c : UInt8} {rest' rest'' s : List UInt8}, rest = c :: rest' →
        (c = 10 ∨ (c = 13 ∧ rest'.head? = some 10)) → pieces rest = [] :: pieces rest'' → rest'' <:+ rest' →
        (scanning done pre (c :: rest')).endLine c = scanning (done ++ pre ++ 0 :: s) [] rest'' →
        Returns (getLoop (fuel + 1) done.length (scanning done pre rest)) (linesFrom pre rest) := by
      rintro c rest' rest'' s rfl hc hpieces hsuffix hend
      have hzero : 0 ∉ rest'' := fun h => hrest (List.mem_cons_of_mem c (hsuffix.mem h))
      have hshort := hsuffix.length_le
      rw [List.length_cons] at hfuel
      rw [getLoop_endLine hpre hc hend, linesFrom_endLine pre rest'' hpieces]
      split_ifs
      · exact ⟨_, rfl, .scanning hzero⟩
      · exact ih (by omega) List.not_mem_nil hzero
    cases rest with
    | nil =>
      have hbyte : (scanning done pre []).buffer[(scanning done pre []).bufferPos]? = some 0 :=
        buffer_scanning done pre [] 0
      have hbuffer : (scanning done pre []).buffer = done ++ pre ++ 0 :: [] := by simp [scanning]
      have hline : (({ scanning done pre [] with readLastLine := true } : CLineReader)).cstrAt done.length = pre :=
        cstrAt_eq hbuffer hpre
      have hfirst : (scanning done pre []).buffer[done.length]? = some 0 ↔ pre = [] := by
        rw [hbuffer, List.append_assoc, List.getElem?_append_right le_rfl, Nat.sub_self]
        cases pre with
        | nil => simp
        | cons d pre =>
          have hd : d ≠ 0 := fun h => hpre (h ▸ List.mem_cons_self)
          simp [hd]
      rw [getLoop, hbyte, Option.bind_eq_bind, Option.bind_some, if_pos (.inl rfl), linesFrom_nil]
      simp only [endLine, if_true, hline, hfirst]
      by_cases hcheck : strUtf8Check pre = true
      · by_cases hempty : pre = []
        · rw [if_neg (not_not.2 hcheck), if_pos ⟨trivial, hempty⟩, if_neg fun h => h.2 hempty]
          exact ⟨_, rfl, .finished rfl⟩
        · rw [if_neg (not_not.2 hcheck), if_neg fun h => hempty h.2, if_pos ⟨hcheck, hempty⟩]
          exact ⟨_, rfl, .finished rfl⟩
      · rw [if_pos hcheck, if_neg fun h => hcheck h.1]
        exact ⟨_, rfl, .finished rfl⟩
    | cons c rest =>
      by_cases hc : c = 10
      · subst hc
        exact hended rfl (.inl rfl) rfl List.suffix_rfl (terminate_eq done pre rest 10)
      by_cases hcr : c = 13 ∧ rest.head? = some 10
      · obtain ⟨rfl, hhead⟩ := hcr
        obtain ⟨rest, rfl⟩ : ∃ rest', rest = 10 :: rest' := by
          cases rest with
          | nil => contradiction
          | cons d rest => exact ⟨rest, by rw [Option.some.inj hhead]⟩
        refine hended (s := [0]) rfl (.inr ⟨rfl, rfl⟩) rfl (List.suffix_cons 10 rest) ?_
        show ((scanning done pre (13 :: 10 :: rest)).terminate).terminate = _
        rw [terminate_eq, terminate_eq]
        simp
      · have hzero : c ≠ 0 := fun h => hrest (h ▸ List.mem_cons_self)
        have hbyte : (scanning done pre (c :: rest)).buffer[(scanning done pre (c :: rest)).bufferPos]? = some c :=
          buffer_scanning done pre (c :: rest) 0
        have hnext : (scanning done pre (c :: rest)).buffer[(scanning done pre (c :: rest)).bufferPos + 1]? =
            (rest ++ [0])[0]? := buffer_scanning done pre (c :: rest) 1
        have hnotEnd : ¬(c = 0 ∨ c = 10 ∨ (c = 13 ∧ (rest ++ [0])[0]? = some 10)) := by
          rintro (h | h | ⟨h, h'⟩)
          · exact hzero h
          · exact hc h
          · refine hcr ⟨h, ?_⟩
            cases rest with
            | nil => exact absurd h' (by decide)
            | cons d rest => exact h'
        have hon : ({ scanning done pre (c :: rest) with bufferPos := (scanning done pre (c :: rest)).bufferPos + 1 } :
            CLineReader) = scanning done (pre ++ [c]) rest := by
          simp [scanning, Nat.add_assoc]
        rw [getLoop, hbyte, Option.bind_eq_bind, Option.bind_some, hnext, if_neg hnotEnd, hon,
          linesFrom_cons pre hc hcr]
        refine ih (Nat.lt_of_succ_lt_succ hfuel) ?_ fun h => hrest (List.mem_cons_of_mem c h)
        rw [List.mem_append, List.mem_singleton]
        exact fun h => h.elim hpre hzero.symm

/-! ### All lines -/

lemma Reads.get {r : CLineReader} {lines : List (List UInt8)} (h : Reads r lines) : Returns r.get lines := by
  cases h with
  | finished hlast =>
    rw [CLineReader.get, if_pos hlast]
    exact ⟨r, rfl, .finished hlast⟩
  | @scanning done rest hrest =>
    have hlong : rest.length < (CLineReader.scanning done [] rest).buffer.length := by
      simp only [CLineReader.scanning, List.length_append, List.length_singleton]
      omega
    have hpos : (CLineReader.scanning done [] rest).bufferPos = done.length := by simp [CLineReader.scanning]
    rw [CLineReader.get, if_neg (by rw [CLineReader.scanning]; exact Bool.false_ne_true), hpos]
    exact getLoop_returns hlong List.not_mem_nil hrest

/-- The lines, and then the null pointer. -/
lemma Reads.gets {r : CLineReader} {lines : List (List UInt8)} (h : Reads r lines) (n : ℕ) :
    gets n r = some ((lines.map some ++ List.replicate n none).take n) := by
  induction n generalizing r lines with
  | zero => rfl
  | succ n ih =>
    have hget := h.get
    rw [CLineReader.gets]
    cases lines with
    | nil =>
      obtain ⟨r', hr', hreads⟩ := hget
      simp only [hr', Option.bind_eq_bind, Option.bind_some, ih hreads]
      simp [List.replicate_succ]
    | cons line lines =>
      obtain ⟨r', hr', hreads⟩ := hget
      simp only [hr', Option.bind_eq_bind, Option.bind_some, ih hreads]
      have htake : ∀ k, n ≤ k → (lines.map some ++ List.replicate k none).take n =
          (lines.map some).take n ++ List.replicate (n - lines.length) none := by
        intro k hk
        rw [List.take_append, List.take_replicate, List.length_map, Nat.min_eq_left (by omega)]
      rw [List.map_cons, List.cons_append, List.take_succ_cons, htake n le_rfl, htake (n + 1) (Nat.le_succ n)]
      rfl

/-- The byte order mark is skipped. -/
lemma reads_openBuffer {content : List UInt8} (h : 0 ∉ content) :
    Reads (openBuffer (content ++ [0])) (fileLines content) := by
  have hlines : ∀ s, linesFrom [] s = (linesOf s).filter strUtf8Check := by
    intro s
    obtain ⟨p, ps, heq⟩ := List.exists_cons_of_ne_nil (pieces_ne_nil s)
    rw [linesFrom, linesOf, heq, List.modifyHead_cons, List.nil_append]
  have hbom : ((content ++ [0])[0]? = some 0xEF ∧ (content ++ [0])[1]? = some 0xBB ∧ (content ++ [0])[2]? = some 0xBF) ↔
      [0xEF, 0xBB, 0xBF] <+: content := by
    rcases content with _ | ⟨a, _ | ⟨b, _ | ⟨c, rest⟩⟩⟩
    · simp
    · simp
    · simp
    · simp [List.cons_prefix_cons, eq_comm]
  rw [fileLines, ← hlines, withoutBom, openBuffer]
  simp only [hbom]
  by_cases hmark : [0xEF, 0xBB, 0xBF] <+: content
  · obtain ⟨rest, rfl⟩ := hmark
    rw [if_pos (List.prefix_append _ _), if_pos (List.prefix_append _ _)]
    have hreads : Reads (scanning [0xEF, 0xBB, 0xBF] [] rest) (linesFrom [] rest) :=
      .scanning fun hmem => h (List.mem_append_right _ hmem)
    exact hreads
  · rw [if_neg hmark, if_neg hmark]
    have hreads : Reads (scanning [] [] content) (linesFrom [] content) := .scanning h
    exact hreads

/-- A file with a zero byte is not opened; otherwise the calls of `Get` return the lines of the file and then the null
pointer. -/
theorem openFile_gets (content : List UInt8) (n : ℕ) :
    (openFile content).bind (gets n) =
      if 0 ∈ content then none else some (((fileLines content).map some ++ List.replicate n none).take n) := by
  rw [openFile, ioReadAllStr]
  split_ifs with hzero
  · rfl
  · exact (reads_openBuffer hzero).gets n

end CLineReader

end DDNet
