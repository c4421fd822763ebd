/-
The line input (`CLineInput`, `game/client/lineinput.cpp`): a text that is edited in a buffer of fixed size.

`SetRange` replaces a part of the text where it stands.  If less is added than removed, it moves as many bytes as the old
text has behind the new part, so that it reads up to as many bytes behind the text as are removed more than added
(`CLineInput.setRange_spec`).
-/
import DDNet.Base.StrBuffer

namespace DDNet

open Utf8

/-! ### Moving the cursor -/

/-- `EMoveDirection`. -/
inductive EMoveDirection where
  | forward
  | rewind
deriving DecidableEq

namespace EMoveDirection

/-- Over one code point. -/
def move (direction : EMoveDirection) (str : List UInt8) (cursorPos : ℕ) : Option ℕ :=
  match direction with
  | forward => strUtf8ForwardAt str cursorPos
  | rewind => strUtf8RewindAt str cursorPos

/-- The code point that is next in the direction is a space. -/
def peekSpace (direction : EMoveDirection) (str : List UInt8) (cursorPos : ℕ) : Option Bool :=
  let peekCursorPos := match direction with
    | forward => some cursorPos
    | rewind => strUtf8RewindAt str cursorPos
  peekCursorPos.bind fun pos => (strUtf8DecodeAt (str.drop pos)).map fun decoded => strUtf8Isspace decoded.1

end EMoveDirection

/-- The loop of `MoveCursor`, at most as many times as the first argument says. -/
def moveCursorLoop (direction : EMoveDirection) (moveWord : Bool) (str : List UInt8) (maxSize : ℕ) :
    ℕ → ℕ → Bool → Bool → Option ℕ
  | 0, _, _, _ => none
  | fuel + 1, cursorPos, anySpace, anyWord =>
    (direction.move str cursorPos).bind fun cursorPos =>
      if moveWord = false ∨ cursorPos = 0 ∨ maxSize ≤ cursorPos then some cursorPos
      else
        (direction.peekSpace str cursorPos).bind fun currentSpace =>
          if direction = .forward ∧ anySpace = true ∧ currentSpace = false then some cursorPos
          else if direction = .rewind ∧ anyWord = true ∧ currentSpace = true then some cursorPos
          else
            moveCursorLoop direction moveWord str maxSize fuel cursorPos (anySpace || currentSpace)
              (anyWord || !currentSpace)

/-- `MoveCursor`: the cursor position after it; `none` if it reads behind the buffer or does not end. -/
def moveCursor (direction : EMoveDirection) (moveWord : Bool) (str : List UInt8) (maxSize cursorPos : ℕ) : Option ℕ :=
  (direction.peekSpace str cursorPos).bind fun anySpace =>
    moveCursorLoop direction moveWord str maxSize (str.length + 1) cursorPos anySpace (!anySpace)

/-! ### The line input -/

/-- `CLineInput`: the memory of the buffer, its limits, and what is kept of the text in it. -/
structure CLineInput where
  str : List UInt8
  maxSize : ℕ
  maxChars : ℕ
  len : ℕ
  numChars : ℕ
  cursorPos : ℕ
  selectionStart : ℕ
  selectionEnd : ℕ
  hasClipboardLineCallback : Bool
  wasChanged : Bool
  wasCursorChanged : Bool
deriving DecidableEq

namespace CLineInput

/-- `GetSelectionLength`, a `size_t`. -/
def getSelectionLength (s : CLineInput) : ℕ := (s.selectionEnd + 2 ^ 64 - s.selectionStart) % 2 ^ 64

/-- `SetCursorOffset`. -/
def setCursorOffset (s : CLineInput) (offset : ℕ) : CLineInput :=
  { s with
    cursorPos := min offset s.len
    selectionStart := min offset s.len
    selectionEnd := min offset s.len
    wasCursorChanged := true }

/-- `SetSelection`; `none` if the assertion fails. -/
def setSelection (s : CLineInput) (start stop : ℕ) : Option CLineInput :=
  if s.cursorPos = start ∨ s.cursorPos = stop then
    some { s with
      selectionStart := min (min start stop) s.len
      selectionEnd := min (max start stop) s.len
      wasCursorChanged := true }
  else none

/-- `UpdateStrData`. -/
def updateStrData (s : CLineInput) : Option CLineInput :=
  (strUtf8StatsAt s.str s.maxSize s.maxChars).bind fun (len, numChars) =>
    let s := { s with len := len, numChars := numChars }
    let s := if s.cursorPos ≤ s.len then s else s.setCursorOffset s.cursorPos
    if s.selectionStart ≤ s.len ∧ s.selectionEnd ≤ s.len then some s
    else s.setSelection s.selectionStart s.selectionEnd

/-- `SetBuffer` on a new line input. -/
def setBuffer (str : List UInt8) (maxSize maxChars : ℕ) (hasClipboardLineCallback : Bool) : Option CLineInput :=
  updateStrData {
    str := str
    maxSize := maxSize
    maxChars := maxChars
    len := 0
    numChars := 0
    cursorPos := 0
    selectionStart := 0
    selectionEnd := 0
    hasClipboardLineCallback := hasClipboardLineCallback
    wasChanged := false
    wasCursorChanged := false }

/-- `Set`. -/
def set (s : CLineInput) (string : List UInt8) : Option CLineInput :=
  (strCopyAt s.str string s.maxSize).bind fun (_, str) =>
    (updateStrData { s with str := str }).map fun s => s.setCursorOffset s.len

/-- The bytes that `SetRange` copies and moves. -/
def replaceBytes (s : CLineInput) (string : List UInt8) (rangeBegin rangeEnd removedCharSize addedCharSize : ℕ) :
    Option (List UInt8) :=
  if addedCharSize < removedCharSize then
    (if addedCharSize = 0 then some s.str else writeBytes s.str rangeBegin (string.take addedCharSize)).bind fun str =>
      moveBytes str (rangeBegin + addedCharSize) (rangeBegin + removedCharSize) (s.len - rangeBegin - addedCharSize)
  else
    (if removedCharSize < addedCharSize then
      moveBytes s.str (rangeEnd + addedCharSize - removedCharSize) rangeEnd (s.len - rangeEnd)
    else some s.str).bind fun str => writeBytes str rangeBegin (string.take addedCharSize)

/-- `SetRange`. -/
def setRange (s : CLineInput) (string : List UInt8) (start stop : ℕ) : Option CLineInput :=
  let rangeBegin := min (min start stop) s.len
  let rangeEnd := min (max start stop) s.len
  (strUtf8StatsAt (s.str.drop rangeBegin) (rangeEnd - rangeBegin + 1) s.maxChars).bind
    fun (removedCharSize, removedCharCount) =>
  (strUtf8StatsAt (string ++ [0]) (s.maxSize - s.len + removedCharSize)
    (s.maxChars - s.numChars + removedCharCount)).bind fun (addedCharSize, addedCharCount) =>
  if removedCharSize = 0 ∧ addedCharSize = 0 then some s
  else
    (s.replaceBytes string rangeBegin rangeEnd removedCharSize addedCharSize).bind fun str =>
    (writeBytes str (s.len + addedCharSize - removedCharSize) [0]).map fun str =>
      { s with
        str := str
        len := s.len + addedCharSize - removedCharSize
        numChars := s.numChars + addedCharCount - removedCharCount
        cursorPos := rangeEnd - removedCharSize + addedCharSize
        selectionStart := rangeEnd - removedCharSize + addedCharSize
        selectionEnd := rangeEnd - removedCharSize + addedCharSize
        wasChanged := true
        wasCursorChanged := true }

/-- `Insert`. -/
def insert (s : CLineInput) (string : List UInt8) (start : ℕ) : Option CLineInput := s.setRange string start start

/-- `Append`. -/
def append (s : CLineInput) (string : List UInt8) : Option CLineInput := s.insert string s.len

end CLineInput

/-- A position between two characters of the text, or at an end of it. -/
def IsBoundary (text : List Char) (pos : ℕ) : Prop := ∃ pre, pre <+: text ∧ pos = (encode pre).length

namespace CLineInput

/-- The buffer holds the text, and the cursor and the selection are in it. -/
structure Holds (s : CLineInput) (text : List Char) : Prop where
  buffer : ∃ garbage, s.str = encode text ++ 0 :: garbage
  size : s.str.length = s.maxSize
  small : s.maxSize < 2 ^ 31
  noNul : ∀ c ∈ text, c.toNat ≠ 0
  len : s.len = (encode text).length
  numChars : s.numChars = text.length
  chars : text.length ≤ s.maxChars
  cursor : IsBoundary text s.cursorPos
  selectionStart : IsBoundary text s.selectionStart
  selectionEnd : IsBoundary text s.selectionEnd
  le : s.selectionStart ≤ s.selectionEnd
  side : s.cursorPos = s.selectionStart ∨ s.cursorPos = s.selectionEnd

end CLineInput

/-! ### Positions in a text -/

lemma isBoundary_append (pre post : List Char) : IsBoundary (pre ++ post) (encode pre).length :=
  ⟨pre, List.prefix_append pre post, rfl⟩

lemma isBoundary_zero (text : List Char) : IsBoundary text 0 := ⟨[], List.nil_prefix, rfl⟩

lemma isBoundary_length (text : List Char) : IsBoundary text (encode text).length := ⟨text, List.prefix_rfl, rfl⟩

lemma IsBoundary.le {text : List Char} {pos : ℕ} (h : IsBoundary text pos) : pos ≤ (encode text).length := by
  obtain ⟨pre, ⟨post, rfl⟩, rfl⟩ := h
  rw [encode_append, List.length_append]
  exact Nat.le_add_right _ _

lemma IsBoundary.split {text : List Char} {pos : ℕ} (h : IsBoundary text pos) :
    ∃ pre post, text = pre ++ post ∧ pos = (encode pre).length := by
  obtain ⟨pre, ⟨post, rfl⟩, rfl⟩ := h
  exact ⟨pre, post, rfl, rfl⟩

/-- Of two prefixes of a text the one with the shorter encoding is the shorter one. -/
lemma isPrefix_of_length_le {text pre pre' : List Char} (hpre : pre <+: text) (hpre' : pre' <+: text)
    (hle : (encode pre).length ≤ (encode pre').length) : pre <+: pre' := by
  rcases List.prefix_or_prefix_of_prefix hpre hpre' with h | ⟨t, rfl⟩
  · exact h
  · rw [encode_append, List.length_append] at hle
    obtain rfl : t = [] := encode_injective (List.eq_nil_of_length_eq_zero (by omega))
    rw [List.append_nil]

/-- Two positions cut a text in three. -/
lemma IsBoundary.split_range {text : List Char} {start stop : ℕ} (hstart : IsBoundary text start)
    (hstop : IsBoundary text stop) (hle : start ≤ stop) : ∃ pre mid post, text = pre ++ (mid ++ post) ∧
      start = (encode pre).length ∧ stop = (encode (pre ++ mid)).length := by
  obtain ⟨pre, hpre, rfl⟩ := hstart
  obtain ⟨pre', hpre', rfl⟩ := hstop
  obtain ⟨mid, rfl⟩ := isPrefix_of_length_le hpre hpre' hle
  obtain ⟨post, rfl⟩ := hpre'
  exact ⟨pre, mid, post, List.append_assoc _ _ _, rfl, rfl⟩

namespace CLineInput

variable {s : CLineInput} {text : List Char}

/-! ### What is kept of the text -/

lemma Holds.lt (h : s.Holds text) : (encode text).length < s.maxSize := by
  obtain ⟨garbage, hbuffer⟩ := h.buffer
  have hsize := h.size
  rw [hbuffer, List.length_append, List.length_cons] at hsize
  omega

/-- The cursor and the selection may be anywhere in the text. -/
lemma Holds.select (h : s.Holds text) {cursorPos selectionStart selectionEnd : ℕ} (wasCursorChanged : Bool)
    (hcursor : IsBoundary text cursorPos) (hstart : IsBoundary text selectionStart)
    (hend : IsBoundary text selectionEnd) (hle : selectionStart ≤ selectionEnd)
    (hside : cursorPos = selectionStart ∨ cursorPos = selectionEnd) :
    Holds { s with
      cursorPos := cursorPos
      selectionStart := selectionStart
      selectionEnd := selectionEnd
      wasCursorChanged := wasCursorChanged } text :=
  ⟨h.buffer, h.size, h.small, h.noNul, h.len, h.numChars, h.chars, hcursor, hstart, hend, hle, hside⟩

lemma Holds.stats (h : s.Holds text) :
    strUtf8StatsAt s.str s.maxSize s.maxChars = some (s.len, s.numChars) := by
  obtain ⟨garbage, hbuffer⟩ := h.buffer
  have hlt := h.lt
  rw [hbuffer, strUtf8StatsAt_encode h.noNul, fitting_eq_self (by omega) h.chars, h.len, h.numChars]

/-- The derived attributes are up to date. -/
lemma Holds.updateStrData (h : s.Holds text) : s.updateStrData = some s := by
  have hcursor : s.cursorPos ≤ s.len := h.len ▸ h.cursor.le
  have hselection : s.selectionStart ≤ s.len ∧ s.selectionEnd ≤ s.len :=
    ⟨h.len ▸ h.selectionStart.le, h.len ▸ h.selectionEnd.le⟩
  rw [CLineInput.updateStrData, h.stats, Option.bind_some]
  dsimp only
  rw [if_pos hcursor, if_pos hselection]

/-! ### Replacing a part of the text -/

/-- The characters that are added where `mid` is removed. -/
def added (s : CLineInput) (text mid string : List Char) : List Char :=
  fitting string (s.maxSize - 1 - (encode text).length + (encode mid).length) (s.maxChars - text.length + mid.length)

/-- The buffer has room for the bytes that are moved: the ones removed more than added fit behind the text. -/
def Room (s : CLineInput) (text mid string : List Char) : Prop :=
  (encode text).length + (encode mid).length ≤ s.maxSize + (encode (s.added text mid string)).length

/-- The part in the middle is replaced, and what stands behind the text does not matter. -/
lemma replaceBytes_spec {p m q a garbage string : List UInt8} (hstr : s.str = p ++ (m ++ (q ++ 0 :: garbage)))
    (hlen : s.len = p.length + m.length + q.length) (hroom : s.len + m.length ≤ s.str.length + a.length)
    (hfits : p.length + a.length + q.length < s.str.length) (hstring : string.take a.length = a) :
    ∃ rest, s.replaceBytes string p.length (p.length + m.length) m.length a.length =
      some (p ++ (a ++ (q ++ rest))) ∧ (p ++ (a ++ (q ++ rest))).length = s.str.length := by
  have hlength : s.str.length = p.length + m.length + q.length + 1 + garbage.length := by
    rw [hstr]
    simp only [List.length_append, List.length_cons]
    omega
  rw [replaceBytes, hstring]
  by_cases hless : a.length < m.length
  · obtain ⟨m₁, m₂, rfl, hm₁⟩ : ∃ m₁ m₂, m = m₁ ++ m₂ ∧ m₁.length = a.length :=
      ⟨m.take a.length, m.drop a.length, (List.take_append_drop _ _).symm, List.length_take_of_le hless.le⟩
    rw [List.length_append] at hroom hlength hlen hless ⊢
    have hcopy : (if a.length = 0 then some s.str else writeBytes s.str p.length a) =
        some (p ++ (a ++ (m₂ ++ (q ++ 0 :: garbage)))) := by
      rw [hstr, List.append_assoc]
      by_cases hzero : a.length = 0
      · obtain rfl := List.eq_nil_of_length_eq_zero hzero
        obtain rfl := List.eq_nil_of_length_eq_zero (hm₁.trans hzero)
        rw [if_pos hzero]
      · rw [if_neg hzero, writeBytes_replace hm₁.symm]
    have hmoved : ((p ++ (a ++ (m₂ ++ (q ++ 0 :: garbage)))).drop (p.length + (m₁.length + m₂.length))).take
        (s.len - p.length - a.length) = q ++ (0 :: garbage).take m₂.length := by
      have hsplit : p ++ (a ++ (m₂ ++ (q ++ 0 :: garbage))) = (p ++ (a ++ m₂)) ++ (q ++ 0 :: garbage) := by
        simp only [List.append_assoc]
      have hfront : p.length + (m₁.length + m₂.length) = (p ++ (a ++ m₂)).length := by
        rw [List.length_append, List.length_append, hm₁]
      have hsize : s.len - p.length - a.length = q.length + m₂.length := by omega
      rw [hsplit, hfront, List.drop_left, hsize, List.take_length_add_append]
    have hwrite := @writeBytes_replace (p ++ a) (0 :: garbage) (q ++ (0 :: garbage).take m₂.length) (m₂ ++ q) (by
      rw [List.length_append, List.length_append, List.length_take, List.length_cons]
      omega)
    rw [if_pos hless, hcopy, Option.bind_some, moveBytes, hmoved, if_pos (by
      simp only [List.length_append, List.length_cons]
      omega)]
    refine ⟨(0 :: garbage).take m₂.length ++ 0 :: garbage, ?_, ?_⟩
    · rw [List.length_append] at hwrite
      simp only [List.append_assoc] at hwrite
      exact hwrite
    · simp only [List.length_append, List.length_cons, List.length_take]
      omega
  · rw [if_neg hless]
    by_cases hmore : m.length < a.length
    · have hq : (s.str.drop (p.length + m.length)).take (s.len - (p.length + m.length)) = q := by
        have hsplit : p ++ (m ++ (q ++ 0 :: garbage)) = (p ++ m) ++ (q ++ 0 :: garbage) := by
          simp only [List.append_assoc]
        rw [hstr, hsplit, ← List.length_append, List.drop_left, List.length_append, hlen, Nat.add_sub_cancel_left,
          List.take_left]
      have hdst : p.length + m.length + a.length - m.length = p.length + a.length := by omega
      have htake : s.str.take (p.length + a.length) = p ++ (s.str.drop p.length).take a.length := by
        rw [hstr, List.take_length_add_append, List.drop_left]
      have hold : a.length = ((s.str.drop p.length).take a.length).length := by
        rw [List.length_take, List.length_drop]
        omega
      rw [if_pos hmore, moveBytes, if_pos (by omega), hq, hdst, writeBytes, if_pos hfits.le, Option.bind_some, htake,
        List.append_assoc, writeBytes_replace hold]
      refine ⟨s.str.drop (p.length + a.length + q.length), rfl, ?_⟩
      simp only [List.length_append, List.length_drop]
      omega
    · have hequal : a.length = m.length := by omega
      rw [if_neg hmore, Option.bind_some, hstr, writeBytes_replace hequal]
      refine ⟨0 :: garbage, rfl, ?_⟩
      simp only [List.length_append, hequal]

section SetRange

variable {pre mid post string : List Char}

lemma take_encode_of_isPrefix {cs cs' : List Char} (h : cs <+: cs') :
    (encode cs').take (encode cs).length = encode cs := by
  obtain ⟨rest, rfl⟩ := h
  rw [encode_append, List.take_left]

lemma added_isPrefix (s : CLineInput) (text mid string : List Char) : s.added text mid string <+: string :=
  fitting_isPrefix _ _ _

lemma length_added_le (s : CLineInput) (text mid string : List Char) :
    (encode (s.added text mid string)).length ≤ s.maxSize - 1 - (encode text).length + (encode mid).length ∧
      (s.added text mid string).length ≤ s.maxChars - text.length + mid.length :=
  length_fitting_le _ _ _

/-- What is measured in front of a change. -/
lemma Holds.stats_removed (h : s.Holds (pre ++ (mid ++ post))) :
    strUtf8StatsAt (s.str.drop (encode pre).length) ((encode mid).length + 1) s.maxChars =
      some ((encode mid).length, mid.length) := by
  obtain ⟨garbage, hbuffer⟩ := h.buffer
  have hnoNul : ∀ c ∈ mid ++ post, c.toNat ≠ 0 := fun c hc => h.noNul c (List.mem_append_right pre hc)
  have hcount := h.chars
  rw [List.length_append, List.length_append] at hcount
  rw [hbuffer, encode_append, List.append_assoc, List.drop_left, strUtf8StatsAt_encode hnoNul, Nat.add_sub_cancel,
    fitting_append mid post (by omega)]

lemma Holds.stats_added (h : s.Holds (pre ++ (mid ++ post))) (hstring : ∀ c ∈ string, c.toNat ≠ 0) :
    strUtf8StatsAt (encode string ++ [0]) (s.maxSize - s.len + (encode mid).length)
        (s.maxChars - s.numChars + mid.length) =
      some ((encode (s.added (pre ++ (mid ++ post)) mid string)).length,
        (s.added (pre ++ (mid ++ post)) mid string).length) := by
  have hlt := h.lt
  have hsize : s.maxSize - s.len + (encode mid).length - 1 =
      s.maxSize - 1 - (encode (pre ++ (mid ++ post))).length + (encode mid).length := by
    rw [h.len]
    omega
  rw [strUtf8StatsAt_encode hstring, hsize, h.numChars]
  rfl

/-- `SetRange` replaces `mid` by the longest allowed part of the string. -/
theorem setRange_spec (h : s.Holds (pre ++ (mid ++ post))) (hstring : ∀ c ∈ string, c.toNat ≠ 0)
    (hroom : s.Room (pre ++ (mid ++ post)) mid string) :
    ∃ s', s.setRange (encode string) (encode pre).length (encode (pre ++ mid)).length = some s' ∧
      s'.Holds (pre ++ (s.added (pre ++ (mid ++ post)) mid string ++ post)) ∧
      s'.maxSize = s.maxSize ∧ s'.maxChars = s.maxChars := by
  obtain ⟨garbage, hbuffer⟩ := h.buffer
  have htake := take_encode_of_isPrefix (added_isPrefix s (pre ++ (mid ++ post)) mid string)
  have hsizes := length_added_le s (pre ++ (mid ++ post)) mid string
  have hadded := h.stats_added hstring
  have hnoNul : ∀ c ∈ s.added (pre ++ (mid ++ post)) mid string, c.toNat ≠ 0 := fun c hc =>
    hstring c ((added_isPrefix s _ mid string).subset hc)
  rw [Room] at hroom
  generalize s.added (pre ++ (mid ++ post)) mid string = new at htake hsizes hadded hnoNul hroom ⊢
  have hlt := h.lt
  have hlen := h.len
  have hsize := h.size
  have hchars := h.chars
  have hnumChars := h.numChars
  simp only [encode_append, List.length_append] at hlen hlt hsizes hroom hchars hnumChars
  have hbegin : min (min (encode pre).length (encode (pre ++ mid)).length) s.len = (encode pre).length := by
    rw [encode_append, List.length_append]
    omega
  have hend : min (max (encode pre).length (encode (pre ++ mid)).length) s.len =
      (encode pre).length + (encode mid).length := by
    rw [encode_append, List.length_append]
    omega
  rw [setRange]
  simp only [hbegin, hend, Nat.add_sub_cancel_left, h.stats_removed, hadded, Option.bind_some]
  by_cases hnothing : (encode mid).length = 0 ∧ (encode new).length = 0
  · obtain rfl : mid = [] := encode_injective (List.eq_nil_of_length_eq_zero hnothing.1)
    obtain rfl : new = [] := encode_injective (List.eq_nil_of_length_eq_zero hnothing.2)
    rw [if_pos hnothing]
    exact ⟨s, rfl, h, rfl, rfl⟩
  have hstr : s.str = encode pre ++ (encode mid ++ (encode post ++ 0 :: garbage)) := by
    simp only [hbuffer, encode_append, List.append_assoc]
  obtain ⟨rest, hreplace, hlength⟩ := @replaceBytes_spec s _ _ _ (encode new) _ (encode string) hstr (by omega)
    (by omega) (by omega) htake
  have hpos : s.len + (encode new).length - (encode mid).length =
      (encode pre ++ (encode new ++ encode post)).length := by
    rw [List.length_append, List.length_append]
    omega
  obtain ⟨last, tail, rfl⟩ : ∃ last tail, rest = last :: tail := by
    refine List.exists_cons_of_ne_nil ?_
    rintro rfl
    rw [List.append_nil, ← hpos] at hlength
    omega
  have hzero : writeBytes (encode pre ++ (encode new ++ (encode post ++ last :: tail)))
      (s.len + (encode new).length - (encode mid).length) [0] =
        some (encode pre ++ (encode new ++ (encode post ++ 0 :: tail))) := by
    have hwrite := writeBytes_zero (encode pre ++ (encode new ++ encode post)) last tail
    rw [hpos]
    simpa only [List.append_assoc] using hwrite
  have hcursor : (encode pre).length + (encode mid).length - (encode mid).length + (encode new).length =
      (encode (pre ++ new)).length := by
    rw [encode_append, List.length_append, Nat.add_sub_cancel]
  have hboundary : IsBoundary (pre ++ (new ++ post)) (encode (pre ++ new)).length :=
    List.append_assoc pre new post ▸ isBoundary_append (pre ++ new) post
  rw [if_neg hnothing, hreplace, Option.bind_some, hzero, Option.map_some, hcursor]
  refine ⟨_, rfl, ?_, rfl, rfl⟩
  constructor
  · exact ⟨tail, by simp only [encode_append, List.append_assoc]⟩
  · rw [← hsize, ← hlength]
    simp only [List.length_append, List.length_cons]
  · exact h.small
  · intro c hc
    rcases List.mem_append.1 hc with hc | hc
    · exact h.noNul c (List.mem_append_left _ hc)
    · rcases List.mem_append.1 hc with hc | hc
      · exact hnoNul c hc
      · exact h.noNul c (List.mem_append_right _ (List.mem_append_right _ hc))
  · dsimp only
    rw [hpos, encode_append, encode_append]
  · simp only [List.length_append]
    omega
  · simp only [List.length_append]
    omega
  · exact hboundary
  · exact hboundary
  · exact hboundary
  · exact le_rfl
  · exact .inl rfl

end SetRange

/-! ### Setting the text and the selection -/

/-- The characters that `Set` keeps. -/
def kept (s : CLineInput) (string : List Char) : List Char := fitting string (s.maxSize - 1) string.length

/-- After the text has been changed, the derived attributes are those of the new text. -/
lemma updateStrData_of_stats {len numChars : ℕ}
    (hstats : strUtf8StatsAt s.str s.maxSize s.maxChars = some (len, numChars))
    (hside : s.cursorPos = s.selectionStart ∨ s.cursorPos = s.selectionEnd) :
    ∃ s', s.updateStrData = some s' ∧ s'.str = s.str ∧ s'.maxSize = s.maxSize ∧ s'.maxChars = s.maxChars ∧
      s'.len = len ∧ s'.numChars = numChars := by
  rw [updateStrData, hstats, Option.bind_some]
  dsimp only
  by_cases hcursor : s.cursorPos ≤ len
  · rw [if_pos hcursor]
    dsimp only
    by_cases hselection : s.selectionStart ≤ len ∧ s.selectionEnd ≤ len
    · rw [if_pos hselection]
      exact ⟨_, rfl, rfl, rfl, rfl, rfl, rfl⟩
    · rw [if_neg hselection, setSelection, if_pos hside]
      exact ⟨_, rfl, rfl, rfl, rfl, rfl, rfl⟩
  · rw [if_neg hcursor]
    exact ⟨_, if_pos ⟨min_le_right _ _, min_le_right _ _⟩, rfl, rfl, rfl, rfl, rfl⟩

/-- `Set` keeps the longest part of the string that fits the buffer, which has to be within the limit of the characters. -/
theorem set_spec (h : s.Holds text) {string : List Char} (hstring : ∀ c ∈ string, c.toNat ≠ 0)
    (hchars : (s.kept string).length ≤ s.maxChars) :
    ∃ s', s.set (encode string) = some s' ∧ s'.Holds (s.kept string) ∧ s'.maxSize = s.maxSize ∧
      s'.maxChars = s.maxChars := by
  have hlt := h.lt
  have hnonempty : s.str ≠ [] := List.ne_nil_of_length_pos (by rw [h.size]; omega)
  obtain ⟨garbage, hcopy, hlength⟩ := strCopyAt_spec hstring hnonempty []
  rw [List.append_nil, List.append_nil, h.size] at hcopy
  rw [h.size] at hlength
  have hnoNul : ∀ c ∈ s.kept string, c.toNat ≠ 0 := fun c hc => hstring c ((fitting_isPrefix _ _ _).subset hc)
  have hkept := length_fitting_le string (s.maxSize - 1) string.length
  rw [← kept] at hcopy hlength hkept
  obtain ⟨s', hupdate, hstr, hmaxSize, hmaxChars, hlen, hnumChars⟩ := @updateStrData_of_stats
    { s with str := encode (s.kept string) ++ 0 :: garbage } (encode (s.kept string)).length (s.kept string).length
    (by
      dsimp only
      rw [strUtf8StatsAt_encode hnoNul, fitting_eq_self (by omega) hchars]) h.side
  have hend : IsBoundary (s.kept string) (min s'.len s'.len) := by
    rw [Nat.min_self, hlen]
    exact isBoundary_length _
  refine ⟨s'.setCursorOffset s'.len, ?_, ?_, hmaxSize, hmaxChars⟩
  · rw [set, hcopy, Option.bind_some]
    dsimp only
    rw [hupdate, Option.map_some]
  · constructor
    · exact ⟨garbage, hstr⟩
    · refine (congrArg List.length hstr).trans (Eq.trans ?_ hmaxSize.symm)
      simp only [List.length_append, List.length_cons]
      omega
    · exact hmaxSize.trans_lt h.small
    · exact hnoNul
    · exact hlen
    · exact hnumChars
    · exact hchars.trans_eq hmaxChars.symm
    · exact hend
    · exact hend
    · exact hend
    · exact le_rfl
    · exact .inl rfl

/-- `SetSelection` to positions in the text, one of which is that of the cursor. -/
theorem setSelection_spec (h : s.Holds text) {start stop : ℕ} (hstart : IsBoundary text (min start s.len))
    (hstop : IsBoundary text (min stop s.len)) (hcursor : s.cursorPos = start ∨ s.cursorPos = stop) :
    ∃ s', s.setSelection start stop = some s' ∧ s'.Holds text ∧ s'.maxSize = s.maxSize ∧
      s'.maxChars = s.maxChars := by
  have hle := h.cursor.le
  rw [← h.len] at hle
  rw [setSelection, if_pos hcursor]
  refine ⟨_, rfl, h.select true h.cursor ?_ ?_ ?_ ?_, rfl, rfl⟩
  · rcases Nat.le_total start stop with hmin | hmin
    · rwa [Nat.min_eq_left hmin]
    · rwa [Nat.min_eq_right hmin]
  · rcases Nat.le_total start stop with hmax | hmax
    · rwa [Nat.max_eq_right hmax]
    · rwa [Nat.max_eq_left hmax]
  · omega
  · omega

end CLineInput

end DDNet
