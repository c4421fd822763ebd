/-
The lines of an external console (`CConsoleNetConnection::Update` and `Recv`, `engine/shared/network_console_conn.cpp`).

What arrives is collected in a buffer, from whose front the lines are cut.  Which lines are handed out does not depend
on how the stream arrives (`run_frame`); what follows the last line ending is kept in the buffer.
-/
import DDNet.Base.Encode
import DDNet.Lib.Framing
import DDNet.Shared.Network
import Mathlib.Data.Bool.AllAny
import Mathlib.Data.List.TakeWhile

namespace DDNet

open Utf8 Lib

/-- The state of a connection. -/
inductive ConsoleConnState
  | offline
  | online
  | error
deriving DecidableEq

/-- `CConsoleNetConnection`. -/
structure CConsoleNetConnection where
  state : ConsoleConnState
  buffer : List UInt8
  bufferOffset : ℕ
  lineEndingDetected : Bool
  /-- `m_aLineEnding`, without the zero at the end. -/
  lineEnding : UInt8 × UInt8

/-- What `net_tcp_recv` gives. -/
inductive TcpRecv
  | bytes (received : List UInt8)
  | wouldBlock
  | failure
  | closed

/-- A carriage return or a line feed. -/
def isLineEnd (c : UInt8) : Bool := c == 13 || c == 10

namespace CConsoleNetConnection

variable (this : CConsoleNetConnection)

/-- The byte in the buffer. -/
def at' (offset : ℕ) : UInt8 := this.buffer.getD offset 0

/-- What is in the buffer. -/
def content : List UInt8 := this.buffer.take this.bufferOffset

/-- `Update`: the connection, and whether it is all right. -/
def update (recv : TcpRecv) : CConsoleNetConnection × Bool :=
  if this.state = .online then
    if netMaxPacketsize ≤ this.bufferOffset then ({ this with state := .error }, false)
    else
      match recv with
      | .bytes received =>
        ({ this with
            buffer := this.buffer.take this.bufferOffset ++ received ++
              this.buffer.drop (this.bufferOffset + received.length)
            bufferOffset := this.bufferOffset + received.length }, true)
      | .wouldBlock => (this, true)
      | .failure => ({ this with state := .error }, false)
      | .closed => ({ this with state := .error }, false)
  else (this, true)

/-- `mem_move` of the buffer from `start` on to its front. -/
def moveToFront (start : ℕ) : CConsoleNetConnection :=
  { this with
    buffer := (this.buffer.drop start).take (this.bufferOffset - start) ++
      this.buffer.drop (this.bufferOffset - start)
    bufferOffset := this.bufferOffset - start }

/-- The line ending of the client is detected from what is at `start`. -/
def detectLineEnding (start : ℕ) : CConsoleNetConnection :=
  if this.lineEndingDetected = true then this
  else
    { this with
      lineEnding := (this.at' start,
        if start + 1 < this.bufferOffset ∧ isLineEnd (this.at' (start + 1)) = true ∧ this.at' start ≠ this.at' (start + 1)
        then this.at' (start + 1) else this.lineEnding.2)
      lineEndingDetected := true }

@[simp] lemma detectLineEnding_state (start : ℕ) : (this.detectLineEnding start).state = this.state := by
  rw [detectLineEnding]
  split_ifs <;> rfl

@[simp] lemma detectLineEnding_buffer (start : ℕ) : (this.detectLineEnding start).buffer = this.buffer := by
  rw [detectLineEnding]
  split_ifs <;> rfl

@[simp] lemma detectLineEnding_bufferOffset (start : ℕ) :
    (this.detectLineEnding start).bufferOffset = this.bufferOffset := by
  rw [detectLineEnding]
  split_ifs <;> rfl

/-- The loop that finds the start of a message, if there is one. -/
def findStart (this : CConsoleNetConnection) (start : ℕ) : Option ℕ × CConsoleNetConnection :=
  if isLineEnd (this.at' start) = true then
    if this.bufferOffset ≤ start + 1 then (none, this.detectLineEnding start)
    else findStart (this.detectLineEnding start) (start + 1)
  else (some start, this)
termination_by this.bufferOffset - start
decreasing_by
  rw [detectLineEnding_bufferOffset]
  omega

/-- The loop that finds the end of a message, if there is one. -/
def findEnd (stop : ℕ) : Option ℕ :=
  if isLineEnd (this.at' stop) = true then some stop
  else if this.bufferOffset ≤ stop + 1 then none
  else findEnd (stop + 1)
termination_by this.bufferOffset - stop

/-- The string with the characters up to a zero. -/
def lineString (message : List UInt8) : List UInt8 := message.takeWhile (· ≠ 0)

/-- `Recv`: the line and what `str_utf8_check` says of it, if there is one, and the connection. -/
def recv (maxLength : ℤ) : Option (List UInt8 × Bool) × CConsoleNetConnection :=
  if this.state = .online then
    if this.bufferOffset ≠ 0 then
      match this.findStart 0 with
      | (none, this) => (none, { this with bufferOffset := 0 })
      | (some start, this) =>
        match this.findEnd start with
        | none => (none, if 0 < start then this.moveToFront start else this)
        | some stop =>
          if maxLength - 1 < (stop - start : ℕ) then (none, if 0 < start then this.moveToFront start else this)
          else
            let line := strSanitizeCC (lineString ((this.buffer.drop start).take (stop - start)))
            (some (line, strUtf8Check line), this.moveToFront stop)
    else (none, this)
  else (none, this)

/-! ### The loops -/

variable {this} {that : CConsoleNetConnection} {start stop : ℕ}

/-- Only the line ending differs. -/
structure SameBuffer (this that : CConsoleNetConnection) : Prop where
  state : that.state = this.state
  buffer : that.buffer = this.buffer
  bufferOffset : that.bufferOffset = this.bufferOffset

lemma SameBuffer.content (h : this.SameBuffer that) : that.content = this.content := by
  rw [CConsoleNetConnection.content, CConsoleNetConnection.content, h.buffer, h.bufferOffset]

lemma SameBuffer.at' (h : this.SameBuffer that) : that.at' = this.at' := by
  funext offset
  rw [CConsoleNetConnection.at', CConsoleNetConnection.at', h.buffer]

lemma sameBuffer_detectLineEnding (this : CConsoleNetConnection) (start : ℕ) :
    this.SameBuffer (this.detectLineEnding start) := ⟨by simp, by simp, by simp⟩

lemma SameBuffer.trans {other : CConsoleNetConnection} (h : this.SameBuffer that) (h' : that.SameBuffer other) :
    this.SameBuffer other := ⟨h'.1.trans h.1, h'.2.trans h.2, h'.3.trans h.3⟩

lemma findStart_some (h : this.findStart start = (some stop, that)) :
    this.SameBuffer that ∧ start ≤ stop ∧ isLineEnd (that.at' stop) = false := by
  fun_induction findStart this start with
  | case1 => simp at h
  | case2 this start hend hmore ih =>
    obtain ⟨hsame, hle, hat⟩ := ih h
    exact ⟨(sameBuffer_detectLineEnding this start).trans hsame, by omega, hat⟩
  | case3 this start hend =>
    obtain ⟨hstop, rfl⟩ := Prod.mk.inj h
    obtain rfl := Option.some.inj hstop
    exact ⟨⟨rfl, rfl, rfl⟩, le_rfl, eq_false_of_ne_true hend⟩

lemma lt_of_findEnd (hstart : isLineEnd (this.at' start) = false) (h : this.findEnd start = some stop) :
    start < stop := by
  have hloop : ∀ start, this.findEnd start = some stop → start ≤ stop := by
    intro start
    fun_induction findEnd this start with
    | case1 stop' hend => exact fun h => (Option.some.inj h).le
    | case2 => simp
    | case3 stop' hend hmore ih => exact fun h => (Nat.le_succ stop').trans (ih h)
  rw [findEnd, if_neg (by rw [hstart]; exact Bool.false_ne_true)] at h
  split_ifs at h
  exact hloop (start + 1) h

/-- A line that is handed out is taken from the buffer. -/
lemma recv_lt {maxLength : ℤ} {line : List UInt8 × Bool} (h : this.recv maxLength = (some line, that)) :
    that.bufferOffset < this.bufferOffset := by
  rw [recv] at h
  split_ifs at h with honline hoffset
  · cases hstart : this.findStart 0 with
    | mk found this' =>
      rw [hstart] at h
      cases found with
      | none => exact absurd (Prod.mk.inj h).1 (by simp)
      | some start =>
        dsimp only at h
        obtain ⟨hsame, -, hat⟩ := findStart_some hstart
        cases hend : this'.findEnd start with
        | none =>
          rw [hend] at h
          exact absurd (Prod.mk.inj h).1 (by simp)
        | some stop =>
          rw [hend] at h
          dsimp only at h
          split_ifs at h
          · exact absurd (Prod.mk.inj h).1 (by simp)
          · exact absurd (Prod.mk.inj h).1 (by simp)
          · have hlt := lt_of_findEnd hat hend
            rw [← (Prod.mk.inj h).2, moveToFront, hsame.bufferOffset]
            dsimp only
            omega
  · exact absurd (Prod.mk.inj h).1 (by simp)
  · exact absurd (Prod.mk.inj h).1 (by simp)

/-- The loop of the caller: lines are received until there is none. -/
def drain (this : CConsoleNetConnection) (maxLength : ℤ) : List (List UInt8) × CConsoleNetConnection :=
  match _h : this.recv maxLength with
  | (some (line, true), this) => (line :: (drain this maxLength).1, (drain this maxLength).2)
  | (_, this) => ([], this)
termination_by this.bufferOffset
decreasing_by
  all_goals exact recv_lt _h

/-! ### What `Recv` does to the content -/

/-- The buffer has its size, and the offset is in it. -/
structure Valid (this : CConsoleNetConnection) : Prop where
  length : this.buffer.length = netMaxPacketsize
  offset : this.bufferOffset ≤ netMaxPacketsize

lemma Valid.length_content (h : this.Valid) : this.content.length = this.bufferOffset := by
  rw [content, List.length_take, h.length, Nat.min_eq_left h.offset]

lemma Valid.same (h : this.Valid) (hsame : this.SameBuffer that) : that.Valid :=
  ⟨by rw [hsame.buffer, h.length], by rw [hsame.bufferOffset]; exact h.offset⟩

lemma Valid.drop_content (h : this.Valid) {offset : ℕ} (hlt : offset < this.bufferOffset) :
    this.content.drop offset = this.at' offset :: this.content.drop (offset + 1) := by
  have hlength := h.length
  have hoffset := h.offset
  have hinside : offset < this.content.length := by
    rw [h.length_content]
    exact hlt
  have hget : this.content[offset] = this.at' offset := by
    simp only [content, List.getElem_take, at']
    rw [List.getD_eq_getElem _ _ (by omega)]
  rw [← hget, List.drop_eq_getElem_cons]

lemma Valid.drop_content_nil (h : this.Valid) {offset : ℕ} (hle : this.bufferOffset ≤ offset) :
    this.content.drop offset = [] := by
  rw [List.drop_eq_nil_iff, h.length_content]
  exact hle

lemma findStart_spec (h : this.Valid) (hstart : start < this.bufferOffset) :
    ∃ that seps rest, this.SameBuffer that ∧ this.content.drop start = seps ++ rest ∧
      (∀ c ∈ seps, isLineEnd c = true) ∧
      (rest = [] ∧ this.findStart start = (none, that) ∨
        (∃ d rest', rest = d :: rest' ∧ isLineEnd d = false) ∧
          this.findStart start = (some (start + seps.length), that)) := by
  fun_induction findStart this start with
  | case1 this start hend hlast =>
    refine ⟨this.detectLineEnding start, [this.at' start], [], sameBuffer_detectLineEnding this start, ?_, ?_,
      .inl ⟨rfl, rfl⟩⟩
    · rw [h.drop_content hstart, h.drop_content_nil hlast, List.append_nil]
    · rw [List.forall_mem_singleton]
      exact hend
  | case2 this start hend hmore ih =>
    have hsame := sameBuffer_detectLineEnding this start
    obtain ⟨that, seps, rest, hthat, hcontent, hseps, hfound⟩ :=
      ih (h.same hsame) (by rw [detectLineEnding_bufferOffset]; omega)
    rw [hsame.content] at hcontent
    refine ⟨that, this.at' start :: seps, rest, hsame.trans hthat, ?_, ?_, ?_⟩
    · rw [h.drop_content hstart, hcontent, List.cons_append]
    · rw [List.forall_mem_cons]
      exact ⟨hend, hseps⟩
    · rw [List.length_cons, show start + (seps.length + 1) = start + 1 + seps.length by omega]
      exact hfound
  | case3 this start hend =>
    exact ⟨this, [], _, ⟨rfl, rfl, rfl⟩, rfl, fun c hc => absurd hc List.not_mem_nil,
      .inr ⟨⟨_, _, h.drop_content hstart, eq_false_of_ne_true hend⟩, rfl⟩⟩

lemma findEnd_spec (h : this.Valid) (hstop : stop < this.bufferOffset) :
    ∃ line rest, this.content.drop stop = line ++ rest ∧ (∀ c ∈ line, isLineEnd c = false) ∧
      (rest = [] ∧ this.findEnd stop = none ∨
        (∃ d rest', rest = d :: rest' ∧ isLineEnd d = true) ∧ this.findEnd stop = some (stop + line.length)) := by
  fun_induction findEnd this stop with
  | case1 stop hend =>
    exact ⟨[], _, rfl, fun c hc => absurd hc List.not_mem_nil, .inr ⟨⟨_, _, h.drop_content hstop, hend⟩, rfl⟩⟩
  | case2 stop hend hlast =>
    refine ⟨[this.at' stop], [], ?_, ?_, .inl ⟨rfl, rfl⟩⟩
    · rw [h.drop_content hstop, h.drop_content_nil hlast, List.append_nil]
    · rw [List.forall_mem_singleton]
      exact eq_false_of_ne_true hend
  | case3 stop hend hmore ih =>
    obtain ⟨line, rest, hcontent, hline, hfound⟩ := ih (by omega)
    refine ⟨this.at' stop :: line, rest, ?_, ?_, ?_⟩
    · rw [h.drop_content hstop, hcontent, List.cons_append]
    · rw [List.forall_mem_cons]
      exact ⟨eq_false_of_ne_true hend, hline⟩
    · rw [List.length_cons, show stop + (line.length + 1) = stop + 1 + line.length by omega]
      exact hfound

lemma content_moveToFront (h : this.Valid) (hle : start ≤ this.bufferOffset) :
    (this.moveToFront start).content = this.content.drop start ∧ (this.moveToFront start).Valid := by
  have hlength := h.length
  have hoffset := h.offset
  have hmoved : ((this.buffer.drop start).take (this.bufferOffset - start)).length = this.bufferOffset - start := by
    rw [List.length_take, List.length_drop, hlength]
    omega
  refine ⟨?_, ?_, ?_⟩
  · rw [content, moveToFront, content, List.drop_take]
    exact List.take_left' hmoved
  · rw [moveToFront, List.length_append, hmoved, List.length_drop, hlength]
    omega
  · rw [moveToFront]
    exact (Nat.sub_le _ _).trans hoffset

/-- What `Recv` does with the content: it skips line endings, and hands out the line behind them unless it is not
complete or too long. -/
lemma recv_spec (h : this.Valid) (honline : this.state = .online) (maxLength : ℤ) :
    ∃ that seps line rest, that.Valid ∧ that.state = .online ∧ this.content = seps ++ line ++ rest ∧
      (∀ c ∈ seps, isLineEnd c = true) ∧ (∀ c ∈ line, isLineEnd c = false) ∧
      (rest = [] ∧ this.recv maxLength = (none, that) ∧ that.content = line ∨
        (∃ d rest', rest = d :: rest' ∧ isLineEnd d = true) ∧ line ≠ [] ∧
          ((maxLength ≤ line.length ∧ this.recv maxLength = (none, that)) ∨
            line.length < maxLength ∧ that.content = rest ∧ this.recv maxLength =
              (some (strSanitizeCC (lineString line), strUtf8Check (strSanitizeCC (lineString line))), that))) := by
  rw [recv, if_pos honline]
  by_cases hoffset : this.bufferOffset = 0
  · have hnil : this.content = [] := by rw [content, hoffset, List.take_zero]
    rw [if_neg (not_not.2 hoffset)]
    exact ⟨this, [], [], [], h, honline, hnil, fun c hc => absurd hc List.not_mem_nil,
      fun c hc => absurd hc List.not_mem_nil, .inl ⟨rfl, rfl, hnil⟩⟩
  rw [if_pos hoffset]
  obtain ⟨that, seps, rest, hsame, hcontent, hseps, hfound⟩ := findStart_spec h (Nat.pos_of_ne_zero hoffset)
  rw [List.drop_zero] at hcontent
  rcases hfound with ⟨rfl, hfind⟩ | ⟨⟨d, rest', rfl, hd⟩, hfind⟩
  · rw [hfind]
    refine ⟨{ that with bufferOffset := 0 }, seps, [], [], ⟨(h.same hsame).length, Nat.zero_le _⟩,
      hsame.state.trans honline, by rw [List.append_nil, hcontent], hseps, fun c hc => absurd hc List.not_mem_nil,
      .inl ⟨rfl, rfl, ?_⟩⟩
    rw [content, List.take_zero]
  · rw [hfind, Nat.zero_add]
    dsimp only
    have hthat := h.same hsame
    have hlength := congrArg List.length (hsame.content.trans hcontent)
    rw [hthat.length_content, List.length_append, List.length_cons] at hlength
    obtain ⟨line, rest, hdrop, hline, hfound⟩ := findEnd_spec hthat (show seps.length < that.bufferOffset by omega)
    rw [hsame.content, hcontent, List.drop_left] at hdrop
    -- the content from the start of the message on is moved to the front
    have hfront : ∃ next : CConsoleNetConnection, (if 0 < seps.length then that.moveToFront seps.length else that) = next ∧
        next.Valid ∧ next.state = .online ∧ next.content = d :: rest' := by
      refine ⟨_, rfl, ?_⟩
      have hmoved := content_moveToFront hthat (show seps.length ≤ that.bufferOffset by omega)
      rw [hsame.content, hcontent, List.drop_left] at hmoved
      split_ifs with hpos
      · exact ⟨hmoved.2, hsame.state.trans honline, hmoved.1⟩
      · have hnil : seps = [] := List.eq_nil_of_length_eq_zero (by omega)
        exact ⟨hthat, hsame.state.trans honline, by rw [hsame.content, hcontent, hnil, List.nil_append]⟩
    obtain ⟨next, hnext, hvalid, hstate, hnextContent⟩ := hfront
    rcases hfound with ⟨rfl, hend⟩ | ⟨hrest, hend⟩
    · rw [hend, hnext]
      rw [List.append_nil] at hdrop
      exact ⟨next, seps, line, [], hvalid, hstate, by rw [List.append_nil, ← hdrop, hcontent], hseps, hline,
        .inl ⟨rfl, rfl, hnextContent.trans hdrop⟩⟩
    · have hne : line ≠ [] := by
        rintro rfl
        obtain ⟨e, rest'', rfl, he⟩ := hrest
        rw [List.nil_append] at hdrop
        rw [(List.cons.inj hdrop).1, he] at hd
        exact Bool.noConfusion hd
      have hall : this.content = seps ++ line ++ rest := by rw [List.append_assoc, ← hdrop, hcontent]
      rw [hend, hnext]
      dsimp only
      rw [Nat.add_sub_cancel_left]
      by_cases hlong : maxLength - 1 < (line.length : ℕ)
      · rw [if_pos hlong]
        exact ⟨next, seps, line, rest, hvalid, hstate, hall, hseps, hline, .inr ⟨hrest, hne, .inl ⟨by omega, rfl⟩⟩⟩
      · have htotal := congrArg List.length hdrop
        rw [List.length_append, List.length_cons] at htotal
        have hmoved := content_moveToFront hthat (show seps.length + line.length ≤ that.bufferOffset by omega)
        have hmessage : (that.buffer.drop seps.length).take line.length = line := by
          have htake : (that.content.drop seps.length).take line.length = line := by
            rw [hsame.content, hcontent, List.drop_left, hdrop, List.take_left]
          rw [content, List.drop_take, List.take_take, Nat.min_eq_left (by omega)] at htake
          exact htake
        rw [if_neg hlong, hmessage]
        refine ⟨_, seps, line, rest, hmoved.2, hsame.state.trans honline, hall, hseps, hline,
          .inr ⟨hrest, hne, .inr ⟨by omega, ?_, rfl⟩⟩⟩
        rw [hmoved.1, hsame.content, hall, ← List.length_append, List.drop_left]

/-! ### Reading a stream -/

/-- The line that is handed out. -/
def received (line : List UInt8) : List UInt8 := strSanitizeCC (lineString line)

/-- The lines that end in a stream, behind what was there before, and the rest of it. -/
abbrev frameLines (rest stream : List UInt8) : List (List UInt8) × List UInt8 := frame isLineEnd rest stream

/-- Draining the buffer hands out the lines in it, and leaves the rest. -/
lemma drain_spec (h : this.Valid) (honline : this.state = .online) {maxLength : ℤ}
    (hlines : ∀ line ∈ (frameLines [] this.content).1,
      line.length < maxLength ∧ strUtf8Check (received line) = true) :
    ∃ that, that.Valid ∧ that.state = .online ∧ that.content = (frameLines [] this.content).2 ∧
      this.drain maxLength = ((frameLines [] this.content).1.map received, that) := by
  induction hn : this.bufferOffset using Nat.strong_induction_on generalizing this with
  | _ n ih =>
    obtain ⟨that, seps, line, rest, hvalid, hstate, hcontent, hseps, hline, hcases⟩ := recv_spec h honline maxLength
    have hskip : ∀ (seps s : List UInt8), (∀ c ∈ seps, isLineEnd c = true) →
        frameLines [] (seps ++ s) = frameLines [] s := by
      intro seps s hseps
      induction seps with
      | nil => rfl
      | cons c seps ih' =>
        rw [List.cons_append, frameLines, frame_nil_separator (hseps c List.mem_cons_self)]
        exact ih' fun d hd => hseps d (List.mem_cons_of_mem c hd)
    have hframe : frameLines [] this.content = frameLines [] (line ++ rest) := by
      rw [hcontent, List.append_assoc, hskip _ _ hseps]
    rw [hframe] at hlines ⊢
    rcases hcases with ⟨rfl, hrecv, hthat⟩ | ⟨⟨d, rest', rfl, hd⟩, hne, hcases⟩
    · have hopen : frameLines [] (line ++ []) = ([], line) := by
        rw [frameLines, frame_open hline, frame_nil, List.nil_append]
      rw [hopen, drain]
      refine ⟨that, hvalid, hstate, hthat, ?_⟩
      split
      · next heq => exact absurd (hrecv.symm.trans heq) (by simp)
      · next heq => rw [(Prod.mk.inj (hrecv.symm.trans heq)).2, List.map_nil]
    · have hfirst : frameLines [] (line ++ d :: rest') =
          (line :: (frameLines [] (d :: rest')).1, (frameLines [] (d :: rest')).2) := by
        rw [frameLines, frame_line hline hne hd, frameLines, frame_nil_separator hd]
      rw [hfirst, List.forall_mem_cons] at hlines
      rw [hfirst]
      rcases hcases with ⟨hlong, -⟩ | ⟨-, hthat, hrecv⟩
      · exact absurd hlines.1.1 (not_lt.2 hlong)
      · have hcheck : strUtf8Check (strSanitizeCC (lineString line)) = true := hlines.1.2
        rw [hcheck] at hrecv
        obtain ⟨next, hnext, hnextState, hnextContent, hdrain⟩ :=
          ih that.bufferOffset (hn ▸ recv_lt hrecv) hvalid hstate (hthat ▸ hlines.2) rfl
        rw [hthat] at hnextContent hdrain
        refine ⟨next, hnext, hnextState, hnextContent, ?_⟩
        rw [drain]
        split
        · next line' this' heq =>
          obtain ⟨hsome, rfl⟩ := Prod.mk.inj (hrecv.symm.trans heq)
          rw [← (Prod.mk.inj (Option.some.inj hsome)).1, hdrain, List.map_cons]
          rfl
        · next hother heq => exact (hother _ (Prod.mk.inj (heq.symm.trans hrecv)).1).elim

/-- A read: the socket gives at most `count` bytes of what has arrived, and no more than there is room for; without a
byte it would block. -/
def socketRecv (arrived : List UInt8) (count room : ℕ) : TcpRecv × List UInt8 :=
  let received := arrived.take (min count room)
  (if received = [] then .wouldBlock else .bytes received, arrived.drop (min count room))

/-- The connection, what has arrived at the socket, and the lines that were handed out. -/
structure EconRun where
  connection : CConsoleNetConnection
  arrived : List UInt8
  lines : List (List UInt8)

/-- One update with a read, after which the buffer is drained. -/
def EconRun.step (maxLength : ℤ) (run : EconRun) (count : ℕ) : EconRun :=
  let (recv, arrived) := socketRecv run.arrived count (netMaxPacketsize - run.connection.bufferOffset)
  let (connection, _) := run.connection.update recv
  let (lines, connection) := connection.drain maxLength
  ⟨connection, arrived, run.lines ++ lines⟩

/-- All updates, with a stream that comes to a connection. -/
def EconRun.run (maxLength : ℤ) (connection : CConsoleNetConnection) (stream : List UInt8) (counts : List ℕ) : EconRun :=
  counts.foldl (EconRun.step maxLength) ⟨connection, stream, []⟩

/-! ### Lines of a valid text -/

lemma lt_128_of_isLineEnd {c : UInt8} (hc : isLineEnd c = true) : c < 128 := by
  rw [isLineEnd, Bool.or_eq_true, beq_iff_eq, beq_iff_eq] at hc
  rcases hc with rfl | rfl <;> decide

/-- The lines of a valid text are valid texts. -/
lemma frameLines_encode {rest stream : List UInt8} {cs : List Char} (h : rest ++ stream = encode cs) :
    ∀ line ∈ (frameLines rest stream).1, ∃ cs', line = encode cs' := by
  induction stream generalizing rest cs with
  | nil => exact fun line hline => absurd hline List.not_mem_nil
  | cons c stream ih =>
    intro line hline
    by_cases hc : isLineEnd c = true
    · obtain ⟨cs₁, d, cs₂, -, hrest, -, hstream⟩ := encode_split h.symm (lt_128_of_isLineEnd hc)
      rw [frameLines, frame_separator hc, List.mem_append] at hline
      rcases hline with hline | hline
      · split_ifs at hline
        · exact absurd hline List.not_mem_nil
        · exact ⟨cs₁, (List.mem_singleton.1 hline).trans hrest⟩
      · have htext : [] ++ stream = encode cs₂ := hstream
        exact ih htext line hline
    · rw [frameLines, frame, if_neg hc] at hline
      exact ih (by rw [List.append_assoc, List.singleton_append]; exact h) line hline

/-- A control character becomes a blank. -/
lemma strSanitizeCC_encode (cs : List Char) : ∃ cs', strSanitizeCC (encode cs) = encode cs' := by
  induction cs with
  | nil => exact ⟨[], rfl⟩
  | cons c cs ih =>
    obtain ⟨cs', hcs⟩ := ih
    have hchar : ∃ d : Char, strSanitizeCC (String.utf8EncodeChar c) = String.utf8EncodeChar d := by
      rcases utf8EncodeChar_cases c with ⟨hlow, heq⟩ | ⟨-, hhigh⟩
      · rw [heq, strSanitizeCC, List.map_singleton]
        split_ifs
        · exact ⟨' ', by decide⟩
        · exact ⟨c, heq.symm⟩
      · refine ⟨c, ?_⟩
        rw [strSanitizeCC]
        refine (List.map_congr_left fun b hb => if_neg ?_).trans (List.map_id _)
        exact UInt8.not_lt.2 (UInt8.le_trans (by decide) (hhigh b hb))
    obtain ⟨d, hd⟩ := hchar
    refine ⟨d :: cs', ?_⟩
    rw [encode_cons, strSanitizeCC, List.map_append, ← strSanitizeCC, ← strSanitizeCC, hd, hcs, encode_cons]

lemma received_eq {line : List UInt8} (hline : ∀ b ∈ line, b ≠ 0) : received line = strSanitizeCC line := by
  rw [received, lineString, List.takeWhile_eq_self_iff.2 fun b hb => decide_eq_true (hline b hb)]

lemma mem_of_mem_frameLines {rest stream line : List UInt8} (hline : line ∈ (frameLines rest stream).1) :
    ∀ b ∈ line, b ∈ rest ++ stream := by
  induction stream generalizing rest with
  | nil => exact absurd hline List.not_mem_nil
  | cons c stream ih =>
    intro b hb
    by_cases hc : isLineEnd c = true
    · rw [frameLines, frame_separator hc, List.mem_append] at hline
      rcases hline with hline | hline
      · split_ifs at hline
        · exact absurd hline List.not_mem_nil
        · exact List.mem_append_left _ (List.mem_singleton.1 hline ▸ hb)
      · exact List.mem_append_right _ (List.mem_cons_of_mem c (ih hline b hb))
    · rw [frameLines, frame, if_neg hc] at hline
      have hmem := ih hline b hb
      rwa [List.append_assoc, List.singleton_append] at hmem

/-! ### Runs -/

/-- A stream that may come to a connection: valid, without a zero, and with pieces that are short enough. -/
structure Streamable (maxLength : ℤ) (stream : List UInt8) : Prop where
  valid : strUtf8Check stream = true
  noZero : ∀ b ∈ stream, b ≠ 0
  short : ∀ piece ∈ stream.splitOnP isLineEnd, piece.length < maxLength ∧ piece.length < netMaxPacketsize

variable {maxLength : ℤ} {stream : List UInt8} {run : EconRun}

lemma Streamable.lines (h : Streamable maxLength stream) : ∀ line ∈ (frameLines [] stream).1,
    line.length < maxLength ∧ strUtf8Check (received line) = true := by
  intro line hline
  have hpiece : line ∈ stream.splitOnP isLineEnd := by
    rw [frameLines, frame_eq_splitOnP] at hline
    exact List.mem_of_mem_dropLast (List.mem_of_mem_filter hline)
  have htext : [] ++ stream = encode (replaceInvalid stream) := (encode_replaceInvalid h.noZero h.valid).symm
  obtain ⟨cs, rfl⟩ := frameLines_encode htext line hline
  obtain ⟨cs', hcs⟩ := strSanitizeCC_encode cs
  refine ⟨(h.short _ hpiece).1, ?_⟩
  rw [received_eq fun b hb => h.noZero b (mem_of_mem_frameLines hline b hb), hcs, strUtf8Check_encode]

/-- What holds between the updates: the bytes that were read gave the lines, and their rest is in the buffer. -/
structure Holds (stream : List UInt8) (run : EconRun) (read : List UInt8) : Prop where
  valid : run.connection.Valid
  online : run.connection.state = .online
  stream_eq : stream = read ++ run.arrived
  lines : run.lines = (frameLines [] read).1.map received
  content : run.connection.content = (frameLines [] read).2

lemma Holds.content_open {read : List UInt8} (h : Holds stream run read) :
    ∀ c ∈ run.connection.content, isLineEnd c = false := by
  rw [h.content]
  exact frame_rest fun c hc => absurd hc List.not_mem_nil

/-- The rest of a part of the stream is part of a piece. -/
lemma Holds.offset_lt {read : List UInt8} (h : Holds stream run read) (hstream : Streamable maxLength stream) :
    run.connection.bufferOffset < netMaxPacketsize := by
  have hsuffix : ∀ (s rest : List UInt8), (frameLines rest s).2 <:+ rest ++ s := by
    intro s
    induction s with
    | nil =>
      intro rest
      rw [List.append_nil]
      exact List.suffix_rfl
    | cons c s ih =>
      intro rest
      by_cases hc : isLineEnd c = true
      · rw [frameLines, frame_separator hc]
        exact ((ih []).trans (List.suffix_cons c s)).trans (List.suffix_append _ _)
      · rw [frameLines, frame, if_neg hc]
        have hrest := ih (rest ++ [c])
        rwa [List.append_assoc, List.singleton_append] at hrest
  have hinside : run.connection.content <:+: stream := by
    rw [h.content]
    exact (hsuffix read []).isInfix.trans (h.stream_eq ▸ (List.prefix_append _ _).isInfix)
  obtain ⟨piece, hpiece, hin⟩ := exists_piece_of_infix h.content_open hinside
  have hlength := hin.length_le
  rw [h.valid.length_content] at hlength
  exact hlength.trans_lt (hstream.short piece hpiece).2

/-- What was received is behind what was in the buffer. -/
lemma update_spec (h : this.Valid) (honline : this.state = .online) (hlt : this.bufferOffset < netMaxPacketsize)
    (arrived : List UInt8) (count : ℕ) :
    ∃ that, (this.update (socketRecv arrived count (netMaxPacketsize - this.bufferOffset)).1).1 = that ∧
      that.Valid ∧ that.state = .online ∧
      that.content = this.content ++ arrived.take (min count (netMaxPacketsize - this.bufferOffset)) := by
  have hlength := h.length
  refine ⟨_, rfl, ?_⟩
  unfold update
  rw [if_pos honline, if_neg (not_le.2 hlt), socketRecv]
  dsimp only
  generalize hreceived : arrived.take (min count (netMaxPacketsize - this.bufferOffset)) = bytes
  have hfits : bytes.length ≤ netMaxPacketsize - this.bufferOffset := by
    rw [← hreceived, List.length_take]
    omega
  by_cases hnil : bytes = []
  · rw [if_pos hnil, hnil, List.append_nil]
    exact ⟨h, honline, rfl⟩
  · have hbefore : (this.buffer.take this.bufferOffset).length = this.bufferOffset := h.length_content
    rw [if_neg hnil]
    refine ⟨⟨?_, ?_⟩, honline, ?_⟩
    · dsimp only
      rw [List.length_append, List.length_append, hbefore, List.length_drop, hlength]
      omega
    · dsimp only
      omega
    · rw [content]
      dsimp only
      rw [List.take_left' (by rw [List.length_append, hbefore])]
      rfl

/-- An update with a read, and draining the buffer. -/
lemma Holds.step {read : List UInt8} (h : Holds stream run read) (hstream : Streamable maxLength stream) (count : ℕ) :
    Holds stream (run.step maxLength count)
      (read ++ run.arrived.take (min count (netMaxPacketsize - run.connection.bufferOffset))) := by
  obtain ⟨that, hthat, hvalid, honline, hcontent⟩ :=
    update_spec h.valid h.online (h.offset_lt hstream) run.arrived count
  generalize hbytes : run.arrived.take (min count (netMaxPacketsize - run.connection.bufferOffset)) = bytes at hcontent
  have hsplit : run.arrived = bytes ++ run.arrived.drop (min count (netMaxPacketsize - run.connection.bufferOffset)) := by
    rw [← hbytes, List.take_append_drop]
  have hframe : frameLines [] that.content = frameLines (frameLines [] read).2 bytes := by
    rw [hcontent, frameLines, frame_open h.content_open, List.nil_append, h.content]
  have hread : frameLines [] (read ++ bytes) = ((frameLines [] read).1 ++ (frameLines [] that.content).1,
      (frameLines [] that.content).2) := by
    rw [hframe]
    exact frame_append [] read bytes
  have hall : (frameLines [] that.content).1 ⊆ (frameLines [] stream).1 := by
    have hwhole : (frameLines [] stream).1 = ((frameLines [] read).1 ++ (frameLines [] that.content).1) ++
        (frameLines (frameLines [] that.content).2
          (run.arrived.drop (min count (netMaxPacketsize - run.connection.bufferOffset)))).1 := by
      have hparts : stream = (read ++ bytes) ++
          run.arrived.drop (min count (netMaxPacketsize - run.connection.bufferOffset)) := by
        rw [List.append_assoc, ← hsplit]
        exact h.stream_eq
      conv_lhs => rw [hparts, frameLines, frame_append, ← frameLines, hread]
    rw [hwhole]
    exact fun line hline => List.mem_append_left _ (List.mem_append_right _ hline)
  obtain ⟨next, hnext, hnextOnline, hnextContent, hdrain⟩ :=
    drain_spec hvalid honline fun line hline => hstream.lines line (hall hline)
  have hstep : run.step maxLength count = ⟨next, run.arrived.drop (min count (netMaxPacketsize -
      run.connection.bufferOffset)), run.lines ++ (frameLines [] that.content).1.map received⟩ := by
    rw [EconRun.step]
    dsimp only
    rw [hthat, hdrain]
    rfl
  rw [hstep]
  refine ⟨hnext, hnextOnline, ?_, ?_, ?_⟩
  · dsimp only
    rw [List.append_assoc, ← hsplit]
    exact h.stream_eq
  · dsimp only
    rw [hread, h.lines, List.map_append]
  · rw [hread]
    exact hnextContent

/-- A connection after `Init`, with whatever is in the memory of its buffer. -/
def IsInit (this : CConsoleNetConnection) : Prop :=
  this.state = .online ∧ this.bufferOffset = 0 ∧ this.buffer.length = netMaxPacketsize

lemma holds_run (hinit : this.IsInit) (hstream : Streamable maxLength stream) (counts : List ℕ) :
    ∃ read, Holds stream (EconRun.run maxLength this stream counts) read := by
  have hstart : Holds stream ⟨this, stream, []⟩ [] := by
    refine ⟨⟨hinit.2.2, hinit.2.1 ▸ Nat.zero_le _⟩, hinit.1, rfl, rfl, ?_⟩
    rw [content, hinit.2.1, List.take_zero]
    rfl
  have hloop : ∀ (counts : List ℕ) (run : EconRun) (read : List UInt8), Holds stream run read →
      ∃ read, Holds stream (counts.foldl (EconRun.step maxLength) run) read := by
    intro counts
    induction counts with
    | nil => exact fun run read h => ⟨read, h⟩
    | cons count counts ih => exact fun run read h => ih _ _ (h.step hstream count)
  exact hloop counts _ _ hstart

/-- The lines that a stream has: its pieces that are not empty, without the last one, which no line ending follows. -/
def linesOfStream (stream : List UInt8) : List (List UInt8) :=
  ((stream.splitOnP isLineEnd).dropLast.filter (¬ List.isEmpty ·)).map strSanitizeCC

lemma Holds.lines_eq {read : List UInt8} (h : Holds stream run read) (hstream : Streamable maxLength stream) :
    run.lines = linesOfStream read := by
  have hsame : ∀ line ∈ (frameLines [] read).1, received line = strSanitizeCC line := fun line hline =>
    received_eq fun b hb => hstream.noZero b (h.stream_eq ▸
      List.mem_append_left _ (List.nil_append read ▸ mem_of_mem_frameLines hline b hb))
  rw [h.lines, List.map_congr_left hsame, frameLines, frame_eq_splitOnP]
  rfl

/-- However the stream is split into reads, the lines that are handed out are those of the part that was read, what
follows them is in the buffer, and the offset is inside of the buffer; as long as bytes have arrived, a read gets some of
them. -/
theorem run_frame (hinit : this.IsInit) (hstream : Streamable maxLength stream) (counts : List ℕ) :
    let run := EconRun.run maxLength this stream counts
    ∃ read, stream = read ++ run.arrived ∧ run.lines = linesOfStream read ∧
      run.connection.content = (read.splitOnP isLineEnd).getLast (List.splitOnP_ne_nil isLineEnd read) ∧
      run.connection.state = .online ∧ run.connection.bufferOffset < run.connection.buffer.length ∧
      (run.arrived = [] → run.lines = linesOfStream stream) ∧
      ∀ count, 0 < count → run.arrived ≠ [] →
        (EconRun.run maxLength this stream (counts ++ [count])).arrived.length < run.arrived.length := by
  obtain ⟨read, h⟩ := holds_run hinit hstream counts
  have hlines := h.lines_eq hstream
  refine ⟨read, h.stream_eq, hlines, ?_, h.online, h.valid.length ▸ h.offset_lt hstream, fun hnil => ?_,
    fun count hcount hne => ?_⟩
  · rw [h.content, frameLines, frame_eq_splitOnP]
  · have hstream_eq := h.stream_eq
    rw [hnil, List.append_nil] at hstream_eq
    rw [hlines, ← hstream_eq]
  · have hroom := h.offset_lt hstream
    have hpos := List.length_pos_iff.2 hne
    rw [EconRun.run, List.foldl_append, List.foldl_cons, List.foldl_nil, ← EconRun.run, EconRun.step, socketRecv]
    dsimp only
    rw [List.length_drop]
    omega

section Samples

/-- A connection with an empty buffer. -/
def emptyConnection : CConsoleNetConnection := ⟨.online, List.replicate netMaxPacketsize 0, 0, false, (10, 0)⟩

lemma isInit_emptyConnection : emptyConnection.IsInit := ⟨rfl, rfl, List.length_replicate⟩

lemma streamable_of_ascii {text : List Char} (hpieces : ∀ piece ∈ (encode text).splitOnP isLineEnd, piece.length < 100)
    (hzero : ∀ c ∈ text, c.toNat ≠ 0) : Streamable 100 (encode text) where
  valid := strUtf8Check_encode text
  noZero b hb := by
    rintro rfl
    exact zero_notMem_encode hzero hb
  short piece hpiece := by
    have hlength := hpieces piece hpiece
    rw [netMaxPacketsize]
    omega

/-- A line whose line ending comes in two reads, and a line behind it. -/
theorem run_frame_twoReads :
    let run := EconRun.run 100 emptyConnection (encode ['a', '\r', '\n', 'b', '\n']) [2, 3]
    ∃ read, encode ['a', '\r', '\n', 'b', '\n'] = read ++ run.arrived ∧ run.lines = linesOfStream read ∧
      run.connection.content = (read.splitOnP isLineEnd).getLast (List.splitOnP_ne_nil isLineEnd read) ∧
      run.connection.state = .online ∧ run.connection.bufferOffset < run.connection.buffer.length ∧
      (run.arrived = [] → run.lines = linesOfStream (encode ['a', '\r', '\n', 'b', '\n'])) ∧
      ∀ count, 0 < count → run.arrived ≠ [] →
        (EconRun.run 100 emptyConnection (encode ['a', '\r', '\n', 'b', '\n']) ([2, 3] ++ [count])).arrived.length <
          run.arrived.length :=
  run_frame isInit_emptyConnection (streamable_of_ascii (by decide) (List.all_iff_forall_prop.1 (by decide))) [2, 3]

/-- What is not followed by a line ending is not handed out. -/
theorem run_unfinished :
    Streamable 100 (encode ['a']) ∧ (EconRun.run 100 emptyConnection (encode ['a']) [1]).arrived = [] ∧
      (EconRun.run 100 emptyConnection (encode ['a']) [1]).lines ≠
        (((encode ['a']).splitOnP isLineEnd).filter (¬ List.isEmpty ·)).map strSanitizeCC := by
  have hstream : Streamable 100 (encode ['a']) := streamable_of_ascii (by decide) (List.all_iff_forall_prop.1 (by decide))
  have harrived : (EconRun.run 100 emptyConnection (encode ['a']) [1]).arrived = [] := by
    rw [EconRun.run, List.foldl_cons, List.foldl_nil, EconRun.step, socketRecv]
    decide
  obtain ⟨read, h⟩ := holds_run isInit_emptyConnection hstream [1]
  have hread : encode ['a'] = read := by
    have hstream_eq := h.stream_eq
    rwa [harrived, List.append_nil] at hstream_eq
  refine ⟨hstream, harrived, ?_⟩
  rw [h.lines_eq hstream, ← hread]
  decide

end Samples

end CConsoleNetConnection

end DDNet
