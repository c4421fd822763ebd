/-
The hand-over of a connection to the slot of a client that timed out (`CNetConnection::SetTimedOut`,
`network_conn.cpp`, and `CNetServer::SetTimedOut`, `network_server.cpp`).

The slot that timed out takes over the connection of the slot in which the client came back.  The chunks
of the resend buffer are copied with their pointers, so the payloads of the copies stay in the buffer of
the slot they come from; the bytes of that buffer are part of the state here.
-/
import DDNet.Shared.ConnView

namespace DDNet

open CNetPacketConstruct CRingBufferBase

namespace CNetConnection

variable {Addr : Type*}

/-! ### The copy of the resend buffer -/

/-- The loop of `SetTimedOut` that copies the resend buffer; `fuel` bounds the number of chunks. -/
def copyChunks : ℕ → CRingBufferBase CNetChunkResend → CRingBufferBase CNetChunkResend →
    CRingBufferBase CNetChunkResend
  | 0, buffer, _ => buffer
  | fuel + 1, buffer, resendBuffer =>
      match resendBuffer.first.bind fun i => (resendBuffer.item i).value with
      | none => buffer
      | some chunk =>
          copyChunks fuel (buffer.allocate (chunkResendSize + chunk.data.length) chunk).1
            resendBuffer.popFirst.1

/-- `CNetConnection::SetTimedOut`. -/
def setTimedOut (conn : CNetConnection Addr) (addr : Addr) (sequence ack : ℕ) (securityToken : SecurityToken)
    (resendBuffer : CRingBufferBase CNetChunkResend) (sixup : Bool) (now : ℤ) : CNetConnection Addr :=
  { conn with
    sequence := sequence, ack := ack, state := .online, peerAddr := addr
    lastSendTime := now, lastRecvTime := now, lastUpdateTime := now
    securityToken := securityToken, sixup := sixup
    buffer := copyChunks resendBuffer.items.length initBuffer resendBuffer }

/-- The block of every chunk is as large as `Allocate` makes it. -/
def Fits (queue : List (ℕ × CNetChunkResend)) : Prop :=
  ∀ x ∈ queue, wantedSize (chunkResendSize + x.2.data.length) ≤ x.1

/-- What the chunks of a queue need. -/
def wanted (queue : List (ℕ × CNetChunkResend)) : ℕ :=
  (queue.map fun x => wantedSize (chunkResendSize + x.2.data.length)).sum

/-- The blocks of the chunks, in front of one free block. -/
structure Linear (buffer : CRingBufferBase CNetChunkResend) (done : List (ℕ × CNetChunkResend)) (rest : ℕ) :
    Prop where
  items : buffer.items = used done ++ free [rest]
  consume : buffer.consume = 0
  produce : buffer.produce = done.length
  total : (buffer.items.map CItem.size).sum = buffer.size

lemma Linear.holds {buffer : CRingBufferBase CNetChunkResend} {done : List (ℕ × CNetChunkResend)} {rest : ℕ}
    (h : Linear buffer done rest) : Holds buffer done :=
  ⟨.linear [] done rest (Nat.zero_le _) (fun _ => rfl) h.items h.consume
    (h.produce.trans (Nat.zero_add _).symm), h.total⟩

/-- The last block takes a chunk that fits. -/
lemma Linear.allocate_eq {buffer : CRingBufferBase CNetChunkResend} {done : List (ℕ × CNetChunkResend)}
    {rest : ℕ} (h : Linear buffer done rest) {chunk : CNetChunkResend}
    (hfits : wantedSize (chunkResendSize + chunk.data.length) ≤ rest) :
    buffer.findBlock (wantedSize (chunkResendSize + chunk.data.length)) = some buffer.produce ∧
      buffer.allocate (chunkResendSize + chunk.data.length) chunk =
        (buffer.place buffer.produce (wantedSize (chunkResendSize + chunk.data.length)) chunk, true) := by
  have hindex : buffer.produce = (used done).length := by rw [h.produce, length_used]
  have hitem : buffer.item buffer.produce = ⟨rest, none⟩ := item_eq h.items hindex
  have hfree : buffer.isFree buffer.produce = true := isFree_eq h.items hindex
  have hsize : rest ≤ buffer.size := by
    rw [← h.total, h.items]
    simp
  have hfind : buffer.findBlock (wantedSize (chunkResendSize + chunk.data.length)) = some buffer.produce := by
    rw [findBlock, if_pos hfree, hitem, if_pos hfits]
  refine ⟨hfind, ?_⟩
  rw [allocate, if_neg (Nat.not_lt.2 (hfits.trans hsize)), reserve, hfind]

/-- A chunk that leaves room for another one is followed by the rest of the last block. -/
lemma Linear.allocate {buffer : CRingBufferBase CNetChunkResend} {done : List (ℕ × CNetChunkResend)}
    {rest : ℕ} (h : Linear buffer done rest) {chunk : CNetChunkResend}
    (hrest : wantedSize (chunkResendSize + chunk.data.length) + itemSize < rest) :
    Linear (buffer.allocate (chunkResendSize + chunk.data.length) chunk).1
      (done ++ [(wantedSize (chunkResendSize + chunk.data.length), chunk)])
      (rest - wantedSize (chunkResendSize + chunk.data.length)) := by
  rw [(h.allocate_eq (by omega)).2]
  have hindex : buffer.produce = (used done).length := by rw [h.produce, length_used]
  have hitem : buffer.item buffer.produce = ⟨rest, none⟩ := item_eq h.items hindex
  have htake : buffer.items.take buffer.produce = used done := by
    rw [h.items, hindex, List.take_left]
  have hdrop : buffer.items.drop (buffer.produce + 1) = [] := by
    rw [h.items, hindex]
    simp
  have hitems : (buffer.place buffer.produce (wantedSize (chunkResendSize + chunk.data.length)) chunk).items =
      used (done ++ [(wantedSize (chunkResendSize + chunk.data.length), chunk)]) ++
        free [rest - wantedSize (chunkResendSize + chunk.data.length)] := by
    simp only [place, hitem, hrest, decide_true, if_true, htake, hdrop, used_append, used_cons, used_nil,
      free_cons, free_nil, List.append_assoc, List.cons_append, List.nil_append]
  refine ⟨hitems, ?_, ?_, ?_⟩
  · simp [place, h.consume]
  · have hnext : (buffer.place buffer.produce (wantedSize (chunkResendSize + chunk.data.length)) chunk).nextBlock
        buffer.produce = buffer.produce + 1 := nextBlock_eq (by
      rw [hitems, hindex]
      simp)
    exact hnext.trans (by rw [h.produce, List.length_append]; rfl)
  · have htotal := h.total
    rw [h.items] at htotal
    rw [hitems]
    show _ = buffer.size
    rw [← htotal]
    simp
    omega

/-- A buffer of a connection has the size of `initBuffer`, and blocks of the sizes that `Allocate` gives
them. -/
structure BufferFits (buffer : CRingBufferBase CNetChunkResend) : Prop where
  holds : ∃ queue, Holds buffer queue ∧ Fits queue
  size : buffer.size = (initBuffer).size
  recycle : buffer.recycle = false

lemma BufferFits.allocate {buffer : CRingBufferBase CNetChunkResend} (h : BufferFits buffer)
    (chunk : CNetChunkResend) :
    BufferFits (buffer.allocate (chunkResendSize + chunk.data.length) chunk).1 := by
  obtain ⟨queue, hholds, hfits⟩ := h.holds
  obtain ⟨popped, rest, hqueue, hpopped, hsame, hok, hfail⟩ :=
    allocate_spec hholds (chunkResendSize + chunk.data.length) chunk
  obtain rfl : rest = queue := by rw [hqueue, hpopped h.recycle]; rfl
  refine ⟨?_, hsame.1.trans h.size, hsame.2.1.trans h.recycle⟩
  cases hresult : (buffer.allocate (chunkResendSize + chunk.data.length) chunk).2 with
  | true =>
    obtain ⟨block, hblock, hnew⟩ := hok hresult
    refine ⟨_, hnew, fun x hx => ?_⟩
    rcases List.mem_append.1 hx with hx | hx
    · exact hfits x hx
    · obtain rfl := List.mem_singleton.1 hx
      exact hblock
  | false => exact ⟨rest, (hfail hresult).1, hfits⟩

lemma BufferFits.ackChunksLoop {buffer : CRingBufferBase CNetChunkResend} (h : BufferFits buffer)
    (fuel ack : ℕ) : BufferFits (ackChunksLoop fuel buffer ack) := by
  obtain ⟨queue, hholds, hfits⟩ := h.holds
  obtain ⟨dropped, rest, rfl, hrest, hsame, -⟩ := @ackChunksLoop_spec fuel buffer queue hholds ack
  exact ⟨⟨rest, hrest, fun x hx => hfits x (List.mem_append_right _ hx)⟩, hsame.1.trans h.size,
    hsame.2.1.trans h.recycle⟩

lemma BufferFits.mapValues {buffer : CRingBufferBase CNetChunkResend} (h : BufferFits buffer) (now : ℤ) :
    BufferFits (buffer.mapValues (CNetChunkResend.sentAt now)) := by
  obtain ⟨queue, hholds, hfits⟩ := h.holds
  refine ⟨⟨_, mapValues_holds hholds _, fun x hx => ?_⟩, h.size, h.recycle⟩
  obtain ⟨y, hy, rfl⟩ := List.mem_map.1 hx
  exact hfits y hy

lemma BufferFits.mapFirst {buffer : CRingBufferBase CNetChunkResend} (h : BufferFits buffer)
    {chunk : CNetChunkResend} (hfirst : (buffer.first.bind fun i => (buffer.item i).value) = some chunk)
    (now : ℤ) : BufferFits (buffer.mapFirst (CNetChunkResend.sentAt now)) := by
  obtain ⟨queue, hholds, hfits⟩ := h.holds
  rw [first_spec hholds] at hfirst
  cases queue with
  | nil => exact absurd hfirst.symm (Option.some_ne_none _)
  | cons x queue =>
    refine ⟨⟨_, mapFirst_holds hholds _, fun y hy => ?_⟩, h.size, h.recycle⟩
    rcases List.mem_cons.1 hy with rfl | hy
    · exact hfits x List.mem_cons_self
    · exact hfits y (List.mem_cons_of_mem _ hy)

variable [DecidableEq Addr]

/-- An operation of a slot: one of its connection, or a `FetchChunk` of a packet that it got. -/
inductive SlotOp (Addr : Type*) where
  | conn (op : ConnOp Addr)
  | fetch (unpacker : CNetRecvUnpacker)

/-- The connection of a slot after an operation. -/
def slotStep (env : NetEnv Addr) (conn : CNetConnection Addr) : SlotOp Addr → CNetConnection Addr
  | .conn op => conn.step env op
  | .fetch unpacker => (unpacker.fetchChunk conn).2.1

/-- The resend buffers of the two connections have room for the chunk, or none of them has. -/
def SameRoom (conn conn' : CNetConnection Addr) : SlotOp Addr → Prop
  | .conn (.queueChunk _ data _) => conn.hasRoom data.length = conn'.hasRoom data.length
  | _ => True

omit [DecidableEq Addr] in
lemma flush_live {conn : CNetConnection Addr} (h : conn.Live) (now : ℤ) : (conn.flush now).1.Live :=
  h.congr (flush_buffer conn now).1 (.inl (flush_buffer conn now).2.1)

/-- Connections of the same view have the same view after the same operation. -/
lemma slotStep_view {conn conn' : CNetConnection Addr} (h : conn.Live) (h' : conn'.Live)
    (hview : conn.view = conn'.view) (env : NetEnv Addr) {op : SlotOp Addr} (hroom : SameRoom conn conn' op) :
    (conn.slotStep env op).Live ∧ (conn'.slotStep env op).Live ∧
      (conn.slotStep env op).view = (conn'.slotStep env op).view := by
  cases op with
  | conn op =>
    cases op with
    | queueChunk flags data now =>
      obtain ⟨hlive, hqueued⟩ := queueChunk_view h flags data now
      obtain ⟨hlive', hqueued'⟩ := queueChunk_view h' flags data now
      have hroom : conn.hasRoom data.length = conn'.hasRoom data.length := hroom
      refine ⟨hlive, hlive', hqueued.trans ?_⟩
      rw [hview, hroom]
      exact hqueued'.symm
    | flush now =>
      exact ⟨flush_live h now, flush_live h' now,
        (flush_view conn now).trans (hview.trans (flush_view conn' now).symm)⟩
    | update now =>
      obtain ⟨hlive, hupdated⟩ := update_view h env now
      obtain ⟨hlive', hupdated'⟩ := update_view h' env now
      exact ⟨hlive, hlive', hupdated.trans (hview ▸ hupdated'.symm)⟩
    | resend now =>
      obtain ⟨hlive, hresent⟩ := resend_view h now
      obtain ⟨hlive', hresent'⟩ := resend_view h' now
      refine ⟨hlive, hlive', hresent.trans ?_⟩
      rw [hview]
      exact hresent'.symm
    | feed packet addr securityToken responseToken now =>
      obtain ⟨hlive, hfed⟩ := feed_view h env packet addr securityToken responseToken now
      obtain ⟨hlive', hfed'⟩ := feed_view h' env packet addr securityToken responseToken now
      rw [hview] at hfed
      exact ⟨hlive, hlive', (Prod.mk.inj (hfed.trans hfed'.symm)).1⟩
  | fetch unpacker =>
    obtain ⟨-, -, hlive, hlive', hfetched⟩ := fetchChunk_view h h' hview unpacker
    exact ⟨hlive, hlive', hfetched⟩

end CNetConnection

/-! ### The payloads of the chunks -/

namespace CRingBufferBase

/-- Where the payload of the chunk in a block begins: behind the header of the block and the chunk. -/
def payloadOffset (buffer : CRingBufferBase CNetChunkResend) (block : ℕ) : ℕ :=
  ((buffer.items.take block).map CItem.size).sum + itemSize + chunkResendSize

/-- The pointers `m_pData` of the chunks, with the sizes of their payloads. -/
def pointers (buffer : CRingBufferBase CNetChunkResend) : List (ℕ × ℕ) :=
  buffer.blocks.filterMap fun i =>
    (buffer.item i).value.map fun chunk => (buffer.payloadOffset i, chunk.data.length)

end CRingBufferBase

/-- The bytes of a buffer, `m_aBuffer`. -/
abbrev Memory := ℕ → UInt8

/-- A payload is written. -/
def Memory.write (memory : Memory) (offset : ℕ) (data : List UInt8) : Memory := fun i =>
  if offset ≤ i ∧ i < offset + data.length then data.getD (i - offset) 0 else memory i

/-- The payload that a pointer points to. -/
def Memory.read (memory : Memory) (pointer : ℕ × ℕ) : List UInt8 :=
  (List.range pointer.2).map fun i => memory (pointer.1 + i)

/-- The buffer with the payloads of its chunks. -/
def memoryOf (buffer : CRingBufferBase CNetChunkResend) : Memory :=
  (buffer.pointers.zip buffer.values).foldl (fun memory (pointer, chunk) => memory.write pointer.1 chunk.data)
    fun _ => 0

/-- The first chunks of a buffer have their payloads in another one: what they are now. -/
def readBorrowed (memory : Memory) (borrowed : List (ℕ × ℕ)) (buffer : CRingBufferBase CNetChunkResend) :
    CRingBufferBase CNetChunkResend :=
  (buffer.blocks.zip borrowed).foldl (fun buffer (block, pointer) =>
    { buffer with items := buffer.items.modify block fun x =>
        { x with value := x.value.map fun chunk => { chunk with data := memory.read pointer } } }) buffer

/-! ### The two slots after a hand-over -/

/-- The two slots of a hand-over. -/
structure HandOver (Addr : Type*) where
  /-- The slot of the client that timed out, which has taken over the connection. -/
  timedOut : CNetConnection Addr
  /-- The slot that the connection comes from. -/
  orig : CNetConnection Addr
  /-- The buffer of that slot. -/
  memory : Memory
  /-- The pointers into that buffer that the first chunks of `timedOut` have. -/
  borrowed : List (ℕ × ℕ)

/-- `CNetServer::SetTimedOut`; `none` is its result `false`. -/
def CNetServer.setTimedOut {Addr : Type*} (timedOut orig : CNetConnection Addr) (now : ℤ) :
    Option (HandOver Addr) :=
  if timedOut.state ≠ .error then none
  else
    some {
      timedOut := timedOut.setTimedOut orig.peerAddr orig.sequence orig.ack orig.securityToken orig.buffer
        orig.sixup now
      orig := orig.reset
      memory := memoryOf orig.buffer
      borrowed := orig.buffer.pointers }

namespace HandOver

open CNetConnection

variable {Addr : Type*} [DecidableEq Addr] (env : NetEnv Addr)

/-- What happens to the slot that the connection comes from. -/
inductive OrigOp (Addr : Type*) where
  | reset
  | directInit (addr : Addr) (securityToken token : SecurityToken) (sixup : Bool) (now : ℤ)
  | slot (op : SlotOp Addr)

/-- An operation of one of the slots. -/
inductive Op (Addr : Type*) where
  | timedOut (op : SlotOp Addr)
  | orig (op : OrigOp Addr)

/-- The slot that the connection comes from after an operation. -/
def origStep (conn : CNetConnection Addr) : OrigOp Addr → CNetConnection Addr
  | .reset => conn.reset
  | .directInit addr securityToken token sixup now => conn.directInit addr securityToken token sixup now
  | .slot op => conn.slotStep env op

/-- The payload that an operation writes to the buffer, and where. -/
def written (conn : CNetConnection Addr) : OrigOp Addr → Option (ℕ × List UInt8)
  | .slot (.conn (.queueChunk flags data now)) =>
      if isSaved flags && (conn.queueChunk flags data now).2 then
        (conn.buffer.findBlock (wantedSize (chunkResendSize + data.length))).map fun block =>
          (conn.buffer.payloadOffset block, data)
      else none
  | _ => none

/-- An operation of one of the slots. -/
def step (s : HandOver Addr) : Op Addr → HandOver Addr
  | .timedOut op =>
      let conn := s.timedOut.slotStep env op
      -- acknowledged chunks have been dropped from the front
      let dropped := s.timedOut.buffer.values.length - conn.buffer.values.length
      { s with timedOut := conn, borrowed := s.borrowed.drop dropped }
  | .orig op =>
      let conn := origStep env s.orig op
      match written s.orig op with
      | none => { s with orig := conn }
      | some (offset, data) =>
          let memory := s.memory.write offset data
          { s with
            orig := conn
            memory := memory
            timedOut := { s.timedOut with buffer := readBorrowed memory s.borrowed s.timedOut.buffer } }

/-- A run of the two slots. -/
def run (s : HandOver Addr) (ops : List (Op Addr)) : HandOver Addr := ops.foldl (step env) s

/-- The connection as it would have gone on in its slot. -/
def stayed (conn : CNetConnection Addr) : Op Addr → CNetConnection Addr
  | .timedOut op => conn.slotStep env op
  | .orig _ => conn

/-- The connection as it would have gone on in its slot, after a run. -/
def stayedRun (conn : CNetConnection Addr) (ops : List (Op Addr)) : CNetConnection Addr :=
  ops.foldl (stayed env) conn

/-- The connection that was taken over accepts the same packets and chunks as the one that would have
stayed, acknowledges the same sequence number and keeps the same chunks with the same payloads. -/
structure Agrees (s : HandOver Addr) (conn : CNetConnection Addr) : Prop where
  feed : ∀ packet addr securityToken responseToken now,
    (s.timedOut.feed env packet addr securityToken responseToken now).2.2 =
      (conn.feed env packet addr securityToken responseToken now).2.2
  fetch : ∀ unpacker : CNetRecvUnpacker,
    (unpacker.fetchChunk s.timedOut).2.2 = (unpacker.fetchChunk conn).2.2
  ack : s.timedOut.ack = conn.ack
  buffer : s.timedOut.buffer.values = conn.buffer.values

/-- A step that keeps the payloads: the buffers of the two connections have room for a new chunk or none
of them has, and no vital chunk is queued in the old slot while a chunk has its payload there. -/
def StepOk (s : HandOver Addr) (conn : CNetConnection Addr) : Op Addr → Prop
  | .timedOut op => SameRoom s.timedOut conn op
  | .orig (.slot (.conn (.queueChunk flags _ _))) => isSaved flags = true → s.borrowed = []
  | .orig _ => True

/-- All steps of a run are such steps. -/
def RunOk : HandOver Addr → CNetConnection Addr → List (Op Addr) → Prop
  | _, _, [] => True
  | s, conn, op :: ops => StepOk s conn op ∧ RunOk (s.step env op) (stayed env conn op) ops

/-! ### The hand-over refines staying -/

/-- What holds between the connection that was taken over and the one that would have stayed. -/
structure SameView (s : HandOver Addr) (conn : CNetConnection Addr) : Prop where
  timedOut : s.timedOut.Live
  stays : conn.Live
  view : s.timedOut.view = conn.view

omit [DecidableEq Addr] in
lemma readBorrowed_nil (memory : Memory) (buffer : CRingBufferBase CNetChunkResend) :
    readBorrowed memory [] buffer = buffer := by
  rw [readBorrowed, List.zip_nil_right, List.foldl_nil]

/-- A step that keeps the payloads keeps the views the same. -/
lemma SameView.step {s : HandOver Addr} {conn : CNetConnection Addr} (h : SameView s conn) {op : Op Addr}
    (hok : StepOk s conn op) : SameView (s.step env op) (stayed env conn op) := by
  cases op with
  | timedOut op =>
    obtain ⟨hlive, hlive', hview⟩ := slotStep_view h.timedOut h.stays h.view env hok
    exact ⟨hlive, hlive', hview⟩
  | orig op =>
    have hsame : (s.step env (.orig op)).timedOut = s.timedOut := by
      rw [HandOver.step]
      cases hwritten : written s.orig op with
      | none => rfl
      | some payload =>
        obtain ⟨flags, data, now, rfl, hsaved⟩ : ∃ flags data now,
            op = .slot (.conn (.queueChunk flags data now)) ∧ isSaved flags = true := by
          match op, hwritten with
          | .slot (.conn (.queueChunk flags data now)), hwritten =>
            refine ⟨flags, data, now, rfl, ?_⟩
            by_contra hnot
            rw [written, if_neg fun h => hnot (Bool.and_eq_true_iff.1 h).1] at hwritten
            exact absurd hwritten.symm (Option.some_ne_none _)
        have hnil : s.borrowed = [] := hok hsaved
        dsimp only
        rw [hnil, readBorrowed_nil]
    refine ⟨?_, h.stays, ?_⟩
    · rw [hsame]
      exact h.timedOut
    · rw [hsame]
      exact h.view

lemma SameView.run {s : HandOver Addr} {conn : CNetConnection Addr} (h : SameView s conn) {ops : List (Op Addr)}
    (hok : RunOk env s conn ops) : SameView (s.run env ops) (stayedRun env conn ops) := by
  induction ops generalizing s conn with
  | nil => exact h
  | cons op ops ih => exact ih (h.step env hok.1) hok.2

end HandOver

end DDNet
