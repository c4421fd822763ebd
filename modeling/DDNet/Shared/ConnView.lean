/-
What a connection that is online accepts and keeps, apart from the packets it builds: the view of a
connection, on which its operations act as on an abstract connection with a list for the resend buffer.
-/
import DDNet.Shared.ConnectionBuffer

namespace DDNet

open CNetPacketConstruct CRingBufferBase
open CNetConnection (ackValid isSaved)

/-! ### The abstract connection -/

/-- What decides which packets a connection accepts and which chunks it keeps. -/
@[ext] structure ConnView (Addr : Type*) where
  sequence : ℕ
  ack : ℕ
  peerAck : ℕ
  state : NetConnState
  securityToken : SecurityToken
  /-- The token that a 0.7 peer has to send. -/
  token : Option SecurityToken
  unknownSeq : Bool
  peerAddr : Addr
  lastRecvTime : ℤ
  /-- The chunks that are not acknowledged, oldest first. -/
  chunks : List CNetChunkResend

/-- The chunk is sent again. -/
def CNetChunkResend.sentAt (now : ℤ) (chunk : CNetChunkResend) : CNetChunkResend :=
  { chunk with lastSendTime := now }

namespace ConnView

variable {Addr : Type*}

/-- The packet without the token of a 0.6 peer, and whether the token is right. -/
def stripToken (view : ConnView Addr) (packet : CNetPacketConstruct) : CNetPacketConstruct × Bool :=
  if view.token = none ∧ view.securityToken ≠ netSecurityTokenUnknown ∧
      view.securityToken ≠ netSecurityTokenUnsupported then
    if packet.dataSize < securityTokenSize then (packet, false)
    else
      let size := packet.dataSize - securityTokenSize
      ({ packet with chunkData := packet.chunkData.take size },
        view.securityToken = toSecurityToken (packet.chunkData.drop size))
  else (packet, true)

/-- The packet asks for a resend of everything. -/
def takeResend (view : ConnView Addr) (packet : CNetPacketConstruct) (now : ℤ) : ConnView Addr :=
  { view with
    peerAck := packet.ack
    chunks := if hasFlag packet.flags netPacketflagResend then view.chunks.map (·.sentAt now) else view.chunks }

/-- The chunks that the ack covers are dropped. -/
def takeAck (view : ConnView Addr) (ack : ℕ) (now : ℤ) : ConnView Addr :=
  if view.state = .online then
    { view with
      lastRecvTime := now
      chunks := view.chunks.dropWhile fun chunk => isSeqInBackroom chunk.sequence ack }
  else view

/-- A packet: the connection after it, and whether it is accepted. -/
def feed [DecidableEq Addr] (view : ConnView Addr) (packet : CNetPacketConstruct) (addr : Addr)
    (securityToken : SecurityToken) (now : ℤ) : ConnView Addr × Bool :=
  if addr ≠ view.peerAddr then (view, false)
  else
    match view.stripToken packet with
    | (_, false) => (view, false)
    | (packet, true) =>
        if view.token.any (· ≠ securityToken) then (view, false)
        else if !ackValid view.sequence view.peerAck packet.ack then (view, false)
        else
          let view := view.takeResend packet now
          if hasFlag packet.flags netPacketflagControl ∧ packet.chunkData.getD 0 0 = netCtrlmsgClose then
            ({ view with state := .error }, false)
          else (view.takeAck packet.ack now, true)

/-- A chunk is queued; `room` says whether the resend buffer has room for it. -/
def queueChunk (view : ConnView Addr) (flags : ℕ) (data : List UInt8) (now : ℤ) (room : Bool) :
    ConnView Addr :=
  let view := if flags &&& netChunkflagVital ≠ 0 then
    { view with sequence := (view.sequence + 1) % netMaxSequence } else view
  if view.state ≠ .error ∧ isSaved flags = true ∧ room = true then
    { view with chunks := view.chunks ++ [⟨flags, data, view.sequence, now, now⟩] }
  else view

/-- The oldest chunk is too old, or it is sent again. -/
def updateResend (view : ConnView Addr) (connTimeout now : ℤ) : ConnView Addr :=
  match view.chunks with
  | [] => view
  | chunk :: chunks =>
      if now - chunk.firstSendTime > timeFreq * connTimeout then { view with state := .error }
      else if now - chunk.lastSendTime > timeFreq then
        { view with chunks := chunk.sentAt now :: chunks }
      else view

lemma updateResend_nil {view : ConnView Addr} (h : view.chunks = []) (connTimeout now : ℤ) :
    view.updateResend connTimeout now = view := by
  rw [updateResend, h]

lemma updateResend_cons {view : ConnView Addr} {chunk : CNetChunkResend} {chunks : List CNetChunkResend}
    (h : view.chunks = chunk :: chunks) (connTimeout now : ℤ) : view.updateResend connTimeout now =
      if now - chunk.firstSendTime > timeFreq * connTimeout then { view with state := .error }
      else if now - chunk.lastSendTime > timeFreq then { view with chunks := chunk.sentAt now :: chunks }
      else view := by
  rw [updateResend, h]

/-- An update. -/
def update (view : ConnView Addr) (connTimeout now : ℤ) : ConnView Addr :=
  if view.state = .error then view
  else
    let view := if now - view.lastRecvTime > timeFreq * connTimeout then
      { view with state := .error } else view
    view.updateResend connTimeout now

/-- A chunk of a packet: the connection after it, and whether the chunk is handed out. -/
def handleSequence (view : ConnView Addr) (header : CNetChunkHeader) : ConnView Addr × Bool :=
  if CNetChunkHeader.isVital header.flags then
    if header.sequence = ((view.ack + 1) % netMaxSequence : ℕ) || view.unknownSeq then
      ({ view with unknownSeq := false, ack := header.sequence.toNat }, true)
    else (view, false)
  else (view, true)

end ConnView

namespace CNetConnection

variable {Addr : Type*}

/-- The view of a connection. -/
def view (conn : CNetConnection Addr) : ConnView Addr where
  sequence := conn.sequence
  ack := conn.ack
  peerAck := conn.peerAck
  state := conn.state
  securityToken := conn.securityToken
  token := if conn.sixup then some conn.token else none
  unknownSeq := conn.unknownSeq
  peerAddr := conn.peerAddr
  lastRecvTime := conn.lastRecvTime
  chunks := conn.buffer.values

/-- A connection that is or was online, with its resend buffer. -/
structure Live (conn : CNetConnection Addr) : Prop where
  state : conn.state = .online ∨ conn.state = .error
  holds : ∃ queue, Holds conn.buffer queue
  recycle : conn.buffer.recycle = false

lemma Live.congr {conn conn' : CNetConnection Addr} (h : conn.Live) (hbuffer : conn'.buffer = conn.buffer)
    (hstate : conn'.state = conn.state ∨ conn'.state = .error) : conn'.Live where
  state := by
    rcases hstate with hstate | hstate
    · rw [hstate]
      exact h.state
    · exact .inr hstate
  holds := hbuffer ▸ h.holds
  recycle := hbuffer ▸ h.recycle

/-! ### Sending -/

lemma flush_view (conn : CNetConnection Addr) (now : ℤ) : (conn.flush now).1.view = conn.view := by
  rw [flush]
  split_ifs <;> rfl

lemma makeRoom_view (conn : CNetConnection Addr) (size : ℕ) (now : ℤ) :
    (conn.makeRoom size now).view = conn.view := by
  rw [makeRoom]
  split_ifs
  · exact flush_view conn now
  · rfl

lemma resendChunk_view (conn : CNetConnection Addr) (chunk : CNetChunkResend) (now : ℤ) :
    (conn.resendChunk chunk now).view = conn.view := by
  rw [resendChunk, queueChunkEx]
  split_ifs with hstate hsaved
  · rfl
  · exact absurd hsaved (by rw [isSaved_resend]; exact Bool.false_ne_true)
  · exact makeRoom_view conn chunk.data.length now

lemma foldl_resendChunk_view (chunks : List CNetChunkResend) (conn : CNetConnection Addr) (now : ℤ) :
    (chunks.foldl (fun conn chunk => conn.resendChunk chunk now) conn).view = conn.view := by
  induction chunks generalizing conn with
  | nil => rfl
  | cons chunk chunks ih => exact (ih (conn.resendChunk chunk now)).trans (resendChunk_view conn chunk now)

lemma resend_view {conn : CNetConnection Addr} (h : conn.Live) (now : ℤ) : (conn.resend now).Live ∧
    (conn.resend now).view = { conn.view with chunks := conn.view.chunks.map (·.sentAt now) } := by
  obtain ⟨queue, hholds⟩ := h.holds
  set sent := conn.buffer.values.foldl (fun conn chunk => conn.resendChunk chunk now) conn with hsent
  have hview : sent.view = conn.view := foldl_resendChunk_view conn.buffer.values conn now
  obtain ⟨hbuffer, hstate, -⟩ := foldl_resendChunk_buffer conn.buffer.values conn now
  have hmap := mapValues_holds (hbuffer ▸ hholds : Holds sent.buffer queue) (CNetChunkResend.sentAt now)
  have hvalues : (sent.buffer.mapValues (CNetChunkResend.sentAt now)).values =
      conn.view.chunks.map (·.sentAt now) := by
    rw [values_eq hmap, view, values_eq hholds, List.map_map, List.map_map]
    rfl
  refine ⟨⟨hstate ▸ h.state, ⟨_, hmap⟩, (congrArg CRingBufferBase.recycle hbuffer).trans h.recycle⟩, ?_⟩
  have hconn : (conn.resend now).view = { sent.view with
      chunks := (sent.buffer.mapValues (CNetChunkResend.sentAt now)).values } := rfl
  rw [hconn, hvalues, hview]

/-- The block that `Allocate` needs is free. -/
def hasRoom (conn : CNetConnection Addr) (size : ℕ) : Bool :=
  decide (wantedSize (chunkResendSize + size) ≤ conn.buffer.size) &&
    (conn.buffer.findBlock (wantedSize (chunkResendSize + size))).isSome

lemma hasRoom_congr {conn conn' : CNetConnection Addr} (hbuffer : conn'.buffer = conn.buffer) (size : ℕ) :
    conn'.hasRoom size = conn.hasRoom size := by
  rw [hasRoom, hbuffer, hasRoom]

lemma allocate_hasRoom {conn : CNetConnection Addr} (h : conn.Live) (chunk : CNetChunkResend) :
    (conn.buffer.allocate (chunkResendSize + chunk.data.length) chunk).2 = conn.hasRoom chunk.data.length := by
  rw [allocate, hasRoom]
  by_cases hsize : wantedSize (chunkResendSize + chunk.data.length) > conn.buffer.size
  · rw [if_pos hsize, decide_eq_false (Nat.not_le.2 hsize)]
    rfl
  · rw [if_neg hsize, decide_eq_true (Nat.not_lt.1 hsize), reserve]
    cases conn.buffer.findBlock (wantedSize (chunkResendSize + chunk.data.length)) with
    | none =>
      dsimp only
      rw [h.recycle, if_neg Bool.false_ne_true]
      rfl
    | some block => rfl

/-- The buffer after an allocation holds the chunk behind the others, if it has room. -/
lemma allocate_values {conn : CNetConnection Addr} (h : conn.Live) (chunk : CNetChunkResend) :
    (∃ queue, Holds (conn.buffer.allocate (chunkResendSize + chunk.data.length) chunk).1 queue) ∧
      (conn.buffer.allocate (chunkResendSize + chunk.data.length) chunk).1.recycle = false ∧
      (conn.buffer.allocate (chunkResendSize + chunk.data.length) chunk).1.values =
        if conn.hasRoom chunk.data.length = true then conn.buffer.values ++ [chunk]
        else conn.buffer.values := by
  obtain ⟨queue, hholds⟩ := h.holds
  obtain ⟨popped, rest, hqueue, hpopped, hsame, hok, hfail⟩ :=
    allocate_spec hholds (chunkResendSize + chunk.data.length) chunk
  obtain rfl : rest = queue := by rw [hqueue, hpopped h.recycle]; rfl
  rw [allocate_hasRoom h] at hok hfail
  cases hroom : conn.hasRoom chunk.data.length with
  | true =>
    obtain ⟨size, -, hnew⟩ := hok hroom
    refine ⟨⟨_, hnew⟩, hsame.2.1.trans h.recycle, ?_⟩
    rw [if_pos rfl, values_eq hnew, values_eq hholds, List.map_append]
    rfl
  | false =>
    obtain ⟨hnew, hbuffer⟩ := hfail hroom
    refine ⟨⟨_, hnew⟩, hsame.2.1.trans h.recycle, ?_⟩
    rw [if_neg Bool.false_ne_true, hbuffer h.recycle]

/-- `QueueChunk` queues the chunk in the view. -/
lemma queueChunk_view {conn : CNetConnection Addr} (h : conn.Live) (flags : ℕ) (data : List UInt8)
    (now : ℤ) : (conn.queueChunk flags data now).1.Live ∧
      (conn.queueChunk flags data now).1.view =
        conn.view.queueChunk flags data now (conn.hasRoom data.length) := by
  rw [queueChunk, ConnView.queueChunk]
  set next : CNetConnection Addr := if flags &&& netChunkflagVital ≠ 0 then
    { conn with sequence := (conn.sequence + 1) % netMaxSequence } else conn with hnext
  have hsame : next.Live ∧ next.hasRoom data.length = conn.hasRoom data.length ∧
      next.view = (if flags &&& netChunkflagVital ≠ 0 then
        { conn.view with sequence := (conn.view.sequence + 1) % netMaxSequence } else conn.view) := by
    rw [hnext]
    split_ifs
    · exact ⟨h.congr rfl (.inl rfl), rfl, rfl⟩
    · exact ⟨h, rfl, rfl⟩
  obtain ⟨hlive, hroom, hview⟩ := hsame
  rw [← hview, ← hroom, queueChunkEx]
  rcases hlive.state with hstate | hstate
  · have hnotError : next.view.state ≠ .error := by
      show next.state ≠ .error
      rw [hstate]
      rintro ⟨⟩
    rw [hstate, if_neg (by decide)]
    obtain ⟨hbuffer, hroomState, hsequence⟩ := makeRoom_buffer next data.length now
    set packed := (next.makeRoom data.length now).packChunk ⟨flags, data.length, next.sequence⟩ data
    have hpacked : packed.view = next.view := makeRoom_view next data.length now
    have hpackedLive : packed.Live := hlive.congr hbuffer (.inl hroomState)
    have hpackedRoom : packed.hasRoom data.length = next.hasRoom data.length := hasRoom_congr hbuffer _
    cases hsaved : isSaved flags with
    | false =>
      rw [if_neg Bool.false_ne_true, if_neg (fun h => Bool.false_ne_true h.2.1)]
      exact ⟨hpackedLive, hpacked⟩
    | true =>
      rw [if_pos rfl, saveChunk]
      obtain ⟨hholds, hrecycle, hvalues⟩ := allocate_values hpackedLive ⟨flags, data, next.sequence, now, now⟩
      refine ⟨⟨hpackedLive.state, hholds, hrecycle⟩, ?_⟩
      have hchunks := congrArg (fun chunks => ({ packed.view with chunks := chunks } : ConnView Addr)) hvalues
      refine Eq.trans hchunks ?_
      dsimp only at hpackedRoom ⊢
      rw [hpackedRoom]
      by_cases hroom' : next.hasRoom data.length = true
      · rw [if_pos hroom', if_pos ⟨hnotError, rfl, hroom'⟩]
        exact congrArg (fun view : ConnView Addr =>
          { view with chunks := view.chunks ++ [(⟨flags, data, next.sequence, now, now⟩ : CNetChunkResend)] }) hpacked
      · rw [if_neg hroom', if_neg (fun h => hroom' h.2.2)]
        exact hpacked
  · rw [hstate, if_pos (by decide), if_neg (fun h => h.1 hstate)]
    exact ⟨hlive, rfl⟩

/-! ### Updates -/

lemma updateSend_view {conn : CNetConnection Addr} (h : conn.Live) (now : ℤ) :
    (conn.updateSend now).Live ∧ (conn.updateSend now).view = conn.view := by
  rcases h.state with hstate | hstate
  · rw [updateSend, hstate]
    dsimp only
    obtain ⟨hbuffer, hflushState, -⟩ := flush_buffer conn now
    have hflush : (if now - conn.lastSendTime > timeFreq / 2 then (conn.flush now).1 else conn).Live ∧
        (if now - conn.lastSendTime > timeFreq / 2 then (conn.flush now).1 else conn).view = conn.view := by
      split_ifs
      · exact ⟨h.congr hbuffer (.inl hflushState), flush_view conn now⟩
      · exact ⟨h, rfl⟩
    revert hflush
    generalize (if now - conn.lastSendTime > timeFreq / 2 then (conn.flush now).1 else conn) = flushed
    rintro ⟨hlive, hview⟩
    split_ifs
    · exact ⟨hlive.congr rfl (.inl rfl), hview⟩
    · exact ⟨hlive, hview⟩
  · rw [updateSend, hstate]
    exact ⟨h, rfl⟩

lemma updateResend_view {conn : CNetConnection Addr} (h : conn.Live) (env : NetEnv Addr) (now : ℤ) :
    (conn.updateResend env now).Live ∧
      (conn.updateResend env now).view = conn.view.updateResend env.connTimeout now := by
  obtain ⟨queue, hholds⟩ := h.holds
  have hchunks : conn.view.chunks = queue.map Prod.snd := values_eq hholds
  rw [updateResend, first_spec hholds]
  cases queue with
  | nil => exact ⟨h, (ConnView.updateResend_nil hchunks _ _).symm⟩
  | cons entry queue =>
    rw [ConnView.updateResend_cons hchunks]
    dsimp only [List.head?_cons, Option.map_some]
    by_cases hold : now - entry.2.firstSendTime > timeFreq * env.connTimeout
    · rw [if_pos hold, if_pos hold]
      exact ⟨h.congr rfl (.inr rfl), rfl⟩
    rw [if_neg hold, if_neg hold]
    by_cases hresend : now - entry.2.lastSendTime > timeFreq
    · rw [if_pos hresend, if_pos hresend]
      obtain ⟨hbuffer, hstate, -⟩ := resendChunk_buffer conn entry.2 now
      have hmap := mapFirst_holds (hbuffer ▸ hholds : Holds (conn.resendChunk entry.2 now).buffer (entry :: queue))
        (CNetChunkResend.sentAt now)
      refine ⟨⟨hstate ▸ h.state, ⟨_, hmap⟩, (congrArg CRingBufferBase.recycle hbuffer).trans h.recycle⟩, ?_⟩
      have hview : ({ conn.resendChunk entry.2 now with
          buffer := (conn.resendChunk entry.2 now).buffer.mapFirst (CNetChunkResend.sentAt now) } :
            CNetConnection Addr).view = { (conn.resendChunk entry.2 now).view with
          chunks := ((conn.resendChunk entry.2 now).buffer.mapFirst (CNetChunkResend.sentAt now)).values } := rfl
      refine hview.trans ?_
      rw [values_eq hmap, resendChunk_view]
      rfl
    · rw [if_neg hresend, if_neg hresend]
      exact ⟨h, rfl⟩

/-- `Update` updates the view. -/
lemma update_view {conn : CNetConnection Addr} (h : conn.Live) (env : NetEnv Addr) (now : ℤ) :
    (conn.update env now).Live ∧ (conn.update env now).view = conn.view.update env.connTimeout now := by
  rw [update, ConnView.update]
  set cleared : CNetConnection Addr := if conn.state = .error && conn.timeoutSituation &&
    now - conn.lastRecvTime > timeFreq * env.connTimeoutProtection then
    { conn with timeoutSituation := false } else conn with hcleared
  have hsame : cleared.Live ∧ cleared.view = conn.view := by
    rw [hcleared]
    split_ifs
    · exact ⟨h.congr rfl (.inl rfl), rfl⟩
    · exact ⟨h, rfl⟩
  obtain ⟨hlive, hview⟩ := hsame
  rw [← hview]
  rcases hlive.state with hstate | hstate
  · have hviewState : ¬ cleared.view.state = .error := by
      show ¬ cleared.state = .error
      rw [hstate]
      rintro ⟨⟩
    rw [if_neg (by simp [hstate]), if_neg hviewState]
    dsimp only
    set timed : CNetConnection Addr := if cleared.state ≠ .connect &&
      now - cleared.lastRecvTime > timeFreq * env.connTimeout then
      { cleared with state := .error, timeoutSituation := true }
      else { cleared with timeoutSituation := false } with htimed
    have htimedView : timed.Live ∧ timed.view = (if now - cleared.view.lastRecvTime > timeFreq * env.connTimeout
        then { cleared.view with state := .error } else cleared.view) := by
      rw [htimed]
      by_cases htime : now - cleared.lastRecvTime > timeFreq * env.connTimeout
      · have htimeView : now - cleared.view.lastRecvTime > timeFreq * env.connTimeout := htime
        rw [if_pos (by simp [hstate, htime]), if_pos htimeView]
        exact ⟨hlive.congr rfl (.inr rfl), rfl⟩
      · have htimeView : ¬ now - cleared.view.lastRecvTime > timeFreq * env.connTimeout := htime
        rw [if_neg (by simp [htime]), if_neg htimeView]
        exact ⟨hlive.congr rfl (.inl rfl), rfl⟩
    obtain ⟨htimedLive, htimedView⟩ := htimedView
    obtain ⟨hresendLive, hresendView⟩ := updateResend_view htimedLive env now
    obtain ⟨hsendLive, hsendView⟩ := updateSend_view hresendLive now
    exact ⟨hsendLive, hsendView.trans (hresendView.trans (by rw [htimedView]))⟩
  · have hviewState : cleared.view.state = .error := hstate
    rw [if_pos (by simp [hstate]), if_pos hviewState]
    exact ⟨hlive, rfl⟩

/-! ### Receiving -/

lemma ackChunksLoop_holds {fuel : ℕ} {buffer : CRingBufferBase CNetChunkResend}
    {queue : List (ℕ × CNetChunkResend)} (h : Holds buffer queue) (hfuel : queue.length ≤ fuel) (ack : ℕ) :
    Holds (ackChunksLoop fuel buffer ack) (queue.dropWhile fun x => isSeqInBackroom x.2.sequence ack) := by
  induction fuel generalizing buffer queue with
  | zero =>
    obtain rfl := List.eq_nil_of_length_eq_zero (Nat.le_zero.1 hfuel)
    exact h
  | succ fuel ih =>
    rw [ackChunksLoop, first_spec h]
    cases queue with
    | nil => exact h
    | cons x queue =>
      dsimp only [List.head?_cons, Option.map_some]
      by_cases hback : isSeqInBackroom x.2.sequence ack = true
      · rw [if_pos hback, List.dropWhile_cons_of_pos (by exact hback)]
        exact ih (popFirst_spec h).2.1 (Nat.le_of_succ_le_succ hfuel)
      · rw [if_neg hback, List.dropWhile_cons_of_neg (by exact hback)]
        exact h

lemma feedAck_view {conn : CNetConnection Addr} (h : conn.Live) (ack : ℕ) (now : ℤ) :
    (conn.feedAck ack now).Live ∧ (conn.feedAck ack now).view = conn.view.takeAck ack now := by
  rw [feedAck, ConnView.takeAck]
  by_cases hstate : conn.state = .online
  · have hviewState : conn.view.state = .online := hstate
    rw [if_pos hstate, if_pos hviewState]
    obtain ⟨queue, hholds⟩ := h.holds
    have hacked := ackChunksLoop_holds hholds hholds.length_le ack
    obtain ⟨-, -, -, -, hsame, -⟩ :=
      @ackChunksLoop_spec conn.buffer.items.length conn.buffer queue hholds ack
    refine ⟨⟨h.state, ⟨_, hacked⟩, hsame.2.1.trans h.recycle⟩, ?_⟩
    have hvalues : (ackChunksLoop conn.buffer.items.length conn.buffer ack).values =
        conn.buffer.values.dropWhile fun chunk => isSeqInBackroom chunk.sequence ack := by
      rw [values_eq hacked, values_eq hholds, List.dropWhile_map]
      rfl
    exact congrArg (fun chunks => ({ conn.view with lastRecvTime := now, chunks := chunks } : ConnView Addr)) hvalues
  · have hviewState : ¬ conn.view.state = .online := hstate
    rw [if_neg hstate, if_neg hviewState]
    exact ⟨h, rfl⟩

variable [DecidableEq Addr]

/-- While it is online or in an error, the only control message that changes a connection closes it. -/
lemma feedControl_view {conn : CNetConnection Addr} (h : conn.Live) (env : NetEnv Addr)
    (packet : CNetPacketConstruct) (responseToken : SecurityToken) (now : ℤ) :
    conn.feedControl env packet conn.peerAddr responseToken now =
      if packet.chunkData.getD 0 0 = netCtrlmsgClose then ({ conn with state := .error }, false)
      else (conn, true) := by
  rw [feedControl]
  dsimp only
  by_cases hclose : packet.chunkData.getD 0 0 = netCtrlmsgClose
  · rw [if_pos hclose, if_pos hclose]
    rcases h.state with hstate | hstate <;> rw [hstate] <;> simp
  · rw [if_neg hclose, if_neg hclose]
    rcases h.state with hstate | hstate <;> rw [hstate] <;> simp

lemma feedAccepted_view {conn : CNetConnection Addr} (h : conn.Live) (env : NetEnv Addr)
    (packet : CNetPacketConstruct) (responseToken : SecurityToken) (now : ℤ) :
    (conn.feedAccepted env packet conn.peerAddr responseToken now).1.Live ∧
      ((conn.feedAccepted env packet conn.peerAddr responseToken now).1.view,
        (conn.feedAccepted env packet conn.peerAddr responseToken now).2) =
        if hasFlag packet.flags netPacketflagControl ∧ packet.chunkData.getD 0 0 = netCtrlmsgClose then
          ({ conn.view.takeResend packet now with state := .error }, false)
        else ((conn.view.takeResend packet now).takeAck packet.ack now, true) := by
  rw [feedAccepted]
  have hpeer : ({ conn with peerAck := packet.ack } : CNetConnection Addr).Live := h.congr rfl (.inl rfl)
  have hresend : ∀ resent, resent = (if hasFlag packet.flags netPacketflagResend = true then
      ({ conn with peerAck := packet.ack } : CNetConnection Addr).resend now
      else { conn with peerAck := packet.ack }) →
      resent.Live ∧ resent.view = conn.view.takeResend packet now ∧ resent.peerAddr = conn.peerAddr := by
    rintro resent rfl
    rw [ConnView.takeResend]
    split_ifs
    · obtain ⟨hlive, hview⟩ := resend_view hpeer now
      refine ⟨hlive, hview, ?_⟩
      exact congrArg ConnView.peerAddr hview
    · exact ⟨hpeer, rfl, rfl⟩
  dsimp only
  revert hresend
  generalize (if hasFlag packet.flags netPacketflagResend = true then
    ({ conn with peerAck := packet.ack } : CNetConnection Addr).resend now
    else { conn with peerAck := packet.ack }) = resent
  intro hresend
  obtain ⟨hlive, hview, haddr⟩ := hresend resent rfl
  obtain ⟨hackLive, hackView⟩ := feedAck_view hlive packet.ack now
  rw [← hview]
  by_cases hcontrol : hasFlag packet.flags netPacketflagControl = true
  · rw [if_pos hcontrol, ← haddr, feedControl_view hlive]
    by_cases hclose : packet.chunkData.getD 0 0 = netCtrlmsgClose
    · rw [if_pos hclose, if_pos ⟨hcontrol, hclose⟩]
      exact ⟨hlive.congr rfl (.inr rfl), rfl⟩
    · rw [if_neg hclose, if_neg fun h => hclose h.2]
      exact ⟨hackLive, congrArg (·, true) hackView⟩
  · have hpending : ¬ resent.state = .pending := by
      rcases hlive.state with hstate | hstate <;> rw [hstate] <;> rintro ⟨⟩
    rw [if_neg hcontrol, if_neg hpending, if_neg fun h => hcontrol h.1]
    exact ⟨hackLive, congrArg (·, true) hackView⟩

/-- `Feed` feeds the view. -/
lemma feed_view {conn : CNetConnection Addr} (h : conn.Live) (env : NetEnv Addr) (packet : CNetPacketConstruct)
    (addr : Addr) (securityToken responseToken : SecurityToken) (now : ℤ) :
    (conn.feed env packet addr securityToken responseToken now).1.Live ∧
      ((conn.feed env packet addr securityToken responseToken now).1.view,
        (conn.feed env packet addr securityToken responseToken now).2.2) =
        conn.view.feed packet addr securityToken now := by
  have hstrip : conn.stripToken packet = conn.view.stripToken packet := by
    rw [stripToken, ConnView.stripToken]
    rcases h.state with hstate | hstate <;> rw [hstate] <;> cases hsixup : conn.sixup <;>
      simp [view, hsixup]
  have htoken : (conn.sixup && securityToken ≠ conn.token) =
      conn.view.token.any (· ≠ securityToken) := by
    rw [view]
    cases conn.sixup with
    | false => rfl
    | true => simp [eq_comm]
  have hpeer : conn.view.peerAddr = conn.peerAddr := rfl
  have hack : ackValid conn.view.sequence conn.view.peerAck = ackValid conn.sequence conn.peerAck := rfl
  rw [feed, ConnView.feed, hpeer]
  by_cases haddr : addr = conn.peerAddr
  swap
  · rw [if_pos (by rcases h.state with hstate | hstate <;> rw [hstate] <;> simp [haddr]), if_pos haddr]
    exact ⟨h, rfl⟩
  subst haddr
  rw [if_neg (by simp), if_neg (fun h => h rfl), hstrip]
  rcases conn.view.stripToken packet with ⟨stripped, _ | _⟩
  · exact ⟨h, rfl⟩
  · dsimp only
    rw [htoken, hack]
    by_cases hany : conn.view.token.any (· ≠ securityToken) = true
    · rw [if_pos hany, if_pos hany]
      exact ⟨h, rfl⟩
    rw [if_neg hany, if_neg hany]
    by_cases hvalid : (!ackValid conn.sequence conn.peerAck stripped.ack) = true
    · rw [if_pos hvalid, if_pos hvalid]
      exact ⟨h, rfl⟩
    rw [if_neg hvalid, if_neg hvalid]
    exact feedAccepted_view h env stripped responseToken now

omit [DecidableEq Addr] in
lemma split_view {conn conn' : CNetConnection Addr} (h : conn.view = conn'.view) : conn.split = conn'.split := by
  have htoken : conn.view.token.isSome = conn'.view.token.isSome := by rw [h]
  rw [split, split]
  cases hsixup : conn.sixup <;> cases hsixup' : conn'.sixup <;> simp [view, hsixup, hsixup'] at htoken ⊢

omit [DecidableEq Addr] in
lemma handleSequence_view {conn : CNetConnection Addr} (h : conn.Live) (header : CNetChunkHeader) :
    (CNetRecvUnpacker.handleSequence conn header).1.Live ∧
      ((CNetRecvUnpacker.handleSequence conn header).1.view,
        (CNetRecvUnpacker.handleSequence conn header).2) = conn.view.handleSequence header := by
  have hack : conn.view.ack = conn.ack := rfl
  have hunknown : conn.view.unknownSeq = conn.unknownSeq := rfl
  rw [CNetRecvUnpacker.handleSequence, ConnView.handleSequence, hack, hunknown]
  by_cases hvital : CNetChunkHeader.isVital header.flags = true
  swap
  · rw [if_neg hvital, if_neg hvital]
    exact ⟨h, rfl⟩
  rw [if_pos hvital, if_pos hvital]
  by_cases hnext : (decide (header.sequence = ((conn.ack + 1) % netMaxSequence : ℕ)) || conn.unknownSeq) = true
  · rw [if_pos hnext, if_pos hnext]
    exact ⟨h.congr rfl (.inl rfl), rfl⟩
  rw [if_neg hnext, if_neg hnext]
  split_ifs
  · exact ⟨h, rfl⟩
  · exact ⟨h.congr rfl (.inl rfl), rfl⟩

omit [DecidableEq Addr] in
/-- Connections of the same view hand out the same chunks. -/
lemma fetchChunk_view {conn conn' : CNetConnection Addr} (h : conn.Live) (h' : conn'.Live)
    (hview : conn.view = conn'.view) (unpacker : CNetRecvUnpacker) :
    (unpacker.fetchChunk conn).1 = (unpacker.fetchChunk conn').1 ∧
      (unpacker.fetchChunk conn).2.2 = (unpacker.fetchChunk conn').2.2 ∧
      (unpacker.fetchChunk conn).2.1.Live ∧ (unpacker.fetchChunk conn').2.1.Live ∧
      (unpacker.fetchChunk conn).2.1.view = (unpacker.fetchChunk conn').2.1.view := by
  induction hn : unpacker.data.numChunks - unpacker.currentChunk using Nat.strong_induction_on
    generalizing unpacker conn conn' with
  | _ n ih =>
    rw [CNetRecvUnpacker.fetchChunk, CNetRecvUnpacker.fetchChunk, split_view hview]
    by_cases hdone : unpacker.valid = false ∨ unpacker.data.numChunks ≤ unpacker.currentChunk
    · rw [dif_pos hdone, dif_pos hdone]
      exact ⟨rfl, rfl, h, h', hview⟩
    rw [dif_neg hdone, dif_neg hdone]
    cases (CNetRecvUnpacker.skipChunks conn'.split unpacker.currentChunk unpacker.data.chunkData).bind
      (CNetChunkHeader.unpack conn'.split) with
    | none => exact ⟨rfl, rfl, h, h', hview⟩
    | some chunk =>
      obtain ⟨header, data⟩ := chunk
      dsimp only
      by_cases hsize : header.size > data.length
      · rw [if_pos hsize, if_pos hsize]
        exact ⟨rfl, rfl, h, h', hview⟩
      rw [if_neg hsize, if_neg hsize]
      obtain ⟨hlive, hhandled⟩ := handleSequence_view h header
      obtain ⟨hlive', hhandled'⟩ := handleSequence_view h' header
      rw [hview, ← hhandled'] at hhandled
      obtain ⟨hsame, hout⟩ := Prod.mk.inj hhandled
      rcases hfirst : CNetRecvUnpacker.handleSequence conn header with ⟨next, out⟩
      rcases hsecond : CNetRecvUnpacker.handleSequence conn' header with ⟨next', out'⟩
      rw [hfirst] at hlive hsame hout
      rw [hsecond] at hlive' hsame hout
      dsimp only at hlive hlive' hsame hout
      subst hout
      cases out with
      | true => exact ⟨rfl, rfl, hlive, hlive', hsame⟩
      | false =>
        dsimp only
        have hlt : unpacker.data.numChunks - (unpacker.currentChunk + 1) < n := by
          have := not_or.1 hdone
          omega
        exact ih _ hlt hlive hlive' hsame { unpacker with currentChunk := unpacker.currentChunk + 1 } rfl

end CNetConnection

end DDNet
