/-
Vital chunks between two connections (`CNetConnection`, `CNetRecvUnpacker::FetchChunk`).

The network loses, repeats and reorders datagrams, but none of them is looked at when more than 100 vital chunks have
been queued since it was sent.  Each end hands out the vital chunks of the other one in order and once each, and a chunk
that is not handed out yet is still saved for a resend (`handed_prefix`).  The sequence numbers are no problem: the
resend buffer has room for less than half a round of them.
-/
import Mathlib.Data.List.TakeWhile
import DDNet.Shared.ChunkStream
import DDNet.Shared.ConnView

namespace DDNet

open CNetPacketConstruct CRingBufferBase

/-! ### Two ends -/

/-- An end of the link.  `queued` and `handed` are the data of the vital chunks; a datagram is stamped with the number
of vital chunks that both ends had queued when it was sent. -/
structure LinkEnd (Addr : Type*) where
  conn : CNetConnection Addr
  unpacker : CNetRecvUnpacker
  /-- The stamp of the datagram in the unpacker. -/
  stamp : ℕ
  queued : List (List UInt8)
  handed : List (List UInt8)
  sent : List (ℕ × List UInt8)

abbrev Link (Addr : Type*) := Bool → LinkEnd Addr

inductive LinkEvent
  | queueChunk (i vital : Bool) (data : List UInt8) (now : ℤ)
  | flush (i : Bool) (now : ℤ)
  | update (i : Bool) (now : ℤ)
  | recv (i : Bool) (k : ℕ) (now : ℤ)
  | fetchChunk (i : Bool)

namespace LinkEnd

variable {Addr : Type*}

/-- The connection changes, and what it hands to the socket is sent. -/
def withConn (e : LinkEnd Addr) (clock : ℕ) (conn : CNetConnection Addr) : LinkEnd Addr :=
  { e with
    conn
    sent := e.sent ++ (conn.socket.drop e.conn.socket.length).map fun entry => (clock, entry.2) }

/-- A chunk is queued, vital or not, as `CNetClient::Send` and `CNetServer::Send` do. -/
def queueChunk (e : LinkEnd Addr) (clock : ℕ) (vital : Bool) (data : List UInt8) (now : ℤ) : LinkEnd Addr :=
  if vital then
    { e.withConn (clock + 1) (e.conn.queueChunk netChunkflagVital data now).1 with queued := e.queued ++ [data] }
  else e.withConn clock (e.conn.queueChunk 0 data now).1

/-- A datagram of the peer is read, as in `CNetClient::Recv` and `CNetServer::Recv`. -/
def recv [DecidableEq Addr] (env : NetEnv Addr) (e : LinkEnd Addr) (clock : ℕ) (addr : Addr)
    (datagram : ℕ × List UInt8) (now : ℤ) : LinkEnd Addr :=
  match CNetBase.unpackPacket datagram.2 e.conn.sixup true true with
  | none => e
  | some result =>
    -- connectionless packets do not reach the connection
    if hasFlag result.packet.flags netPacketflagConnless then e
    else
      let fed := e.conn.feed env result.packet addr (result.securityToken.getD 0)
        (result.responseToken.getD netSecurityTokenUnknown) now
      if fed.2.2 then { e.withConn clock fed.1 with unpacker := .start fed.2.1, stamp := datagram.1 }
      else e.withConn clock fed.1

/-- The data of a chunk that is handed out, if it is vital. -/
def vitalData : Option CNetChunk → List (List UInt8)
  | none => []
  | some chunk => if CNetChunkHeader.isVital chunk.flags then [chunk.data] else []

def fetchChunk (e : LinkEnd Addr) : LinkEnd Addr :=
  let fetched := e.unpacker.fetchChunk e.conn
  { e with unpacker := fetched.1, conn := fetched.2.1, handed := e.handed ++ vitalData fetched.2.2 }

end LinkEnd

namespace Link

variable {Addr : Type*} [DecidableEq Addr] (env : NetEnv Addr) (addr : Bool → Addr)

/-- The number of vital chunks that were queued. -/
def clock (w : Link Addr) : ℕ := (w false).queued.length + (w true).queued.length

def step (w : Link Addr) : LinkEvent → Link Addr
  | .queueChunk i vital data now => Function.update w i ((w i).queueChunk (clock w) vital data now)
  | .flush i now => Function.update w i ((w i).withConn (clock w) ((w i).conn.flush now).1)
  | .update i now => Function.update w i ((w i).withConn (clock w) ((w i).conn.update env now))
  | .recv i k now =>
      -- any datagram of the peer, at any time
      match (w !i).sent[k]? with
      | none => w
      | some datagram => Function.update w i ((w i).recv env (clock w) (addr !i) datagram now)
  | .fetchChunk i => Function.update w i (w i).fetchChunk

/-- More vital chunks are never queued between the sending of a datagram and its reading. -/
def maxDelay : ℕ := 100

/-- What may happen: only connections that are online are used, the chunks fit into a packet, and `QueueChunk` does not
fail for a vital chunk.  A datagram is read when the last one is done. -/
def Enabled (w : Link Addr) : LinkEvent → Prop
  | .queueChunk i vital data now => (w i).conn.state = .online ∧
      data.length + netMaxChunkheadersize ≤ netMaxPayload - securityTokenSize ∧
      data.length < 2 ^ (6 + (w i).conn.split) ∧
      (vital = true → ((w i).conn.queueChunk netChunkflagVital data now).2 = true)
  | .flush i _ => (w i).conn.state = .online
  | .update i _ => (w i).conn.state = .online
  | .recv i k _ => (w i).conn.state = .online ∧ (w i).unpacker.valid = false ∧
      ∀ datagram ∈ (w !i).sent[k]?, clock w ≤ datagram.1 + maxDelay
  | .fetchChunk i => clock w ≤ (w i).stamp + maxDelay

/-- Connections that were just set up with each other; what they sent before that is not read any more. -/
structure Fresh (w : Link Addr) : Prop where
  state : ∀ i, (w i).conn.state = .online
  sequence : ∀ i, (w i).conn.sequence = 0
  ack : ∀ i, (w i).conn.ack = 0
  peerAck : ∀ i, (w i).conn.peerAck = 0
  unknownSeq : ∀ i, (w i).conn.unknownSeq = false
  buffer : ∀ i, (w i).conn.buffer = initBuffer
  construct : ∀ i, (w i).conn.construct = .zero
  sixup : (w false).conn.sixup = (w true).conn.sixup
  securityToken : ∀ i, (w i).conn.sixup = false → (w i).conn.securityToken = (w !i).conn.securityToken ∧
    (w i).conn.securityToken ≠ netSecurityTokenUnknown
  queued : ∀ i, (w i).queued = []
  handed : ∀ i, (w i).handed = []
  sent : ∀ i, (w i).sent = []
  unpacker : ∀ i, (w i).unpacker.valid = false

inductive Reachable : Link Addr → Prop
  | fresh {w : Link Addr} (h : Fresh w) : Reachable w
  | step {w : Link Addr} {e : LinkEvent} (h : Reachable w) (henabled : Enabled w e) : Reachable (step env addr w e)

end Link

/-! ### What holds of an end -/

/-- How far an end has got: the vital chunks it has queued, how many of the peer it has handed out, and how many of its
own the peer has acknowledged. -/
structure Progress where
  queued : List (List UInt8)
  received : ℕ
  acked : ℕ

namespace Progress

/-- The numbers of the chunks that are not acknowledged. -/
def unacked (g : Progress) : List ℕ := List.range' (g.acked + 1) (g.queued.length - g.acked)

/-- The resend buffer has them. -/
def saved (g : Progress) : List (ℕ × List UInt8 × ℕ) :=
  g.unacked.map fun n => (netChunkflagVital, g.queued.getD (n - 1) [], n % netMaxSequence)

end Progress

/-- The chunk is what was queued under its number. -/
structure Piece.Queued (queued : List (List UInt8)) (split : ℕ) (p : Piece) : Prop where
  fits : p.Fits split
  pos : p.isVital = true → 0 < p.number
  data : p.isVital = true → queued[p.number - 1]? = some p.data

/-- The size of a packet before it is flushed for another chunk. -/
def maxPacked : ℕ := netMaxPayload - securityTokenSize

/-- The items that the resend buffer has room for. -/
def maxSaved : ℕ := 455

/-- A vital chunk was among those that the resend buffer can hold when it was packed, and since then each vital chunk
that was queued has been packed behind it. -/
def Aged (split count : ℕ) : List Piece → Prop
  | [] => True
  | p :: pieces => (p.isVital = true → 3 * (count + 1) ≤ 3 * (p.number + maxSaved) + (chunkBytes split pieces).length) ∧
      Aged split count pieces

/-- The chunks of a packet that is being built. -/
structure Packed (g : Progress) (split : ℕ) (construct : CNetPacketConstruct) (pieces : List Piece) : Prop where
  chunkData : construct.chunkData = chunkBytes split pieces
  numChunks : construct.numChunks = pieces.length
  size : construct.dataSize ≤ maxPacked
  flags : ∃ resend, construct.flags = CNetBase.packetFlags false resend
  queued : ∀ p ∈ pieces, p.Queued g.queued split
  aged : Aged split g.queued.length pieces

/-- What does not change. -/
structure LinkKeys where
  securityToken : SecurityToken
  sixup : Bool

def CNetConnection.keys {Addr : Type*} (conn : CNetConnection Addr) : LinkKeys := ⟨conn.securityToken, conn.sixup⟩

def LinkKeys.split (keys : LinkKeys) : ℕ := if keys.sixup then 6 else 4

/-- The buffer has the chunks that are not acknowledged. -/
def Saves (g : Progress) (buffer : CRingBufferBase CNetChunkResend) : Prop :=
  ∃ queue, Holds buffer queue ∧ (∀ x ∈ queue, wantedSize chunkResendSize ≤ x.1) ∧
    queue.map (fun x => x.2.chunk) = g.saved

/-- The invariant of a connection, apart from its sequence number and the ack of its peer. -/
structure EndInv {Addr : Type*} (g : Progress) (conn : CNetConnection Addr) : Prop where
  received : Received g.received conn
  acked_le : g.acked ≤ g.queued.length
  fits : ∀ data ∈ g.queued, data.length + netMaxChunkheadersize ≤ maxPacked ∧ data.length < 2 ^ (6 + conn.split)
  buffer : Saves g conn.buffer
  memory : conn.buffer.recycle = false ∧ conn.buffer.size ≤ netConnBuffersize
  construct : ∃ pieces, Packed g conn.split conn.construct pieces

/-- The age of a chunk when its packet is flushed: the chunks that the resend buffer can hold, and those that a packet
can hold. -/
def maxAge : ℕ := 916

/-- The datagram was sent with an ack and chunks of the given age. -/
def SentAs (keys : LinkKeys) (queued : List (List UInt8)) (age ack : ℕ) (datagram : List UInt8) :
    Prop :=
  ∃ packet : CNetPacketConstruct, ∃ control resend : Bool,
    datagram = CNetBase.sendPacket packet keys.securityToken keys.sixup control ∧
    packet.flags = CNetBase.packetFlags control resend ∧ packet.ack = ack % netMaxSequence ∧
    packet.dataSize ≤ maxPacked ∧
    (control = true ∧ packet.chunkData = [netCtrlmsgKeepalive] ∧ packet.numChunks = 0 ∨
      control = false ∧ ∃ pieces, packet.chunkData = chunkBytes keys.split pieces ∧
        packet.numChunks = pieces.length ∧ (∀ p ∈ pieces, p.Queued queued keys.split) ∧
        ∀ p ∈ pieces, p.isVital = true → queued.length ≤ p.number + age)

/-- What an operation of a connection does that queues no vital chunk and takes no ack. -/
structure Evolves {Addr : Type*} (g : Progress) (conn conn' : CNetConnection Addr) : Prop where
  inv : EndInv g conn'
  keys : conn'.keys = conn.keys
  sequence : conn'.sequence = conn.sequence
  peerAck : conn'.peerAck = conn.peerAck
  state : conn'.state = conn.state ∨ conn'.state = .error
  sent : ∃ new, conn'.socket = conn.socket ++ new ∧
    ∀ entry ∈ new, SentAs conn.keys g.queued maxAge g.received entry.2

/-- The invariant of a connection that is in use. -/
structure Tracks {Addr : Type*} (g : Progress) (conn : CNetConnection Addr) : Prop extends EndInv g conn where
  sequence : conn.sequence = g.queued.length % netMaxSequence
  peerAck : conn.peerAck = g.acked % netMaxSequence
  state : conn.state = .online ∨ conn.state = .error

/-- What an operation does that gets the end further. -/
structure Moves {Addr : Type*} (g g' : Progress) (conn conn' : CNetConnection Addr) : Prop where
  tracks : Tracks g' conn'
  keys : conn'.keys = conn.keys
  sent : ∃ new, conn'.socket = conn.socket ++ new ∧
    ∀ entry ∈ new, SentAs conn.keys g.queued maxAge g.received entry.2

/-! ### Ages and numbers -/

section Numbers

variable {split count : ℕ} {pieces : List Piece} {p : Piece} {queued more : List (List UInt8)}

lemma Piece.Queued.append (h : p.Queued queued split) (more : List (List UInt8)) : p.Queued (queued ++ more) split where
  fits := h.fits
  pos := h.pos
  data hvital := by
    have hdata := h.data hvital
    obtain ⟨hlt, -⟩ := List.getElem?_eq_some_iff.1 hdata
    rw [List.getElem?_append_left hlt, hdata]

lemma Piece.Queued.number_le (h : p.Queued queued split) (hvital : p.isVital = true) : p.number ≤ queued.length := by
  obtain ⟨hlt, -⟩ := List.getElem?_eq_some_iff.1 (h.data hvital)
  omega

lemma aged_append (h : Aged split count pieces)
    (hp : p.isVital = true → count + 1 ≤ p.number + maxSaved) : Aged split count (pieces ++ [p]) := by
  induction pieces with
  | nil =>
    refine ⟨fun hvital => ?_, trivial⟩
    have hle := hp hvital
    omega
  | cons q pieces ih =>
    refine ⟨fun hvital => ?_, ih h.2⟩
    have hle := h.1 hvital
    change _ ≤ _ + (chunkBytes split (pieces ++ [p])).length
    rw [chunkBytes_append, List.length_append]
    omega

/-- One more chunk is queued and packed. -/
lemma aged_append_next (h : Aged split count pieces) (hvital : p.isVital = true)
    (hp : count + 2 ≤ p.number + maxSaved) : Aged split (count + 1) (pieces ++ [p]) := by
  induction pieces with
  | nil => exact ⟨fun _ => by omega, trivial⟩
  | cons q pieces ih =>
    refine ⟨fun hq => ?_, ih h.2⟩
    have hle := h.1 hq
    have hthree := Piece.three_le_length_bytes split hvital
    change _ ≤ _ + (chunkBytes split (pieces ++ [p])).length
    rw [chunkBytes_append, List.length_append, show chunkBytes split [p] = p.bytes split from List.flatMap_singleton ..]
    omega

/-- The age of the chunks of a whole packet. -/
lemma Aged.le (h : Aged split count pieces) (hsize : (chunkBytes split pieces).length ≤ maxPacked) :
    ∀ p ∈ pieces, p.isVital = true → count ≤ p.number + maxAge := by
  induction pieces with
  | nil => exact fun p hp => absurd hp List.not_mem_nil
  | cons q pieces ih =>
    have hcons : (chunkBytes split (q :: pieces)).length =
        (q.bytes split).length + (chunkBytes split pieces).length := by
      rw [chunkBytes, List.flatMap_cons, List.length_append, chunkBytes]
    refine List.forall_mem_cons.2 ⟨fun hvital => ?_, ih h.2 (by omega)⟩
    have hle := h.1 hvital
    have hthree := Piece.three_le_length_bytes split hvital
    rw [maxPacked, netMaxPayload, netMaxPacketsize, securityTokenSize] at hsize
    rw [maxSaved] at hle
    rw [maxAge]
    omega

end Numbers

section Operations

variable {Addr : Type*} {g : Progress} {conn conn' conn'' : CNetConnection Addr}

lemma EndInv.of_construct (h : EndInv g conn) (hack : conn'.ack = conn.ack)
    (hunknown : conn'.unknownSeq = conn.unknownSeq) (hsixup : conn'.sixup = conn.sixup)
    (hbuffer : conn'.buffer = conn.buffer)
    (hconstruct : ∃ pieces, Packed g conn.split conn'.construct pieces) : EndInv g conn' := by
  have hsplit : conn'.split = conn.split := by rw [CNetConnection.split, CNetConnection.split, hsixup]
  exact
    { received := ⟨hack.trans h.received.ack, hunknown.trans h.received.unknownSeq⟩
      acked_le := h.acked_le
      fits := hsplit ▸ h.fits
      buffer := hbuffer ▸ h.buffer
      memory := hbuffer ▸ h.memory
      construct := hsplit ▸ hconstruct }

lemma EndInv.congr (h : EndInv g conn) (hack : conn'.ack = conn.ack) (hunknown : conn'.unknownSeq = conn.unknownSeq)
    (hsixup : conn'.sixup = conn.sixup) (hbuffer : conn'.buffer = conn.buffer)
    (hconstruct : conn'.construct = conn.construct) : EndInv g conn' :=
  h.of_construct hack hunknown hsixup hbuffer (hconstruct ▸ h.construct)

/-- The resend buffer has no room for more. -/
lemma EndInv.length_le (h : EndInv g conn) : g.queued.length ≤ g.acked + maxSaved := by
  obtain ⟨queue, hholds, hsizes, hsaved⟩ := h.buffer
  have hlength : queue.length = g.queued.length - g.acked := by
    have hmap := congrArg List.length hsaved
    rwa [List.length_map, Progress.saved, List.length_map, Progress.unacked, List.length_range'] at hmap
  have hsum : queue.length * wantedSize chunkResendSize ≤ (queue.map Prod.fst).sum := by
    have hcard := List.card_nsmul_le_sum (queue.map Prod.fst) (wantedSize chunkResendSize) fun size hsize => by
      obtain ⟨x, hx, rfl⟩ := List.mem_map.1 hsize
      exact hsizes x hx
    rwa [List.length_map, smul_eq_mul] at hcard
  have hroom := hsum.trans (hholds.sum_le.trans h.memory.2)
  have hwanted : wantedSize chunkResendSize = 72 := rfl
  rw [hwanted, netConnBuffersize] at hroom
  rw [maxSaved]
  omega

lemma Evolves.refl (h : EndInv g conn) : Evolves g conn conn where
  inv := h
  keys := rfl
  sequence := rfl
  peerAck := rfl
  state := .inl rfl
  sent := ⟨[], (List.append_nil _).symm, fun _ hentry => absurd hentry List.not_mem_nil⟩

lemma Evolves.trans (h : Evolves g conn conn') (h' : Evolves g conn' conn'') : Evolves g conn conn'' where
  inv := h'.inv
  keys := h'.keys.trans h.keys
  sequence := h'.sequence.trans h.sequence
  peerAck := h'.peerAck.trans h.peerAck
  state := h'.state.elim (fun hsame => hsame ▸ h.state) .inr
  sent := by
    obtain ⟨new, hsocket, hnew⟩ := h.sent
    obtain ⟨new', hsocket', hnew'⟩ := h'.sent
    refine ⟨new ++ new', by rw [hsocket', hsocket, List.append_assoc], fun entry hentry => ?_⟩
    rcases List.mem_append.1 hentry with hold | hlast
    · exact hnew entry hold
    · exact h.keys ▸ hnew' entry hlast

lemma CNetConnection.split_eq {conn conn' : CNetConnection Addr} (h : conn'.keys = conn.keys) :
    conn'.split = conn.split :=
  congrArg LinkKeys.split h

/-- Fields that the invariant does not depend on are set. -/
lemma Evolves.congr (h : Evolves g conn conn') (hack : conn''.ack = conn'.ack)
    (hunknown : conn''.unknownSeq = conn'.unknownSeq) (hkeys : conn''.keys = conn'.keys)
    (hbuffer : conn''.buffer = conn'.buffer) (hconstruct : conn''.construct = conn'.construct)
    (hsequence : conn''.sequence = conn'.sequence) (hpeer : conn''.peerAck = conn'.peerAck)
    (hstate : conn''.state = conn'.state ∨ conn''.state = .error) (hsocket : conn''.socket = conn'.socket) :
    Evolves g conn conn'' where
  inv := h.inv.congr hack hunknown (congrArg LinkKeys.sixup hkeys) hbuffer hconstruct
  keys := hkeys.trans h.keys
  sequence := hsequence.trans h.sequence
  peerAck := hpeer.trans h.peerAck
  state := hstate.elim (fun hsame => hsame ▸ h.state) .inr
  sent := hsocket ▸ h.sent

lemma Evolves.moves (h : Evolves g conn conn') (htracks : Tracks g conn) : Moves g g conn conn' where
  tracks :=
    { h.inv with
      sequence := h.sequence.trans htracks.sequence
      peerAck := h.peerAck.trans htracks.peerAck
      state := h.state.elim (fun hsame => hsame ▸ htracks.state) .inr }
  keys := h.keys
  sent := h.sent

/-! ### Sending -/

lemma packed_zero (g : Progress) (split : ℕ) : Packed g split .zero [] where
  chunkData := rfl
  numChunks := rfl
  size := Nat.zero_le _
  flags := ⟨false, rfl⟩
  queued := fun _ hp => absurd hp List.not_mem_nil
  aged := trivial

lemma flush_evolves (h : EndInv g conn) (now : ℤ) :
    Evolves g conn (conn.flush now).1 ∧ (conn.flush now).1.construct.dataSize = 0 := by
  obtain ⟨pieces, hpacked⟩ := h.construct
  rw [CNetConnection.flush]
  split_ifs with hempty
  · refine ⟨.refl h, ?_⟩
    simp only [Bool.and_eq_true, decide_eq_true_eq] at hempty
    have hnil : pieces = [] := List.eq_nil_of_length_eq_zero (hpacked.numChunks.symm.trans hempty.1)
    rw [dataSize, hpacked.chunkData, hnil]
    rfl
  · obtain ⟨resend, hflags⟩ := hpacked.flags
    refine ⟨⟨?_, rfl, rfl, rfl, .inl rfl, [_], rfl, fun entry hentry => ?_⟩, rfl⟩
    · exact h.of_construct rfl rfl rfl rfl ⟨[], packed_zero g _⟩
    · rw [List.mem_singleton.1 hentry]
      refine ⟨{ conn.construct with ack := conn.ack }, false, resend, rfl, hflags, h.received.ack, hpacked.size,
        .inr ⟨rfl, pieces, hpacked.chunkData, hpacked.numChunks, hpacked.queued, ?_⟩⟩
      exact hpacked.aged.le (hpacked.chunkData ▸ hpacked.size)

lemma makeRoom_evolves (h : EndInv g conn) {size : ℕ} (hsize : size + netMaxChunkheadersize ≤ maxPacked) (now : ℤ) :
    Evolves g conn (conn.makeRoom size now) ∧
      (conn.makeRoom size now).construct.dataSize + size + netMaxChunkheadersize ≤ maxPacked := by
  rw [CNetConnection.makeRoom]
  split_ifs with hfull
  · obtain ⟨hflush, hzero⟩ := flush_evolves h now
    exact ⟨hflush, by rw [hzero]; omega⟩
  · exact ⟨.refl h, Nat.le_of_not_lt hfull⟩

/-- The chunk of a piece is packed behind the others. -/
lemma Packed.append {split : ℕ} {construct : CNetPacketConstruct} {pieces : List Piece} {p : Piece}
    (h : Packed g split construct pieces) (hp : p.Queued g.queued split)
    (hroom : construct.dataSize + p.data.length + netMaxChunkheadersize ≤ maxPacked)
    (hage : Aged split g.queued.length (pieces ++ [p])) :
    Packed g split { construct with
      numChunks := construct.numChunks + 1
      chunkData := construct.chunkData ++ p.bytes split } (pieces ++ [p]) where
  chunkData := by
    rw [chunkBytes_append, h.chunkData]
    exact congrArg _ (List.flatMap_singleton ..).symm
  numChunks := by
    rw [List.length_append, h.numChunks]
    rfl
  size := by
    have hle := p.length_bytes_le split
    rw [dataSize, List.length_append]
    rw [dataSize] at hroom
    omega
  flags := h.flags
  queued := fun q hq => (List.mem_append.1 hq).elim (h.queued q) fun hlast => List.mem_singleton.1 hlast ▸ hp
  aged := hage

/-- A chunk that is not saved is packed. -/
lemma queueChunkEx_evolves {p : Piece} (h : EndInv g conn) (hp : p.Queued g.queued conn.split)
    (hsize : p.data.length + netMaxChunkheadersize ≤ maxPacked)
    (hage : p.isVital = true → g.queued.length + 1 ≤ p.number + maxSaved)
    (hsaved : CNetConnection.isSaved p.flags = false) (now : ℤ) :
    Evolves g conn (conn.queueChunkEx p.flags p.data (p.number % netMaxSequence) now).1 := by
  rw [CNetConnection.queueChunkEx]
  split_ifs with hclosed hsave
  · exact .refl h
  · rw [hsave] at hsaved
    cases hsaved
  · obtain ⟨hroom, hfits⟩ := makeRoom_evolves h hsize now
    obtain ⟨pieces, hpacked⟩ := hroom.inv.construct
    have hsplit := CNetConnection.split_eq hroom.keys
    have hnew := hpacked.append (hsplit.symm ▸ hp) hfits (aged_append hpacked.aged hage)
    exact ⟨hroom.inv.of_construct rfl rfl rfl rfl ⟨_, hnew⟩, hroom.keys, hroom.sequence, hroom.peerAck, hroom.state,
      hroom.sent⟩

/-! ### Sending again -/

lemma Progress.exists_of_mem_saved {chunk : CNetChunkResend} (h : chunk.chunk ∈ g.saved) :
    ∃ n, g.acked < n ∧ chunk.flags = netChunkflagVital ∧ g.queued[n - 1]? = some chunk.data ∧
      chunk.sequence = n % netMaxSequence := by
  obtain ⟨n, hn, heq⟩ := List.mem_map.1 h
  obtain ⟨i, hi, rfl⟩ := List.mem_range'.1 hn
  obtain ⟨hflags, hpair⟩ := Prod.mk.inj heq
  obtain ⟨hdata, hsequence⟩ := Prod.mk.inj hpair
  refine ⟨_, by omega, hflags.symm, ?_, hsequence.symm⟩
  have hlt : g.acked + 1 + 1 * i - 1 < g.queued.length := by omega
  rw [← hdata, List.getD_eq_getElem _ _ hlt, List.getElem?_eq_getElem hlt]

lemma resendChunk_evolves {chunk : CNetChunkResend} (h : EndInv g conn) (hchunk : chunk.chunk ∈ g.saved) (now : ℤ) :
    Evolves g conn (conn.resendChunk chunk now) := by
  obtain ⟨n, hn, hflags, hdata, hsequence⟩ := Progress.exists_of_mem_saved hchunk
  obtain ⟨hsize, hbits⟩ := h.fits chunk.data (List.mem_of_getElem? hdata)
  have hqueued : Piece.Queued g.queued conn.split ⟨chunk.flags ||| netChunkflagResend, chunk.data, n⟩ :=
    { fits := ⟨hflags ▸ (by decide : netChunkflagVital ||| netChunkflagResend < 4), hbits⟩
      pos := fun _ => Nat.zero_lt_of_lt hn
      data := fun _ => hdata }
  rw [CNetConnection.resendChunk, hsequence]
  refine queueChunkEx_evolves h hqueued hsize (fun _ => ?_) (CNetConnection.isSaved_resend _) now
  have hle := h.length_le
  dsimp only
  omega

lemma foldl_resendChunk_evolves {chunks : List CNetChunkResend} (h : EndInv g conn)
    (hchunks : ∀ chunk ∈ chunks, chunk.chunk ∈ g.saved) (now : ℤ) :
    Evolves g conn (chunks.foldl (fun conn chunk => conn.resendChunk chunk now) conn) := by
  induction chunks generalizing conn with
  | nil => exact .refl h
  | cons chunk chunks ih =>
    have hfirst := resendChunk_evolves h (hchunks chunk List.mem_cons_self) now
    exact hfirst.trans (ih hfirst.inv fun chunk' hchunk' => hchunks chunk' (List.mem_cons_of_mem _ hchunk'))

/-- The times of the chunks in the buffer change. -/
lemma Evolves.withBuffer {buffer : CRingBufferBase CNetChunkResend} (h : Evolves g conn conn') (hsaves : Saves g buffer)
    (hrecycle : buffer.recycle = conn'.buffer.recycle) (hsize : buffer.size = conn'.buffer.size) :
    Evolves g conn { conn' with buffer := buffer } where
  inv :=
    { received := ⟨h.inv.received.ack, h.inv.received.unknownSeq⟩
      acked_le := h.inv.acked_le
      fits := h.inv.fits
      buffer := hsaves
      memory := ⟨hrecycle.trans h.inv.memory.1, hsize.trans_le h.inv.memory.2⟩
      construct := h.inv.construct }
  keys := h.keys
  sequence := h.sequence
  peerAck := h.peerAck
  state := h.state
  sent := h.sent

lemma EndInv.values_saved (h : EndInv g conn) : ∀ chunk ∈ conn.buffer.values, chunk.chunk ∈ g.saved := by
  obtain ⟨queue, hholds, -, hsaved⟩ := h.buffer
  intro chunk hchunk
  rw [values_eq hholds] at hchunk
  obtain ⟨x, hx, rfl⟩ := List.mem_map.1 hchunk
  exact hsaved ▸ List.mem_map_of_mem hx

lemma resend_evolves (h : EndInv g conn) (now : ℤ) : Evolves g conn (conn.resend now) := by
  have hfold := foldl_resendChunk_evolves h h.values_saved now
  obtain ⟨queue, hholds, hsizes, hsaved⟩ := hfold.inv.buffer
  rw [CNetConnection.resend]
  refine hfold.withBuffer ⟨_, mapValues_holds hholds _, ?_, ?_⟩ rfl rfl
  · intro x hx
    obtain ⟨y, hy, rfl⟩ := List.mem_map.1 hx
    exact hsizes y hy
  · rw [← hsaved, List.map_map]
    rfl

lemma updateResend_evolves (h : EndInv g conn) (env : NetEnv Addr) (now : ℤ) :
    Evolves g conn (conn.updateResend env now) := by
  obtain ⟨queue, hholds, hsizes, hsaved⟩ := h.buffer
  rw [CNetConnection.updateResend, first_spec hholds]
  cases queue with
  | nil => exact .refl h
  | cons x queue =>
    dsimp only [List.head?_cons, Option.map_some]
    split_ifs with hold hlate
    · exact (Evolves.refl h).congr rfl rfl rfl rfl rfl rfl rfl (.inr rfl) rfl
    · have hchunk : x.2.chunk ∈ g.saved := hsaved ▸ List.mem_cons_self
      have hresent := resendChunk_evolves h hchunk now
      have hbuffer := (CNetConnection.resendChunk_buffer conn x.2 now).1
      refine hresent.withBuffer ⟨_, mapFirst_holds (hbuffer.symm ▸ hholds) _, ?_, hsaved⟩ rfl rfl
      exact List.forall_mem_cons.2 ⟨hsizes x List.mem_cons_self, fun y hy => hsizes y (List.mem_cons_of_mem _ hy)⟩
    · exact .refl h

lemma keepalive_evolves (h : EndInv g conn) (now : ℤ) :
    Evolves g conn (conn.sendControl netCtrlmsgKeepalive [] now) where
  inv := h.congr rfl rfl rfl rfl rfl
  keys := rfl
  sequence := rfl
  peerAck := rfl
  state := .inl rfl
  sent := by
    refine ⟨[_], rfl, fun entry hentry => ?_⟩
    rw [List.mem_singleton.1 hentry]
    exact ⟨⟨netPacketflagControl, conn.ack, 0, [netCtrlmsgKeepalive], []⟩, true, false, rfl, rfl, h.received.ack,
      Nat.le_of_ble_eq_true rfl, .inl ⟨rfl, rfl, rfl⟩⟩

lemma updateSend_evolves (h : EndInv g conn) (hstate : conn.state = .online ∨ conn.state = .error) (now : ℤ) :
    Evolves g conn (conn.updateSend now) := by
  rw [CNetConnection.updateSend]
  rcases hstate with hstate | hstate
  · rw [hstate]
    dsimp only
    have hflush : Evolves g conn (if now - conn.lastSendTime > timeFreq / 2 then (conn.flush now).1 else conn) := by
      split_ifs
      · exact (flush_evolves h now).1
      · exact .refl h
    split_ifs at hflush ⊢
    · exact hflush.trans (keepalive_evolves hflush.inv now)
    · exact hflush
    · exact hflush.trans (keepalive_evolves hflush.inv now)
    · exact hflush
  · rw [hstate]
    exact .refl h

/-- `Update` of an online connection. -/
lemma update_eq (h : EndInv g conn) (hstate : conn.state = .online) (env : NetEnv Addr) (now : ℤ) :
    ∃ timed, Evolves g conn timed ∧ conn.update env now = (timed.updateResend env now).updateSend now := by
  simp only [CNetConnection.update, hstate, reduceCtorEq, decide_false, Bool.false_and, Bool.false_or,
    Bool.false_eq_true, if_false]
  refine ⟨_, ?_, rfl⟩
  split_ifs
  · exact (Evolves.refl h).congr rfl rfl rfl rfl rfl rfl rfl (.inr rfl) rfl
  · exact (Evolves.refl h).congr rfl rfl rfl rfl rfl rfl rfl (.inl hstate.symm) rfl

lemma update_evolves (h : EndInv g conn) (hstate : conn.state = .online) (env : NetEnv Addr) (now : ℤ) :
    Evolves g conn (conn.update env now) := by
  obtain ⟨timed, htimed, heq⟩ := update_eq h hstate env now
  have hresend := htimed.trans (updateResend_evolves htimed.inv env now)
  rw [heq]
  exact hresend.trans (updateSend_evolves hresend.inv (hresend.state.imp_left fun hsame => hsame.trans hstate) now)

/-! ### Queueing -/

def Progress.push (g : Progress) (data : List UInt8) : Progress := { g with queued := g.queued ++ [data] }

lemma wantedSize_mono {size size' : ℕ} (h : size ≤ size') : wantedSize size ≤ wantedSize size' :=
  Nat.mul_le_mul_right _ (Nat.div_le_div_right (by omega))

lemma Progress.saved_push (hacked : g.acked ≤ g.queued.length) (data : List UInt8) :
    (g.push data).saved = g.saved ++ [(netChunkflagVital, data, (g.queued.length + 1) % netMaxSequence)] := by
  have hunacked : (g.push data).unacked = g.unacked ++ [g.queued.length + 1] := by
    have hcount : (g.push data).queued.length - g.acked = g.queued.length - g.acked + 1 := by
      rw [push, List.length_append, List.length_singleton]
      omega
    rw [unacked, show (g.push data).acked = g.acked from rfl, hcount, List.range'_1_concat, unacked,
      show g.acked + 1 + (g.queued.length - g.acked) = g.queued.length + 1 by omega]
  rw [saved, hunacked, List.map_append, saved]
  congr 1
  · refine List.map_congr_left fun n hn => ?_
    obtain ⟨i, hi, rfl⟩ := List.mem_range'.1 hn
    rw [push, List.getD_append _ _ _ _ (by omega)]
  · simp [push]

lemma Packed.push {split : ℕ} {construct : CNetPacketConstruct} {pieces : List Piece} {data : List UInt8}
    (h : Packed g split construct pieces) (hbits : data.length < 2 ^ (6 + split))
    (hroom : construct.dataSize + data.length + netMaxChunkheadersize ≤ maxPacked) :
    Packed (g.push data) split { construct with
      numChunks := construct.numChunks + 1
      chunkData := construct.chunkData ++ Piece.bytes split ⟨netChunkflagVital, data, g.queued.length + 1⟩ }
      (pieces ++ [⟨netChunkflagVital, data, g.queued.length + 1⟩]) := by
  have hpiece : Piece.Queued (g.push data).queued split ⟨netChunkflagVital, data, g.queued.length + 1⟩ :=
    { fits := ⟨by simp [netChunkflagVital], hbits⟩
      pos := fun _ => Nat.succ_pos _
      data := fun _ => List.getElem?_concat_length }
  have hage : Aged split (g.push data).queued.length (pieces ++ [⟨netChunkflagVital, data, g.queued.length + 1⟩]) := by
    rw [Progress.push, List.length_append, List.length_singleton]
    exact aged_append_next h.aged (show CNetChunkHeader.isVital netChunkflagVital = true from rfl) (by simp [maxSaved])
  have hle := Piece.length_bytes_le split ⟨netChunkflagVital, data, g.queued.length + 1⟩
  refine ⟨?_, ?_, ?_, h.flags, ?_, hage⟩
  · rw [chunkBytes_append, h.chunkData]
    exact congrArg _ (List.flatMap_singleton ..).symm
  · rw [List.length_append, h.numChunks]
    rfl
  · rw [dataSize, List.length_append]
    rw [dataSize] at hroom
    dsimp only at hle
    omega
  · intro q hq
    rcases List.mem_append.1 hq with hold | hlast
    · exact (h.queued q hold).append [data]
    · exact List.mem_singleton.1 hlast ▸ hpiece

lemma EndInv.push {data : List UInt8} (h : EndInv g conn) (hack : conn'.ack = conn.ack)
    (hunknown : conn'.unknownSeq = conn.unknownSeq) (hkeys : conn'.keys = conn.keys)
    (hsize : data.length + netMaxChunkheadersize ≤ maxPacked) (hbits : data.length < 2 ^ (6 + conn.split))
    (hsaves : Saves (g.push data) conn'.buffer) (hmemory : SameMemory conn.buffer conn'.buffer)
    (hconstruct : ∃ pieces, Packed (g.push data) conn.split conn'.construct pieces) : EndInv (g.push data) conn' := by
  have hsplit : conn'.split = conn.split := CNetConnection.split_eq hkeys
  refine
    { received := ⟨hack.trans h.received.ack, hunknown.trans h.received.unknownSeq⟩
      acked_le := ?_
      fits := ?_
      buffer := hsaves
      memory := ⟨hmemory.2.1.trans h.memory.1, hmemory.1.trans_le h.memory.2⟩
      construct := hsplit ▸ hconstruct }
  · rw [Progress.push, List.length_append]
    exact h.acked_le.trans (Nat.le_add_right _ _)
  · intro more hmore
    rw [hsplit]
    rcases List.mem_append.1 hmore with hold | hlast
    · exact h.fits more hold
    · exact List.mem_singleton.1 hlast ▸ ⟨hsize, hbits⟩

lemma queueChunkEx_moves {data : List UInt8} {now : ℤ} (h : EndInv g conn) (hstate : conn.state = .online)
    (hsequence : conn.sequence = (g.queued.length + 1) % netMaxSequence)
    (hpeer : conn.peerAck = g.acked % netMaxSequence)
    (hsize : data.length + netMaxChunkheadersize ≤ maxPacked) (hbits : data.length < 2 ^ (6 + conn.split))
    (hok : (conn.queueChunkEx netChunkflagVital data conn.sequence now).2 = true) :
    Moves g (g.push data) conn (conn.queueChunkEx netChunkflagVital data conn.sequence now).1 := by
  have hopen : (decide (conn.state = .offline) || decide (conn.state = .error)) = false := by
    rw [hstate]
    rfl
  have heq : conn.queueChunkEx netChunkflagVital data conn.sequence now =
      ((conn.makeRoom data.length now).packChunk ⟨netChunkflagVital, data.length, conn.sequence⟩ data).saveChunk
        netChunkflagVital data conn.sequence now := by
    rw [CNetConnection.queueChunkEx, hopen, if_neg Bool.false_ne_true]
    exact if_pos rfl
  rw [heq, CNetConnection.saveChunk] at hok ⊢
  obtain ⟨hroom, hfits⟩ := makeRoom_evolves h hsize now
  set room := conn.makeRoom data.length now
  obtain ⟨queue, hholds, hsizes, hsaved⟩ := hroom.inv.buffer
  obtain ⟨popped, rest, hqueue, hpopped, hsame, hallocated, -⟩ := allocate_spec hholds (chunkResendSize + data.length)
    (⟨netChunkflagVital, data, conn.sequence, now, now⟩ : CNetChunkResend)
  obtain ⟨blockSize, hblock, hnew⟩ := hallocated hok
  obtain rfl : rest = queue := by rw [hqueue, hpopped hroom.inv.memory.1, List.nil_append]
  obtain ⟨pieces, hpacked⟩ := hroom.inv.construct
  have hsplit : room.split = conn.split := CNetConnection.split_eq hroom.keys
  have hpushed := hpacked.push (hsplit.symm ▸ hbits) hfits
  have hbytes : Piece.bytes room.split ⟨netChunkflagVital, data, g.queued.length + 1⟩ =
      CNetChunkHeader.pack ⟨netChunkflagVital, data.length, conn.sequence⟩ room.split ++ data := by
    rw [hsequence]
    rfl
  rw [hbytes] at hpushed
  have hsaves : Saves (g.push data) (room.buffer.allocate (chunkResendSize + data.length)
      (⟨netChunkflagVital, data, conn.sequence, now, now⟩ : CNetChunkResend)).1 := by
    refine ⟨_, hnew, fun x hx => ?_, ?_⟩
    · rcases List.mem_append.1 hx with hold | hlast
      · exact hsizes x hold
      · rw [List.mem_singleton.1 hlast]
        exact (wantedSize_mono (Nat.le_add_right _ _)).trans hblock
    · rw [List.map_append, hsaved, Progress.saved_push hroom.inv.acked_le, ← hsequence]
      rfl
  have hnext : (g.push data).queued.length = g.queued.length + 1 := List.length_append
  exact
    ⟨⟨hroom.inv.push rfl rfl rfl hsize (hsplit.symm ▸ hbits) hsaves hsame ⟨_, hpushed⟩,
      (hroom.sequence.trans hsequence).trans (by rw [hnext]), hroom.peerAck.trans hpeer,
      hroom.state.imp_left fun hsame => hsame.trans hstate⟩, hroom.keys, hroom.sent⟩

lemma queueChunk_moves {data : List UInt8} {now : ℤ} (h : Tracks g conn) (hstate : conn.state = .online)
    (hsize : data.length + netMaxChunkheadersize ≤ maxPacked) (hbits : data.length < 2 ^ (6 + conn.split))
    (hok : (conn.queueChunk netChunkflagVital data now).2 = true) :
    Moves g (g.push data) conn (conn.queueChunk netChunkflagVital data now).1 := by
  have hvital : netChunkflagVital &&& netChunkflagVital ≠ 0 := by decide
  have hnext : (conn.sequence + 1) % netMaxSequence = (g.queued.length + 1) % netMaxSequence := by
    rw [h.sequence, Nat.mod_add_mod]
  rw [CNetConnection.queueChunk, if_pos hvital] at hok ⊢
  have hstart : EndInv g { conn with sequence := (conn.sequence + 1) % netMaxSequence } :=
    h.toEndInv.congr rfl rfl rfl rfl rfl
  have hmoves := queueChunkEx_moves hstart hstate hnext h.peerAck hsize hbits hok
  exact ⟨hmoves.tracks, hmoves.keys, hmoves.sent⟩

/-- Queueing a chunk that is not vital. -/
lemma queueChunk_evolves {data : List UInt8} (h : EndInv g conn)
    (hsequence : conn.sequence = g.queued.length % netMaxSequence)
    (hsize : data.length + netMaxChunkheadersize ≤ maxPacked) (hbits : data.length < 2 ^ (6 + conn.split)) (now : ℤ) :
    Evolves g conn (conn.queueChunk 0 data now).1 := by
  have hplain : ¬ 0 &&& netChunkflagVital ≠ 0 := by decide
  have hplain' : CNetChunkHeader.isVital 0 = false := by decide
  have hnone : ∀ {P : Prop}, (⟨0, data, g.queued.length⟩ : Piece).isVital = true → P := fun hvital =>
    absurd (hplain'.symm.trans hvital) Bool.false_ne_true
  have hpiece : Piece.Queued g.queued conn.split ⟨0, data, g.queued.length⟩ := ⟨⟨by simp, hbits⟩, hnone, hnone⟩
  rw [CNetConnection.queueChunk, if_neg hplain, hsequence]
  exact queueChunkEx_evolves h hpiece hsize hnone (by decide : CNetConnection.isSaved 0 = false) now

/-! ### Receiving -/

/-- The end hands out a chunk. -/
lemma EndInv.handled {received : ℕ} (h : EndInv g conn) (hhandled : Handled received conn conn') :
    EndInv { g with received } conn' := by
  obtain ⟨flags, hflags, hsame⟩ := hhandled.same
  have hkeys : conn'.keys = conn.keys := by rw [hsame]; rfl
  have hbuffer : conn'.buffer = conn.buffer := by rw [hsame]
  have hconstruct : conn'.construct = { conn.construct with flags := flags } := by rw [hsame]
  have hsplit := CNetConnection.split_eq hkeys
  obtain ⟨pieces, hpacked⟩ := h.construct
  refine
    { received := hhandled.received
      acked_le := h.acked_le
      fits := hsplit ▸ h.fits
      buffer := hbuffer ▸ h.buffer
      memory := hbuffer ▸ h.memory
      construct := ⟨pieces, hsplit ▸ hconstruct ▸
        ⟨hpacked.chunkData, hpacked.numChunks, hpacked.size, ?_, hpacked.queued, hpacked.aged⟩⟩ }
  obtain ⟨resend, hresend⟩ := hpacked.flags
  rcases hflags with rfl | rfl
  · exact ⟨resend, hresend⟩
  · refine ⟨true, ?_⟩
    dsimp only
    rw [hresend]
    cases resend <;> rfl

lemma Tracks.handled {received : ℕ} (h : Tracks g conn) (hhandled : Handled received conn conn') :
    Moves g { g with received } conn conn' := by
  obtain ⟨flags, -, hsame⟩ := hhandled.same
  have hsequence : conn'.sequence = conn.sequence := by rw [hsame]
  have hpeer : conn'.peerAck = conn.peerAck := by rw [hsame]
  have hstate : conn'.state = conn.state := by rw [hsame]
  have hsocket : conn'.socket = conn.socket := by rw [hsame]
  exact ⟨⟨h.toEndInv.handled hhandled, hsequence.trans h.sequence, hpeer.trans h.peerAck, hstate ▸ h.state⟩,
    by rw [hsame]; rfl, [], by rw [hsocket, List.append_nil], fun _ hentry => absurd hentry List.not_mem_nil⟩

/-- `AckChunks` drops the chunks that are acknowledged. -/
lemma dropWhile_saved {queue : List (ℕ × CNetChunkResend)} {acked : ℕ}
    (hsaved : queue.map (fun x => x.2.chunk) = g.saved) (hold : g.acked ≤ acked) (hnew : acked ≤ g.queued.length)
    (hroom : g.queued.length ≤ g.acked + maxSaved) :
    (queue.dropWhile fun x => isSeqInBackroom x.2.sequence (acked % netMaxSequence : ℕ)).map (fun x => x.2.chunk) =
      Progress.saved { g with acked } := by
  have hmax : netMaxSequence = 1024 := rfl
  have hback : ∀ n, g.acked < n → n ≤ g.queued.length →
      (isSeqInBackroom (n % netMaxSequence : ℕ) (acked % netMaxSequence : ℕ) = true ↔ n ≤ acked) := by
    intro n hlow hhigh
    rw [maxSaved] at hroom
    rw [isSeqInBackroom_iff (by rw [hmax]; omega) (by rw [hmax]; omega), hmax]
    omega
  have hsplit : g.unacked = List.range' (g.acked + 1) (acked - g.acked) ++
      List.range' (acked + 1) (g.queued.length - acked) := by
    rw [Progress.unacked, show acked + 1 = g.acked + 1 + (acked - g.acked) by omega, List.range'_append_1,
      show acked - g.acked + (g.queued.length - acked) = g.queued.length - g.acked by omega]
  have hmap : (queue.dropWhile fun x => isSeqInBackroom x.2.sequence (acked % netMaxSequence : ℕ)).map
      (fun x => x.2.chunk) = (queue.map fun x => x.2.chunk).dropWhile fun chunk =>
        isSeqInBackroom chunk.2.2 (acked % netMaxSequence : ℕ) := by
    rw [List.dropWhile_map]
    rfl
  rw [hmap, hsaved, Progress.saved, List.dropWhile_map, hsplit, List.dropWhile_append_of_pos,
    List.dropWhile_eq_self_iff.2]
  · rfl
  · intro hlen hcovered
    rw [List.length_range'] at hlen
    rw [List.getElem_range'] at hcovered
    have hle := (hback (acked + 1) (by omega) (by omega)).1 hcovered
    omega
  · intro n hn
    obtain ⟨i, hi, rfl⟩ := List.mem_range'.1 hn
    exact (hback _ (by omega) (by omega)).2 (by omega)

/-- The end takes an ack. -/
lemma feedAck_inv {acked : ℕ} (h : EndInv g conn) (hold : g.acked ≤ acked) (hnew : acked ≤ g.queued.length)
    (hstate : conn.state = .online) (now : ℤ) :
    EndInv { g with acked } (conn.feedAck (acked % netMaxSequence) now) := by
  obtain ⟨queue, hholds, hsizes, hsaved⟩ := h.buffer
  have hacked := CNetConnection.ackChunksLoop_holds hholds hholds.length_le (acked % netMaxSequence)
  obtain ⟨-, -, -, -, hmemory, -⟩ := @CNetConnection.ackChunksLoop_spec conn.buffer.items.length conn.buffer queue
    hholds (acked % netMaxSequence)
  obtain ⟨pieces, hpacked⟩ := h.construct
  rw [CNetConnection.feedAck, if_pos hstate]
  exact
    { received := ⟨h.received.ack, h.received.unknownSeq⟩
      acked_le := hnew
      fits := h.fits
      buffer := ⟨_, hacked, fun x hx => hsizes x ((List.dropWhile_sublist _).subset hx),
        dropWhile_saved hsaved hold hnew h.length_le⟩
      memory := ⟨hmemory.2.1.trans h.memory.1, hmemory.1.trans_le h.memory.2⟩
      construct := ⟨pieces, hpacked.chunkData, hpacked.numChunks, hpacked.size, hpacked.flags, hpacked.queued,
        hpacked.aged⟩ }

/-- The token that the peer has appended is cut off. -/
lemma stripToken_received (hstate : conn.state = .online)
    (hknown : conn.sixup = false → conn.securityToken ≠ netSecurityTokenUnknown) (flags : UInt8) (ack numChunks : ℕ)
    (data : List UInt8) :
    conn.stripToken ⟨flags, ack, numChunks, (wireForm conn.securityToken conn.sixup).received data, []⟩ =
      (⟨flags, ack, numChunks, data, []⟩, true) := by
  rw [CNetConnection.stripToken, hstate, wireForm]
  cases hsixup : conn.sixup with
  | true => rfl
  | false =>
    rw [if_neg Bool.false_ne_true]
    by_cases hnone : conn.securityToken = netSecurityTokenUnsupported
    · rw [dif_pos hnone, hnone]
      rfl
    · rw [dif_neg hnone]
      have hsize : dataSize ⟨flags, ack, numChunks, data ++ writeSecurityToken conn.securityToken, []⟩ =
          data.length + securityTokenSize := List.length_append
      have htoken : toSecurityToken (writeSecurityToken conn.securityToken) = conn.securityToken := by
        rw [← List.append_nil (writeSecurityToken conn.securityToken)]
        exact toSecurityToken_write _ []
      simp [CNetBase.WireForm.received, hsize, hknown hsixup, hnone, htoken]

lemma feedAck_moves {acked : ℕ} (h : Evolves g { conn with peerAck := acked % netMaxSequence } conn')
    (htracks : Tracks g conn) (hstate : conn'.state = .online) (hold : g.acked ≤ acked) (hnew : acked ≤ g.queued.length)
    (now : ℤ) : Moves g { g with acked } conn (conn'.feedAck (acked % netMaxSequence) now) where
  tracks :=
    ⟨feedAck_inv h.inv hold hnew hstate now, by
      rw [CNetConnection.feedAck, if_pos hstate]
      exact h.sequence.trans htracks.sequence, by
      rw [CNetConnection.feedAck, if_pos hstate]
      exact h.peerAck, by
      rw [CNetConnection.feedAck, if_pos hstate]
      exact .inl hstate⟩
  keys := by
    rw [CNetConnection.feedAck, if_pos hstate]
    exact h.keys
  sent := by
    rw [CNetConnection.feedAck, if_pos hstate]
    exact h.sent

lemma resend_state (conn : CNetConnection Addr) (now : ℤ) : (conn.resend now).state = conn.state :=
  (CNetConnection.foldl_resendChunk_buffer conn.buffer.values conn now).2.1

/-- A packet that is accepted: the end takes its ack, and sends again if it is asked to. -/
lemma feedAccepted_moves [DecidableEq Addr] {acked : ℕ} {packet : CNetPacketConstruct} (h : Tracks g conn)
    (hstate : conn.state = .online) (hold : g.acked ≤ acked) (hnew : acked ≤ g.queued.length)
    (hack : packet.ack = acked % netMaxSequence)
    (hkeepalive : hasFlag packet.flags netPacketflagControl = true → packet.chunkData = [netCtrlmsgKeepalive])
    (env : NetEnv Addr) (addr : Addr) (responseToken : SecurityToken) (now : ℤ) :
    Moves g { g with acked } conn (conn.feedAccepted env packet addr responseToken now).1 := by
  have hstart : EndInv g { conn with peerAck := acked % netMaxSequence } := h.toEndInv.congr rfl rfl rfl rfl rfl
  have hresend : ∃ conn', (if hasFlag packet.flags netPacketflagResend then
      CNetConnection.resend { conn with peerAck := acked % netMaxSequence } now
      else { conn with peerAck := acked % netMaxSequence }) = conn' ∧
      Evolves g { conn with peerAck := acked % netMaxSequence } conn' ∧ conn'.state = .online := by
    refine ⟨_, rfl, ?_⟩
    split_ifs
    · exact ⟨resend_evolves hstart now, (resend_state _ now).trans hstate⟩
    · exact ⟨.refl hstart, hstate⟩
  obtain ⟨conn', heq, hevolves, hstate'⟩ := hresend
  have hfed := feedAck_moves hevolves h hstate' hold hnew now
  rw [CNetConnection.feedAccepted, hack]
  dsimp only
  rw [heq]
  split_ifs with hcontrol hpending
  · have hkept : conn'.feedControl env packet addr responseToken now = (conn', true) := by
      rw [CNetConnection.feedControl, hkeepalive hcontrol, hstate']
      rfl
    rw [hkept]
    exact hfed
  · rw [hstate'] at hpending
    cases hpending
  · exact hfed

/-- An ack that is not too old and that the check accepts is not older than the last one. -/
lemma le_of_ackValid {queued acked ack : ℕ} (hroom : queued ≤ acked + maxSaved) (hacked : acked ≤ queued)
    (hnew : ack ≤ queued) (hrecent : queued ≤ ack + maxSaved + Link.maxDelay)
    (hvalid : CNetConnection.ackValid (queued % netMaxSequence) (acked % netMaxSequence) (ack % netMaxSequence) =
      true) : acked ≤ ack := by
  have hmax : netMaxSequence = 1024 := rfl
  rw [CNetConnection.ackValid, hmax] at hvalid
  rw [maxSaved] at hroom hrecent
  rw [Link.maxDelay] at hrecent
  by_contra hlt
  split_ifs at hvalid with hwrap
  · simp only [Bool.not_eq_true', Bool.or_eq_false_iff, decide_eq_false_iff_not] at hvalid
    omega
  · simp only [Bool.not_eq_true', Bool.and_eq_false_iff, decide_eq_false_iff_not] at hvalid
    omega

/-- A packet of the peer is refused, or its ack is taken. -/
lemma feed_moves [DecidableEq Addr] {ack : ℕ} {flags : UInt8} {data : List UInt8} (h : Tracks g conn)
    (hstate : conn.state = .online) (hknown : conn.sixup = false → conn.securityToken ≠ netSecurityTokenUnknown)
    (hnew : ack ≤ g.queued.length) (hrecent : g.queued.length ≤ ack + maxSaved + Link.maxDelay)
    (hkeepalive : hasFlag flags netPacketflagControl = true → data = [netCtrlmsgKeepalive])
    (numChunks : ℕ) (env : NetEnv Addr) (addr : Addr) (securityToken responseToken : SecurityToken) (now : ℤ) :
    let fed := conn.feed env ⟨flags, ack % netMaxSequence, numChunks,
      (wireForm conn.securityToken conn.sixup).received data, []⟩ addr securityToken responseToken now
    (fed.1 = conn ∧ fed.2.2 = false) ∨
      (Moves g { g with acked := ack } conn fed.1 ∧
        fed.2.1 = ⟨flags, ack % netMaxSequence, numChunks, data, []⟩) := by
  intro fed
  rw [show fed = conn.feed env _ addr securityToken responseToken now from rfl, CNetConnection.feed,
    stripToken_received hstate hknown]
  dsimp only
  split_ifs with haddr htoken hinvalid
  · exact .inl ⟨rfl, rfl⟩
  · exact .inl ⟨rfl, rfl⟩
  · exact .inl ⟨rfl, rfl⟩
  · right
    rw [Bool.not_eq_true', Bool.not_eq_false, h.sequence, h.peerAck] at hinvalid
    have hold := le_of_ackValid h.length_le h.acked_le hnew hrecent hinvalid
    exact ⟨feedAccepted_moves h hstate hold hnew rfl hkeepalive env addr responseToken now, rfl⟩

end Operations

/-! ### Both ends -/

section Ends

variable {Addr : Type*}

/-- The ends know each other. -/
structure LinkKeys.Agree (keys keys' : LinkKeys) : Prop where
  sixup : keys.sixup = keys'.sixup
  securityToken : keys.sixup = false →
    keys.securityToken = keys'.securityToken ∧ keys.securityToken ≠ netSecurityTokenUnknown

/-- A datagram that an end has sent, whose peer has queued so many vital chunks. -/
structure InFlight (keys : LinkKeys) (queued : List (List UInt8)) (received peer : ℕ) (datagram : ℕ × List UInt8) :
    Prop where
  le : datagram.1 ≤ queued.length + peer
  sent : ∃ ack ≤ received, SentAs keys queued (maxAge + 1 + (queued.length + peer - datagram.1)) ack datagram.2 ∧
    peer ≤ ack + maxSaved + (queued.length + peer - datagram.1)

/-- The unpacker is at a datagram of the peer. -/
structure Unpacking (split : ℕ) (queued : List (List UInt8)) (own : ℕ) (unpacker : CNetRecvUnpacker) (stamp : ℕ) :
    Prop where
  le : stamp ≤ queued.length + own
  pieces : ∃ pieces, Holding split pieces unpacker ∧ ∀ p ∈ pieces, p.Queued queued split ∧
    (p.isVital = true → queued.length ≤ p.number + (maxAge + 1 + (queued.length + own - stamp)))

/-- The invariant of an end whose peer is `f`. -/
structure EndOk (e f : LinkEnd Addr) (acked : ℕ) : Prop where
  tracks : Tracks ⟨e.queued, e.handed.length, acked⟩ e.conn
  acked_le : acked ≤ f.handed.length
  handed : e.handed <+: f.queued
  keys : e.conn.keys.Agree f.conn.keys
  sent : ∀ datagram ∈ e.sent, InFlight e.conn.keys e.queued e.handed.length f.queued.length datagram
  unpacker : e.unpacker.valid = true → Unpacking e.conn.split f.queued e.queued.length e.unpacker e.stamp

variable {keys : LinkKeys} {queued queued' : List (List UInt8)} {e e' f : LinkEnd Addr} {acked acked' ackedPeer : ℕ}

lemma SentAs.mono {age age' ack : ℕ} {datagram : List UInt8} (h : SentAs keys queued age ack datagram)
    (hfront : queued <+: queued') (hage : queued'.length + age ≤ queued.length + age') :
    SentAs keys queued' age' ack datagram := by
  obtain ⟨more, rfl⟩ := hfront
  obtain ⟨packet, control, resend, heq, hflags, hack, hsize, hcases⟩ := h
  refine ⟨packet, control, resend, heq, hflags, hack, hsize, hcases.imp_right ?_⟩
  rintro ⟨hcontrol, pieces, hdata, hnum, hqueued, hages⟩
  refine ⟨hcontrol, pieces, hdata, hnum, fun p hp => (hqueued p hp).append more, fun p hp hvital => ?_⟩
  have hle := hages p hp hvital
  omega

lemma InFlight.mono {received received' peer peer' : ℕ} {datagram : ℕ × List UInt8}
    (h : InFlight keys queued received peer datagram) (hfront : queued <+: queued') (hreceived : received ≤ received')
    (hpeer : peer ≤ peer') : InFlight keys queued' received' peer' datagram := by
  have hlength := hfront.length_le
  have hle := h.le
  obtain ⟨ack, hack, hsent, hrecent⟩ := h.sent
  exact ⟨by omega, ack, hack.trans hreceived, hsent.mono hfront (by omega), by omega⟩

lemma Unpacking.mono {split own own' stamp : ℕ} {unpacker : CNetRecvUnpacker}
    (h : Unpacking split queued own unpacker stamp) (hfront : queued <+: queued') (hown : own ≤ own') :
    Unpacking split queued' own' unpacker stamp := by
  have hlength := hfront.length_le
  have hle := h.le
  obtain ⟨pieces, hholding, hpieces⟩ := h.pieces
  obtain ⟨more, rfl⟩ := hfront
  refine ⟨by omega, pieces, hholding, fun p hp => ⟨(hpieces p hp).1.append more, fun hvital => ?_⟩⟩
  have hage := (hpieces p hp).2 hvital
  omega

/-- An end gets further. -/
lemma EndOk.move (h : EndOk e f acked) (hpeer : EndOk f e ackedPeer)
    (hmoves : Moves ⟨e.queued, e.handed.length, acked⟩ ⟨e'.queued, e'.handed.length, acked'⟩ e.conn e'.conn)
    (hqueued : e.queued <+: e'.queued) (hone : e'.queued.length ≤ e.queued.length + 1)
    (hhanded : e.handed.length ≤ e'.handed.length) (hfront : e'.handed <+: f.queued)
    (hacked : acked' ≤ f.handed.length)
    (hsent : e'.sent = (e.withConn (e'.queued.length + f.queued.length) e'.conn).sent)
    (hunpacker : e'.unpacker.valid = true →
      Unpacking e'.conn.split f.queued e'.queued.length e'.unpacker e'.stamp) :
    EndOk e' f acked' ∧ EndOk f e' ackedPeer := by
  have hlength := hqueued.length_le
  refine ⟨⟨hmoves.tracks, hacked, hfront, hmoves.keys.symm ▸ h.keys, ?_, hunpacker⟩, hpeer.tracks,
    hpeer.acked_le.trans hhanded, hpeer.handed.trans hqueued, hmoves.keys.symm ▸ hpeer.keys, ?_, ?_⟩
  · obtain ⟨new, hsocket, hnew⟩ := hmoves.sent
    intro datagram hdatagram
    rw [hsent, LinkEnd.withConn, hsocket, List.drop_left] at hdatagram
    rw [hmoves.keys]
    rcases List.mem_append.1 hdatagram with hold | hlast
    · exact (h.sent datagram hold).mono hqueued hhanded le_rfl
    · obtain ⟨entry, hentry, rfl⟩ := List.mem_map.1 hlast
      have hroom := hpeer.tracks.length_le
      have hle := hpeer.acked_le
      dsimp only at hroom
      exact ⟨le_rfl, _, hhanded, (hnew entry hentry).mono hqueued (by dsimp only; omega), by dsimp only; omega⟩
  · exact fun datagram hdatagram => (hpeer.sent datagram hdatagram).mono List.prefix_rfl le_rfl hlength
  · exact fun hvalid => (hpeer.unpacker hvalid).mono hqueued le_rfl

/-- An operation that queues no vital chunk. -/
lemma EndOk.evolves {conn : CNetConnection Addr} (h : EndOk e f acked) (hpeer : EndOk f e ackedPeer)
    (hevolves : Evolves ⟨e.queued, e.handed.length, acked⟩ e.conn conn) :
    EndOk (e.withConn (e.queued.length + f.queued.length) conn) f acked ∧
      EndOk f (e.withConn (e.queued.length + f.queued.length) conn) ackedPeer :=
  h.move hpeer (hevolves.moves h.tracks) List.prefix_rfl (Nat.le_succ _) le_rfl h.handed h.acked_le rfl fun hvalid =>
    CNetConnection.split_eq hevolves.keys ▸ h.unpacker hvalid

lemma EndOk.queueChunk {vital : Bool} {data : List UInt8} {now : ℤ} (h : EndOk e f acked)
    (hpeer : EndOk f e ackedPeer) (hstate : e.conn.state = .online)
    (hsize : data.length + netMaxChunkheadersize ≤ maxPacked) (hbits : data.length < 2 ^ (6 + e.conn.split))
    (hok : vital = true → (e.conn.queueChunk netChunkflagVital data now).2 = true) :
    EndOk (e.queueChunk (e.queued.length + f.queued.length) vital data now) f acked ∧
      EndOk f (e.queueChunk (e.queued.length + f.queued.length) vital data now) ackedPeer := by
  rw [LinkEnd.queueChunk]
  split_ifs with hvital
  · have hmoves := queueChunk_moves h.tracks hstate hsize hbits (hok hvital)
    have hlength : (e.queued ++ [data]).length = e.queued.length + 1 := List.length_append
    refine h.move hpeer hmoves (List.prefix_append _ _) hlength.le le_rfl h.handed h.acked_le ?_ fun hvalid => ?_
    · dsimp only [LinkEnd.withConn]
      rw [hlength, Nat.add_right_comm]
    · exact CNetConnection.split_eq hmoves.keys ▸ (h.unpacker hvalid).mono List.prefix_rfl
        (hlength ▸ Nat.le_succ _)
  · exact h.evolves hpeer (queueChunk_evolves h.tracks.toEndInv h.tracks.sequence hsize hbits now)

lemma LinkEnd.withConn_self (e : LinkEnd Addr) (clock : ℕ) : e.withConn clock e.conn = e := by
  rw [withConn, List.drop_length, List.map_nil, List.append_nil]

lemma append_prefix {handed : List (List UInt8)} {data : List UInt8} (h : handed <+: queued)
    (hnext : queued[handed.length]? = some data) : handed ++ [data] <+: queued := by
  obtain ⟨rest, rfl⟩ := h
  rw [List.getElem?_append_right le_rfl, Nat.sub_self] at hnext
  cases rest with
  | nil => cases hnext
  | cons first rest =>
    obtain rfl : first = data := Option.some.inj hnext
    exact ⟨rest, by rw [List.append_assoc, List.singleton_append]⟩

/-- The chunks of a datagram that is not too old are near. -/
lemma EndOk.near {p : Piece} {stamp : ℕ} (h : EndOk e f acked) (hpeer : EndOk f e ackedPeer)
    (hrecent : e.queued.length + f.queued.length ≤ stamp + Link.maxDelay)
    (hqueued : p.Queued f.queued e.conn.split)
    (hage : p.isVital = true →
      f.queued.length ≤ p.number + (maxAge + 1 + (f.queued.length + e.queued.length - stamp))) :
    p.Near e.handed.length := by
  intro hvital
  have hnumber := hqueued.number_le hvital
  have hold := hage hvital
  have hhanded := h.handed.length_le
  have hroom := hpeer.tracks.length_le
  have hacked := hpeer.acked_le
  have hmax : netMaxSequence = 1024 := rfl
  dsimp only at hroom
  rw [Link.maxDelay] at hrecent
  rw [maxAge] at hold
  rw [maxSaved] at hroom
  rw [hmax]
  omega

lemma CNetConnection.split_le (conn : CNetConnection Addr) : conn.split ≤ 6 := by
  rw [split]
  split_ifs <;> norm_num

/-- What `FetchChunk` hands out is the next vital chunk of the peer, if it is vital. -/
lemma EndOk.fetch_cases (h : EndOk e f acked) (hpeer : EndOk f e ackedPeer)
    (hrecent : e.queued.length + f.queued.length ≤ e.stamp + Link.maxDelay) :
    ∃ unpacker conn out, e.unpacker.fetchChunk e.conn = (unpacker, conn, out) ∧
      (unpacker.valid = true → e.unpacker.valid = true ∧ unpacker.data = e.unpacker.data) ∧
      e.handed ++ LinkEnd.vitalData out <+: f.queued ∧
      Handled (e.handed ++ LinkEnd.vitalData out).length e.conn conn := by
  by_cases hvalid : e.unpacker.valid = false
  · refine ⟨e.unpacker.clear, e.conn, none, ?_, fun hclear => (Bool.false_ne_true hclear).elim, ?_, ?_⟩
    · rw [CNetRecvUnpacker.fetchChunk, dif_pos (.inl hvalid)]
    · exact (List.append_nil e.handed).symm ▸ h.handed
    · exact (List.append_nil e.handed).symm ▸ .refl h.tracks.received
  rw [Bool.not_eq_false] at hvalid
  obtain ⟨pieces, hholding, hpieces⟩ := (h.unpacker hvalid).pieces
  obtain ⟨unpacker, conn, hdata, hcases⟩ := fetchChunk_spec e.conn.split_le
    (fun p hp => h.near hpeer hrecent (hpieces p hp).1 (hpieces p hp).2) _ e.unpacker e.conn rfl hholding
    h.tracks.received rfl
  rcases hcases with ⟨hfetch, -, hhandled⟩ | ⟨p, hp, hfetch, ⟨hplain, hhandled⟩ | ⟨hvital, hnumber, hhandled⟩⟩
  · exact ⟨unpacker, conn, none, hfetch, fun hnext => ⟨hvalid, hdata hnext⟩, (List.append_nil e.handed).symm ▸ h.handed,
      (List.append_nil e.handed).symm ▸ hhandled⟩
  · have hout : LinkEnd.vitalData (some ⟨p.flags, p.data⟩) = [] := by
      rw [LinkEnd.vitalData, show CNetChunkHeader.isVital p.flags = false from hplain, if_neg Bool.false_ne_true]
    refine ⟨unpacker, conn, _, hfetch, fun hnext => ⟨hvalid, hdata hnext⟩, ?_, ?_⟩
    · rw [hout, List.append_nil]
      exact h.handed
    · rw [hout, List.append_nil]
      exact hhandled
  · have hout : LinkEnd.vitalData (some ⟨p.flags, p.data⟩) = [p.data] := by
      rw [LinkEnd.vitalData, show CNetChunkHeader.isVital p.flags = true from hvital, if_pos rfl]
    have hnext := (hpieces p hp).1.data hvital
    refine ⟨unpacker, conn, _, hfetch, fun hnext => ⟨hvalid, hdata hnext⟩, ?_, ?_⟩
    · rw [hout]
      exact append_prefix h.handed (by rwa [hnumber, Nat.add_sub_cancel] at hnext)
    · rw [hout, List.length_append]
      exact hhandled

/-- The end hands out the next chunk. -/
lemma EndOk.fetchChunk (h : EndOk e f acked) (hpeer : EndOk f e ackedPeer)
    (hrecent : e.queued.length + f.queued.length ≤ e.stamp + Link.maxDelay) :
    EndOk e.fetchChunk f acked ∧ EndOk f e.fetchChunk ackedPeer := by
  obtain ⟨unpacker, conn, out, hfetch, hvalid, hfront, hhandled⟩ := h.fetch_cases hpeer hrecent
  have hmoves := h.tracks.handled hhandled
  obtain ⟨flags, -, hsame⟩ := hhandled.same
  have hsocket : conn.socket = e.conn.socket := by rw [hsame]
  rw [LinkEnd.fetchChunk, hfetch]
  refine h.move hpeer hmoves List.prefix_rfl (Nat.le_succ _) (List.prefix_append _ _).length_le hfront h.acked_le ?_
    fun hnext => ?_
  · dsimp only [LinkEnd.withConn]
    rw [hsocket, List.drop_length, List.map_nil, List.append_nil]
  · obtain ⟨hold, hdata⟩ := hvalid hnext
    have hunpacking := h.unpacker hold
    obtain ⟨pieces, hholding, hpieces⟩ := hunpacking.pieces
    rw [← CNetConnection.split_eq hmoves.keys] at hholding hpieces
    exact ⟨hunpacking.le, pieces, ⟨hdata.symm ▸ hholding.data, hdata.symm ▸ hholding.numChunks, hholding.fits⟩, hpieces⟩

lemma received_eq {keys keys' : LinkKeys} (h : keys.Agree keys') (data : List UInt8) :
    (wireForm keys'.securityToken keys'.sixup).received data =
      (wireForm keys.securityToken keys.sixup).received data := by
  rw [← h.sixup]
  cases hsixup : keys.sixup with
  | true => rfl
  | false => rw [(h.securityToken hsixup).1]

lemma hasFlag_connless (control resend compression : Bool) :
    hasFlag (CNetBase.packetFlags control resend ||| if compression then netPacketflagCompression else 0)
      netPacketflagConnless = false := by
  revert control resend compression
  decide

variable [DecidableEq Addr]

/-- A datagram that is not too old is refused, or its ack is taken and its chunks are in the unpacker. -/
lemma EndOk.recv_cases {datagram : ℕ × List UInt8} (h : EndOk e f acked) (hpeer : EndOk f e ackedPeer)
    (hstate : e.conn.state = .online) (hdatagram : datagram ∈ f.sent)
    (hrecent : e.queued.length + f.queued.length ≤ datagram.1 + Link.maxDelay) (env : NetEnv Addr) (clock : ℕ)
    (addr : Addr) (now : ℤ) :
    e.recv env clock addr datagram now = e ∨
      ∃ conn acked', Moves ⟨e.queued, e.handed.length, acked⟩ ⟨e.queued, e.handed.length, acked'⟩ e.conn conn ∧
        acked' ≤ f.handed.length ∧
        (e.recv env clock addr datagram now = e.withConn clock conn ∨
          ∃ unpacker, Unpacking e.conn.split f.queued e.queued.length unpacker datagram.1 ∧
            e.recv env clock addr datagram now =
              { e.withConn clock conn with unpacker := unpacker, stamp := datagram.1 }) := by
  have hflight := hpeer.sent datagram hdatagram
  obtain ⟨ack, hack, ⟨packet, control, resend, hbytes, hflags, hpacketAck, hsize, hcases⟩, hqueue⟩ := hflight.sent
  obtain ⟨result, compression, hunpack, hpacket, -⟩ := unpackPacket_sent
    (wireForm f.conn.keys.securityToken f.conn.keys.sixup) hflags (hpacketAck ▸ Nat.mod_lt _ (by decide))
    (hsize.trans (le_room _ _))
  rw [wireForm_securityToken, wireForm_isSixup, ← hbytes, ← h.keys.sixup] at hunpack
  rw [received_eq h.keys, hpacketAck] at hpacket
  dsimp only [CNetConnection.keys] at hpacket
  have hold := hflight.le
  have hlength := h.handed.length_le
  have hacked := hpeer.handed.length_le
  -- a control packet is a keepalive
  have hkeepalive : hasFlag (CNetBase.packetFlags control resend |||
      if compression then netPacketflagCompression else 0) netPacketflagControl = true →
      packet.chunkData = [netCtrlmsgKeepalive] := by
    rw [CNetBase.hasFlag_control]
    intro hcontrol
    rcases hcases with ⟨-, hdata, -⟩ | ⟨hplain, -⟩
    · exact hdata
    · exact absurd (hplain.symm.trans hcontrol) Bool.false_ne_true
  have hfeed := feed_moves h.tracks hstate (fun hsixup => (h.keys.securityToken hsixup).2) (hack.trans hacked)
    (by dsimp only; omega) hkeepalive (packet.numChunks % 256) env addr (result.securityToken.getD 0)
    (result.responseToken.getD netSecurityTokenUnknown) now
  rw [LinkEnd.recv, show CNetBase.unpackPacket datagram.2 e.conn.sixup true true = some result from hunpack]
  dsimp only
  rw [hpacket, if_neg (by rw [hasFlag_connless]; exact Bool.false_ne_true)]
  dsimp only at hfeed
  generalize e.conn.feed env _ addr (result.securityToken.getD 0)
    (result.responseToken.getD netSecurityTokenUnknown) now = fed at hfeed ⊢
  rcases hfeed with ⟨hsame, hrefused⟩ | ⟨hmoves, hdata⟩
  · left
    rw [hrefused, if_neg Bool.false_ne_true, hsame, LinkEnd.withConn_self]
  · refine .inr ⟨fed.1, ack, hmoves, hack, ?_⟩
    split_ifs
    · refine .inr ⟨_, ?_, rfl⟩
      rw [hdata]
      have hsplit : f.conn.keys.split = e.conn.split := by
        rw [LinkKeys.split, ← h.keys.sixup]
        rfl
      rcases hcases with ⟨-, -, hzero⟩ | ⟨-, pieces, hchunks, hnum, hqueued, hages⟩
      · rw [hzero]
        exact ⟨hold, [], ⟨fun hpos => absurd hpos (lt_irrefl 0), le_rfl, fun _ hp => absurd hp List.not_mem_nil⟩,
          fun _ hp => absurd hp List.not_mem_nil⟩
      · rw [hsplit] at hchunks hqueued
        exact ⟨hold, pieces, ⟨fun _ => hchunks, hnum ▸ Nat.mod_le _ _, fun p hp => (hqueued p hp).fits⟩,
          fun p hp => ⟨hqueued p hp, hages p hp⟩⟩
    · exact .inl rfl

lemma EndOk.recv {datagram : ℕ × List UInt8} (h : EndOk e f acked) (hpeer : EndOk f e ackedPeer)
    (hstate : e.conn.state = .online) (hdatagram : datagram ∈ f.sent)
    (hrecent : e.queued.length + f.queued.length ≤ datagram.1 + Link.maxDelay) (env : NetEnv Addr) (addr : Addr)
    (now : ℤ) : ∃ acked', EndOk (e.recv env (e.queued.length + f.queued.length) addr datagram now) f acked' ∧
      EndOk f (e.recv env (e.queued.length + f.queued.length) addr datagram now) ackedPeer := by
  rcases h.recv_cases hpeer hstate hdatagram hrecent env (e.queued.length + f.queued.length) addr now with
    heq | ⟨conn, acked', hmoves, hacked, heq | ⟨unpacker, hunpacking, heq⟩⟩ <;> rw [heq]
  · exact ⟨acked, h, hpeer⟩
  · exact ⟨acked', h.move hpeer hmoves List.prefix_rfl (Nat.le_succ _) le_rfl h.handed hacked rfl fun hvalid =>
      CNetConnection.split_eq hmoves.keys ▸ h.unpacker hvalid⟩
  · exact ⟨acked', h.move hpeer hmoves List.prefix_rfl (Nat.le_succ _) le_rfl h.handed hacked rfl fun _ =>
      CNetConnection.split_eq hmoves.keys ▸ hunpacking⟩

end Ends

/-! ### Runs -/

namespace Link

variable {Addr : Type*} {w : Link Addr}

/-- The invariant of the link. -/
def Ok (w : Link Addr) : Prop := ∀ i, ∃ acked, EndOk (w i) (w !i) acked

lemma clock_eq (w : Link Addr) (i : Bool) : clock w = (w i).queued.length + (w !i).queued.length := by
  cases i with
  | false => rfl
  | true => exact Nat.add_comm _ _

/-- An end is replaced. -/
lemma Ok.update {i : Bool} {e : LinkEnd Addr} {acked ackedPeer : ℕ} (h : EndOk e (w !i) acked)
    (hpeer : EndOk (w !i) e ackedPeer) : Ok (Function.update w i e) := by
  intro j
  by_cases hj : j = i
  · subst hj
    rw [Function.update_self, Function.update_of_ne (Bool.not_ne_self j)]
    exact ⟨acked, h⟩
  · obtain rfl : j = !i := Bool.eq_not_of_ne hj
    rw [Function.update_of_ne hj, Bool.not_not, Function.update_self]
    exact ⟨ackedPeer, hpeer⟩

lemma Ok.fresh (h : Fresh w) : Ok w := by
  intro i
  have hinv : EndInv ⟨[], 0, 0⟩ (w i).conn :=
    { received := ⟨h.ack i, h.unknownSeq i⟩
      acked_le := le_rfl
      fits := fun _ hdata => absurd hdata List.not_mem_nil
      buffer := h.buffer i ▸ ⟨[], init_holds _ _, fun _ hx => absurd hx List.not_mem_nil, rfl⟩
      memory := h.buffer i ▸ ⟨rfl, (by decide : netConnBuffersize / itemSize * itemSize ≤ netConnBuffersize)⟩
      construct := h.construct i ▸ ⟨[], packed_zero _ _⟩ }
  have hsame : ∀ j, (w j).conn.sixup = (w !j).conn.sixup
    | false => h.sixup
    | true => h.sixup.symm
  refine ⟨0, ?_, Nat.zero_le _, h.handed i ▸ List.nil_prefix, ⟨hsame i, h.securityToken i⟩, ?_, ?_⟩
  · rw [h.queued i, h.handed i]
    exact ⟨hinv, h.sequence i, h.peerAck i, .inl (h.state i)⟩
  · rw [h.sent i]
    exact fun _ hdatagram => absurd hdatagram List.not_mem_nil
  · exact fun hvalid => absurd ((h.unpacker i).symm.trans hvalid) Bool.false_ne_true

variable [DecidableEq Addr] {env : NetEnv Addr} {addr : Bool → Addr}

lemma Ok.step {event : LinkEvent} (h : Ok w) (henabled : Enabled w event) : Ok (step env addr w event) := by
  choose acked hends using h
  have hpeer : ∀ i, EndOk (w !i) (w i) (acked !i) := fun i => by
    have hend := hends !i
    rwa [Bool.not_not] at hend
  cases event with
  | queueChunk i vital data now =>
    obtain ⟨hstate, hsize, hbits, hok⟩ := henabled
    have hnext := (hends i).queueChunk (hpeer i) hstate hsize hbits hok
    rw [← clock_eq] at hnext
    exact .update hnext.1 hnext.2
  | flush i now =>
    have hnext := (hends i).evolves (hpeer i) (flush_evolves (hends i).tracks.toEndInv now).1
    rw [← clock_eq] at hnext
    exact .update hnext.1 hnext.2
  | update i now =>
    have hnext := (hends i).evolves (hpeer i) (update_evolves (hends i).tracks.toEndInv henabled env now)
    rw [← clock_eq] at hnext
    exact .update hnext.1 hnext.2
  | recv i k now =>
    obtain ⟨hstate, -, hrecent⟩ := henabled
    rw [Link.step]
    cases hsent : (w !i).sent[k]? with
    | none => exact fun j => ⟨acked j, hends j⟩
    | some datagram =>
      have hdelay := hrecent datagram hsent
      rw [clock_eq w i] at hdelay
      obtain ⟨acked', hnext⟩ :=
        (hends i).recv (hpeer i) hstate (List.mem_of_getElem? hsent) hdelay env (addr !i) now
      rw [← clock_eq] at hnext
      exact .update hnext.1 hnext.2
  | fetchChunk i =>
    have hrecent : clock w ≤ (w i).stamp + maxDelay := henabled
    rw [clock_eq w i] at hrecent
    have hnext := (hends i).fetchChunk (hpeer i) hrecent
    exact .update hnext.1 hnext.2

lemma Reachable.ok (h : Reachable env addr w) : Ok w := by
  induction h with
  | fresh h => exact .fresh h
  | step _ henabled ih => exact ih.step henabled

instance (w : Link Addr) : (event : LinkEvent) → Decidable (Enabled w event)
  | .queueChunk .. => inferInstanceAs (Decidable (_ ∧ _ ∧ _ ∧ _))
  | .flush .. => inferInstanceAs (Decidable (_ = _))
  | .update .. => inferInstanceAs (Decidable (_ = _))
  | .recv .. => inferInstanceAs (Decidable (_ ∧ _ ∧ _))
  | .fetchChunk .. => inferInstanceAs (Decidable (_ ≤ _))

variable (env addr) in
/-- The events may happen one after the other. -/
def AllEnabled (w : Link Addr) : List LinkEvent → Prop
  | [] => True
  | event :: events => Enabled w event ∧ AllEnabled (step env addr w event) events

instance decidableAllEnabled : (w : Link Addr) → (events : List LinkEvent) → Decidable (AllEnabled env addr w events)
  | _, [] => .isTrue trivial
  | w, event :: events => @instDecidableAnd _ _ _ (decidableAllEnabled (step env addr w event) events)

lemma Reachable.run {events : List LinkEvent} (h : Reachable env addr w) (henabled : AllEnabled env addr w events) :
    Reachable env addr (events.foldl (Link.step env addr) w) := by
  induction events generalizing w with
  | nil => exact h
  | cons event events ih => exact ih (h.step henabled.1) henabled.2

open CNetConnection

end Link

end DDNet
