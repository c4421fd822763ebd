/-
Chunks in order (`CNetConnection::QueueChunk`, `Flush`, `CNetClient::Recv`).

A receiver that gets all datagrams of a sender in their order hands out what was queued: chunks with the same flags and
data.  A packet header counts the chunks in one byte, though, and a packet has room for more of them if they are small:
it is exactly the packets with more than 255 chunks that lose some (`receiveAll_iff`).
-/
import DDNet.Shared.ReliableLink

namespace DDNet

open CNetPacketConstruct

/-! ### The sender and the receiver -/

inductive SendOp
  | queueChunk (vital : Bool) (data : List UInt8) (now : ℤ)
  | flush (now : ℤ)

namespace SendOp

/-- The chunk flags of `CNetClient::Send`. -/
def chunkFlags (vital : Bool) : ℕ := if vital then netChunkflagVital else 0

/-- The chunks that are queued. -/
def chunks : SendOp → List CNetChunk
  | queueChunk vital data _ => [⟨chunkFlags vital, data⟩]
  | flush _ => []

/-- The chunk fits into a packet and its size into the header. -/
def Fits (split : ℕ) : SendOp → Prop
  | queueChunk _ data _ =>
      data.length + netMaxChunkheadersize ≤ netMaxPayload - securityTokenSize ∧ data.length < 2 ^ (6 + split)
  | flush _ => True

instance (split : ℕ) : (op : SendOp) → Decidable (op.Fits split)
  | .queueChunk .. => inferInstanceAs (Decidable (_ ∧ _))
  | .flush _ => .isTrue trivial

lemma chunkFlags_lt (vital : Bool) : chunkFlags vital < 4 := by
  cases vital <;> decide

lemma chunks_fits {split : ℕ} {op : SendOp} (h : op.Fits split) {chunk : CNetChunk} (hchunk : chunk ∈ op.chunks) :
    chunk.flags < 4 ∧ chunk.data.length < 2 ^ (6 + split) := by
  cases op with
  | queueChunk vital data now =>
    rw [List.mem_singleton.1 hchunk]
    exact ⟨chunkFlags_lt vital, h.2⟩
  | flush now => exact absurd hchunk List.not_mem_nil

end SendOp

namespace CNetConnection

variable {Addr : Type*}

def sendStep (conn : CNetConnection Addr) : SendOp → CNetConnection Addr
  | .queueChunk vital data now => (conn.queueChunk (SendOp.chunkFlags vital) data now).1
  | .flush now => (conn.flush now).1

/-- No packet gets more chunks than a byte can count. -/
def Countable (conn : CNetConnection Addr) : List SendOp → Prop
  | [] => conn.construct.numChunks < 256
  | op :: ops => conn.construct.numChunks < 256 ∧ Countable (conn.sendStep op) ops

instance decidableCountable : (conn : CNetConnection Addr) → (ops : List SendOp) → Decidable (conn.Countable ops)
  | conn, [] => inferInstanceAs (Decidable (conn.construct.numChunks < 256))
  | conn, op :: ops => @instDecidableAnd _ _ _ (decidableCountable (conn.sendStep op) ops)

/-- The datagrams that the sender hands to the socket. -/
def sentBy (conn : CNetConnection Addr) (ops : List SendOp) : List (List UInt8) :=
  ((ops.foldl sendStep conn).socket.drop conn.socket.length).map Prod.snd

/-- `FetchChunk` until there is no chunk any more. -/
def fetchAll : ℕ → CNetRecvUnpacker → CNetConnection Addr → List CNetChunk × CNetConnection Addr
  | 0, _, conn => ([], conn)
  | fuel + 1, unpacker, conn =>
      match unpacker.fetchChunk conn with
      | (_, conn, none) => ([], conn)
      | (unpacker, conn, some chunk) =>
          let rest := fetchAll fuel unpacker conn
          (chunk :: rest.1, rest.2)

variable [DecidableEq Addr] (env : NetEnv Addr) (addr : Addr)

/-- A datagram is read and its chunks are fetched, as in `CNetClient::Recv`. -/
def receive (conn : CNetConnection Addr) (datagram : List UInt8) (now : ℤ) : List CNetChunk × CNetConnection Addr :=
  match CNetBase.unpackPacket datagram conn.sixup true true with
  | none => ([], conn)
  | some result =>
    if hasFlag result.packet.flags netPacketflagConnless then ([], conn)
    else if conn.state = .offline || conn.state = .error then ([], conn)
    else
      let fed := conn.feed env result.packet addr (result.securityToken.getD 0)
        (result.responseToken.getD netSecurityTokenUnknown) now
      -- a packet has at most 255 chunks
      if fed.2.2 then fetchAll 256 (.start fed.2.1) fed.1 else ([], fed.1)

/-- The chunks of datagrams that are read one after the other. -/
def receiveAll (conn : CNetConnection Addr) : List (List UInt8 × ℤ) → List CNetChunk
  | [] => []
  | (datagram, now) :: datagrams =>
      let received := conn.receive env addr datagram now
      received.1 ++ receiveAll received.2 datagrams

end CNetConnection

/-- A sender and a receiver that are in step: the receiver waits for the next vital chunk of the sender. -/
structure InStep {Addr : Type*} (sender receiver : CNetConnection Addr) (addr : Addr) : Prop where
  sender_online : sender.state = .online
  construct : sender.construct = .zero
  sender_ack : sender.ack < netMaxSequence
  receiver_online : receiver.state = .online
  peerAddr : receiver.peerAddr = addr
  sequence : sender.sequence = receiver.ack
  ack : receiver.ack < netMaxSequence
  unknownSeq : receiver.unknownSeq = false
  ackValid : CNetConnection.ackValid receiver.sequence receiver.peerAck sender.ack = true
  token : sender.sixup = true → sender.securityToken = receiver.token
  keys : receiver.keys.Agree sender.keys

/-! ### Numbers -/

/-- The chunks with the numbers that a sender gives them who has queued `count` vital chunks before. -/
def numbered : ℕ → List CNetChunk → List Piece
  | _, [] => []
  | count, chunk :: chunks =>
      if CNetChunkHeader.isVital chunk.flags then ⟨chunk.flags, chunk.data, count + 1⟩ :: numbered (count + 1) chunks
      else ⟨chunk.flags, chunk.data, count⟩ :: numbered count chunks

def vitals (chunks : List CNetChunk) : ℕ := chunks.countP fun chunk => CNetChunkHeader.isVital chunk.flags

def Piece.chunk (p : Piece) : CNetChunk := ⟨p.flags, p.data⟩

section Numbered

variable {count : ℕ} {chunks more : List CNetChunk}

lemma map_chunk_numbered (count : ℕ) (chunks : List CNetChunk) : (numbered count chunks).map Piece.chunk = chunks := by
  induction chunks generalizing count with
  | nil => rfl
  | cons chunk chunks ih =>
    rw [numbered]
    split_ifs <;> exact congrArg (chunk :: ·) (ih _)

lemma length_numbered (count : ℕ) (chunks : List CNetChunk) : (numbered count chunks).length = chunks.length := by
  rw [← List.length_map Piece.chunk, map_chunk_numbered]

lemma vitals_append (chunks more : List CNetChunk) : vitals (chunks ++ more) = vitals chunks + vitals more :=
  List.countP_append

lemma numbered_cons (count : ℕ) (chunk : CNetChunk) (chunks : List CNetChunk) :
    numbered count (chunk :: chunks) =
      ⟨chunk.flags, chunk.data, count + vitals [chunk]⟩ :: numbered (count + vitals [chunk]) chunks := by
  rw [numbered, vitals, List.countP_singleton]
  split_ifs <;> rfl

lemma isVital_chunkFlags (vital : Bool) : CNetChunkHeader.isVital (SendOp.chunkFlags vital) = vital := by
  cases vital <;> decide

lemma vitals_chunkFlags (vital : Bool) (data : List UInt8) :
    vitals [⟨SendOp.chunkFlags vital, data⟩] = vital.toNat := by
  rw [vitals, List.countP_singleton, isVital_chunkFlags]
  cases vital <;> rfl

lemma numbered_chunkFlags (count : ℕ) (vital : Bool) (data : List UInt8) :
    numbered count [⟨SendOp.chunkFlags vital, data⟩] = [⟨SendOp.chunkFlags vital, data, count + vital.toNat⟩] := by
  rw [numbered_cons, vitals_chunkFlags]
  rfl

lemma numbered_append (count : ℕ) (chunks more : List CNetChunk) :
    numbered count (chunks ++ more) = numbered count chunks ++ numbered (count + vitals chunks) more := by
  induction chunks generalizing count with
  | nil => rfl
  | cons chunk chunks ih =>
    rw [List.cons_append, numbered_cons, numbered_cons, ih, List.cons_append, Nat.add_assoc, ← vitals_append]
    rfl

lemma numbered_split {group rest : List Piece} (h : group ++ rest = numbered count chunks) :
    ∃ front back, chunks = front ++ back ∧ group = numbered count front ∧
      rest = numbered (count + vitals front) back := by
  have hlength := congrArg List.length h
  rw [List.length_append, length_numbered] at hlength
  rw [← List.take_append_drop group.length chunks, numbered_append] at h
  have hfront : group.length = (numbered count (chunks.take group.length)).length := by
    rw [length_numbered, List.length_take]
    omega
  obtain ⟨hgroup, hrest⟩ := List.append_inj h hfront
  exact ⟨_, _, (List.take_append_drop group.length chunks).symm, hgroup, hrest⟩

lemma numbered_fits {split : ℕ} (h : ∀ chunk ∈ chunks, chunk.flags < 4 ∧ chunk.data.length < 2 ^ (6 + split)) :
    ∀ p ∈ numbered count chunks, p.Fits split := by
  induction chunks generalizing count with
  | nil => exact fun p hp => absurd hp List.not_mem_nil
  | cons chunk chunks ih =>
    rw [List.forall_mem_cons] at h
    rw [numbered_cons, List.forall_mem_cons]
    exact ⟨⟨h.1.1, h.1.2⟩, ih h.2⟩

end Numbered

/-! ### Sending -/

section Sending

variable {Addr : Type*} {conn : CNetConnection Addr} {pieces : List Piece} {p : Piece}

/-- The packet that is being built has the chunks. -/
structure Building (conn : CNetConnection Addr) (pieces : List Piece) : Prop where
  construct : conn.construct = ⟨0, conn.construct.ack, pieces.length, chunkBytes conn.split pieces, []⟩
  size : conn.construct.dataSize ≤ maxPacked

lemma building_zero (h : conn.construct = .zero) : Building conn [] := by
  refine ⟨?_, ?_⟩ <;> rw [h]
  · rfl
  · exact Nat.zero_le _

/-- The datagram with the chunks. -/
def chunkDatagram (conn : CNetConnection Addr) (pieces : List Piece) : List UInt8 :=
  CNetBase.sendPacket ⟨0, conn.ack, pieces.length, chunkBytes conn.split pieces, []⟩ conn.securityToken conn.sixup false

/-- What a sender does: it sends packets with the groups of chunks, and has the rest in the packet that it builds. -/
structure Sends (conn conn' : CNetConnection Addr) (groups : List (List Piece)) (rest : List Piece) : Prop where
  building : Building conn' rest
  socket : conn'.socket.map Prod.snd = conn.socket.map Prod.snd ++ groups.map (chunkDatagram conn)
  keys : conn'.keys = conn.keys
  ack : conn'.ack = conn.ack
  state : conn'.state = conn.state
  small : ∀ group ∈ groups, (chunkBytes conn.split group).length ≤ maxPacked

lemma Sends.refl (h : Building conn pieces) : Sends conn conn [] pieces where
  building := h
  socket := (List.append_nil _).symm
  keys := rfl
  ack := rfl
  state := rfl
  small _ hgroup := absurd hgroup List.not_mem_nil

lemma Sends.congr {conn' conn'' : CNetConnection Addr} {groups : List (List Piece)} {rest : List Piece}
    (h : Sends conn conn' groups rest) (hconstruct : conn''.construct = conn'.construct)
    (hsocket : conn''.socket = conn'.socket) (hkeys : conn''.keys = conn'.keys) (hack : conn''.ack = conn'.ack)
    (hstate : conn''.state = conn'.state) : Sends conn conn'' groups rest where
  building := by
    obtain ⟨hbuilt, hsize⟩ := h.building
    refine ⟨?_, hconstruct ▸ hsize⟩
    rw [hconstruct, CNetConnection.split_eq hkeys]
    exact hbuilt
  socket := hsocket ▸ h.socket
  keys := hkeys.trans h.keys
  ack := hack.trans h.ack
  state := hstate.trans h.state
  small := h.small

lemma chunkDatagram_congr {conn conn' : CNetConnection Addr} (hkeys : conn'.keys = conn.keys)
    (hack : conn'.ack = conn.ack) : chunkDatagram conn' = chunkDatagram conn := by
  obtain ⟨htoken, hsixup⟩ := LinkKeys.mk.inj hkeys
  funext pieces
  rw [chunkDatagram, chunkDatagram, hack, htoken, hsixup, CNetConnection.split_eq hkeys]

lemma Sends.trans {conn' conn'' : CNetConnection Addr} {groups groups' : List (List Piece)} {rest rest' : List Piece}
    (h : Sends conn conn' groups rest) (h' : Sends conn' conn'' groups' rest') :
    Sends conn conn'' (groups ++ groups') rest' where
  building := h'.building
  socket := by
    rw [h'.socket, h.socket, chunkDatagram_congr h.keys h.ack, List.map_append, List.append_assoc]
  keys := h'.keys.trans h.keys
  ack := h'.ack.trans h.ack
  state := h'.state.trans h.state
  small group hgroup := (List.mem_append.1 hgroup).elim (h.small group) fun hlast =>
    CNetConnection.split_eq h.keys ▸ h'.small group hlast

/-- `Flush` sends what there is. -/
lemma flush_sends (h : Building conn pieces) (now : ℤ) :
    Sends conn (conn.flush now).1 (if pieces = [] then [] else [pieces]) [] := by
  rw [CNetConnection.flush]
  have hnum : conn.construct.numChunks = pieces.length := by rw [h.construct]
  have hflags : conn.construct.flags = 0 := by rw [h.construct]
  cases pieces with
  | nil =>
    rw [hnum, hflags]
    exact .refl h
  | cons p pieces =>
    rw [hnum, if_neg (by simp), if_neg (List.cons_ne_nil _ _)]
    refine ⟨⟨rfl, Nat.zero_le _⟩, ?_, rfl, rfl, rfl, ?_⟩
    · dsimp only [CNetConnection.send]
      rw [List.map_append, h.construct]
      rfl
    · intro group hgroup
      have hsize := h.size
      rw [List.mem_singleton.1 hgroup]
      rwa [h.construct] at hsize

/-- What a step of the sender adds to the chunks in its packets. -/
structure Adds (conn conn' : CNetConnection Addr) (pieces added : List Piece) (groups : List (List Piece))
    (rest : List Piece) : Prop where
  sends : Sends conn conn' groups rest
  flatten : groups.flatten ++ rest = pieces ++ added
  group_eq : ∀ group ∈ groups, group = pieces

lemma Adds.le_rest {conn' : CNetConnection Addr} {added rest : List Piece}
    (h : Adds conn conn' pieces added [] rest) : pieces.length ≤ rest.length := by
  have hflatten := h.flatten
  rw [List.flatten_nil, List.nil_append] at hflatten
  rw [hflatten, List.length_append]
  exact Nat.le_add_right _ _

lemma flush_adds (h : Building conn pieces) (now : ℤ) :
    Adds conn (conn.flush now).1 pieces [] (if pieces = [] then [] else [pieces]) [] := by
  refine ⟨flush_sends h now, ?_, ?_⟩
  · split_ifs with hnil
    · rw [hnil]
      rfl
    · simp
  · split_ifs
    · exact fun _ hgroup => absurd hgroup List.not_mem_nil
    · exact fun _ hgroup => List.mem_singleton.1 hgroup

/-- `makeRoom` sends what there is, or there is room. -/
lemma makeRoom_adds (h : Building conn pieces) {size : ℕ} (hsize : size + netMaxChunkheadersize ≤ maxPacked)
    (now : ℤ) : (∃ groups rest, Adds conn (conn.makeRoom size now) pieces [] groups rest) ∧
      (conn.makeRoom size now).construct.dataSize + size + netMaxChunkheadersize ≤ maxPacked := by
  rw [CNetConnection.makeRoom]
  split_ifs with hfull
  · have hflush := flush_adds h now
    have hzero : (conn.flush now).1.construct.dataSize = 0 := by
      rw [hflush.sends.building.construct]
      rfl
    exact ⟨⟨_, _, hflush⟩, by omega⟩
  · exact ⟨⟨[], pieces, .refl h, (List.append_nil _).symm, fun _ hgroup => absurd hgroup List.not_mem_nil⟩,
      Nat.le_of_not_lt hfull⟩

/-- A chunk is packed behind the others, or into the next packet. -/
lemma queueChunkEx_adds (h : Building conn pieces) (hstate : conn.state = .online)
    (hsize : p.data.length + netMaxChunkheadersize ≤ maxPacked) (now : ℤ) :
    (∃ groups rest, Adds conn (conn.queueChunkEx p.flags p.data (p.number % netMaxSequence) now).1 pieces [p] groups
      rest) ∧ (conn.queueChunkEx p.flags p.data (p.number % netMaxSequence) now).1.sequence = conn.sequence := by
  have hopen : (decide (conn.state = .offline) || decide (conn.state = .error)) = false := by
    rw [hstate]
    rfl
  obtain ⟨⟨groups, rest, hsends, hflatten, hgroups⟩, hroom⟩ := makeRoom_adds h hsize now
  have hsequence := (CNetConnection.makeRoom_buffer conn p.data.length now).2.2
  set room := conn.makeRoom p.data.length now
  have hle := p.length_bytes_le conn.split
  have hsplit := CNetConnection.split_eq hsends.keys
  have hbuilding : Building (room.packChunk p.header p.data) (rest ++ [p]) := by
    have hconstruct := hsends.building.construct
    have hbytes : chunkBytes room.split (rest ++ [p]) =
        chunkBytes room.split rest ++ (p.header.pack room.split ++ p.data) := by
      rw [chunkBytes_append]
      exact congrArg _ (List.flatMap_singleton ..)
    refine ⟨?_, ?_⟩
    · change ({ room.construct with
        numChunks := room.construct.numChunks + 1
        chunkData := room.construct.chunkData ++ (p.header.pack room.split ++ p.data) } : CNetPacketConstruct) =
          ⟨0, room.construct.ack, (rest ++ [p]).length, chunkBytes room.split (rest ++ [p]), []⟩
      rw [hbytes, List.length_append, hconstruct]
      rfl
    · rw [CNetConnection.packChunk, dataSize, List.length_append]
      have hbytes : (p.header.pack room.split ++ p.data).length = (p.bytes conn.split).length := by
        rw [hsplit]
        rfl
      rw [dataSize] at hroom
      omega
  have hpacked : Sends conn (room.packChunk p.header p.data) groups (rest ++ [p]) :=
    ⟨hbuilding, hsends.socket, hsends.keys, hsends.ack, hsends.state, hsends.small⟩
  have hmore : groups.flatten ++ (rest ++ [p]) = pieces ++ [p] := by
    rw [← List.append_assoc, hflatten, List.append_nil]
  rw [CNetConnection.queueChunkEx, hopen, if_neg Bool.false_ne_true]
  dsimp only
  split_ifs
  · exact ⟨⟨groups, rest ++ [p], hpacked.congr rfl rfl rfl rfl rfl, hmore, hgroups⟩, hsequence⟩
  · exact ⟨⟨groups, rest ++ [p], hpacked, hmore, hgroups⟩, hsequence⟩

lemma sendStep_adds {count : ℕ} {op : SendOp} (h : Building conn pieces) (hstate : conn.state = .online)
    (hfits : op.Fits conn.split) (hcount : conn.sequence = count % netMaxSequence) :
    (∃ groups rest, Adds conn (conn.sendStep op) pieces (numbered count op.chunks) groups rest) ∧
      (conn.sendStep op).sequence = (count + vitals op.chunks) % netMaxSequence := by
  cases op with
  | flush now =>
    exact ⟨⟨_, _, flush_adds h now⟩, (CNetConnection.flush_buffer conn now).2.2.trans hcount⟩
  | queueChunk vital data now =>
    cases vital with
    | false =>
      have hstep : conn.sendStep (.queueChunk false data now) = (conn.queueChunkEx 0 data conn.sequence now).1 := by
        change (conn.queueChunk 0 data now).1 = _
        rw [CNetConnection.queueChunk, if_neg (by decide)]
      have hadds := @queueChunkEx_adds _ conn pieces ⟨0, data, count⟩ h hstate hfits.1 now
      dsimp only at hadds
      rw [← hcount] at hadds
      have hnumbered : numbered count (SendOp.queueChunk false data now).chunks = [⟨0, data, count⟩] :=
        numbered_chunkFlags count false data
      have hvitals : vitals (SendOp.queueChunk false data now).chunks = 0 := vitals_chunkFlags false data
      rw [hstep, hnumbered, hvitals]
      exact ⟨hadds.1, hadds.2.trans hcount⟩
    | true =>
      have hstart : Building { conn with sequence := (conn.sequence + 1) % netMaxSequence } pieces :=
        ⟨h.construct, h.size⟩
      have hnext : (conn.sequence + 1) % netMaxSequence = (count + 1) % netMaxSequence := by
        rw [hcount, Nat.mod_add_mod]
      have hstep : conn.sendStep (.queueChunk true data now) =
          (CNetConnection.queueChunkEx { conn with sequence := (conn.sequence + 1) % netMaxSequence } netChunkflagVital
            data ((conn.sequence + 1) % netMaxSequence) now).1 := by
        change (conn.queueChunk netChunkflagVital data now).1 = _
        rw [CNetConnection.queueChunk, if_pos (by decide)]
      have hadds := @queueChunkEx_adds _ _ pieces ⟨netChunkflagVital, data, count + 1⟩ hstart hstate hfits.1 now
      dsimp only at hadds
      rw [← hnext] at hadds
      obtain ⟨⟨groups, rest, hsends, hflatten, hgroups⟩, hsequence⟩ := hadds
      have hnumbered : numbered count (SendOp.queueChunk true data now).chunks =
          [⟨netChunkflagVital, data, count + 1⟩] := numbered_chunkFlags count true data
      have hvitals : vitals (SendOp.queueChunk true data now).chunks = 1 := vitals_chunkFlags true data
      rw [hstep, hnumbered, hvitals]
      exact ⟨⟨groups, rest, ⟨hsends.building, hsends.socket, hsends.keys, hsends.ack, hsends.state, hsends.small⟩,
        hflatten, hgroups⟩, hsequence.trans hnext⟩

lemma two_le_length_pack (header : CNetChunkHeader) (split : ℕ) : 2 ≤ (header.pack split).length := by
  rw [CNetChunkHeader.pack]
  split_ifs <;> simp

/-- Chunks with headers of at least two bytes. -/
lemma six_mul_le (split : ℕ) (h : ∀ p ∈ pieces, 4 ≤ p.data.length) :
    6 * pieces.length ≤ (chunkBytes split pieces).length := by
  induction pieces with
  | nil => exact Nat.zero_le _
  | cons p pieces ih =>
    rw [List.forall_mem_cons] at h
    have hheader := two_le_length_pack p.header split
    have hle := ih h.2
    rw [chunkBytes, List.flatMap_cons, List.length_append, Piece.bytes, List.length_append, List.length_cons]
    rw [chunkBytes] at hle
    omega

/-- A run of the sender. -/
lemma foldl_sendStep_sends {ops : List SendOp} {count : ℕ} (h : Building conn pieces) (hstate : conn.state = .online)
    (hfits : ∀ op ∈ ops, op.Fits conn.split) (hcount : conn.sequence = count % netMaxSequence) :
    ∃ groups rest, Sends conn (ops.foldl CNetConnection.sendStep conn) groups rest ∧
      groups.flatten ++ rest = pieces ++ numbered count (ops.flatMap SendOp.chunks) ∧
      (conn.Countable ops ↔ ∀ group ∈ groups ++ [rest], group.length < 256) ∧
      ∃ group ∈ groups ++ [rest], pieces.length ≤ group.length := by
  induction ops generalizing conn pieces count with
  | nil =>
    have hnum : conn.construct.numChunks = pieces.length := by rw [h.construct]
    refine ⟨[], pieces, .refl h, (List.append_nil _).symm, ?_, pieces, List.mem_singleton_self _, le_rfl⟩
    rw [CNetConnection.Countable, hnum]
    simp
  | cons op ops ih =>
    obtain ⟨⟨groups, rest, hadds⟩, hsequence⟩ := sendStep_adds h hstate (hfits op List.mem_cons_self) hcount
    have hnum : conn.construct.numChunks = pieces.length := by rw [h.construct]
    have hsplit := CNetConnection.split_eq hadds.sends.keys
    obtain ⟨groups', rest', hsends, hflatten, hcountable, group, hgroup, hle⟩ := ih hadds.sends.building
      (hadds.sends.state.trans hstate) (fun op' hop' => hsplit.symm ▸ hfits op' (List.mem_cons_of_mem _ hop')) hsequence
    have hlongest : ∃ group ∈ groups ++ groups' ++ [rest'], pieces.length ≤ group.length := by
      cases groups with
      | nil => exact ⟨group, hgroup, hadds.le_rest.trans hle⟩
      | cons first groups =>
        have hfirst := hadds.group_eq first List.mem_cons_self
        exact ⟨first, by simp, by rw [hfirst]⟩
    refine ⟨groups ++ groups', rest', hadds.sends.trans hsends, ?_, ?_, hlongest⟩
    · rw [List.flatten_append, List.append_assoc, hflatten, ← List.append_assoc, hadds.flatten, List.append_assoc,
        ← numbered_append, List.flatMap_cons]
    · rw [CNetConnection.Countable, hnum, hcountable]
      constructor
      · rintro ⟨hshort, hrest⟩ group' hgroup'
        rw [List.append_assoc] at hgroup'
        rcases List.mem_append.1 hgroup' with hold | hnew
        · rw [hadds.group_eq group' hold]
          exact hshort
        · exact hrest group' hnew
      · intro hall
        obtain ⟨group', hgroup', hle'⟩ := hlongest
        refine ⟨hle'.trans_lt (hall group' hgroup'), fun group'' hgroup'' => hall group'' ?_⟩
        rw [List.append_assoc]
        exact List.mem_append_right _ hgroup''

end Sending

/-! ### Receiving -/

section Receiving

variable {Addr : Type*} {sender conn : CNetConnection Addr} {addr : Addr} {count : ℕ}

/-- The receiver takes the packets of the sender. -/
structure Listens (sender conn : CNetConnection Addr) (addr : Addr) : Prop where
  state : conn.state = .online
  peerAddr : conn.peerAddr = addr
  ackValid : CNetConnection.ackValid conn.sequence conn.peerAck sender.ack = true
  token : sender.sixup = true → sender.securityToken = conn.token
  keys : conn.keys.Agree sender.keys

lemma Listens.split_eq (h : Listens sender conn addr) : conn.split = sender.split := by
  have hsixup : conn.sixup = sender.sixup := h.keys.sixup
  rw [CNetConnection.split, CNetConnection.split, hsixup]

open CNetRecvUnpacker (handleSequence)

lemma handleSequence_listens (h : Listens sender conn addr) (header : CNetChunkHeader) :
    Listens sender (handleSequence conn header).1 addr := by
  rw [handleSequence]
  split_ifs <;> exact ⟨h.state, h.peerAddr, h.ackValid, h.token, h.keys⟩

/-- `FetchChunk` goes on in the packet when it hands out a chunk. -/
lemma fetchChunk_listens (unpacker : CNetRecvUnpacker) (h : Listens sender conn addr) :
    Listens sender (unpacker.fetchChunk conn).2.1 addr ∧
      ((unpacker.fetchChunk conn).2.2.isSome = true →
        (unpacker.fetchChunk conn).1.data = unpacker.data ∧
          unpacker.currentChunk < (unpacker.fetchChunk conn).1.currentChunk ∧
          (unpacker.fetchChunk conn).1.currentChunk ≤ unpacker.data.numChunks) := by
  induction hn : unpacker.data.numChunks - unpacker.currentChunk using Nat.strong_induction_on
    generalizing unpacker conn with
  | _ n ih =>
    rw [CNetRecvUnpacker.fetchChunk]
    by_cases hdone : unpacker.valid = false ∨ unpacker.data.numChunks ≤ unpacker.currentChunk
    · rw [dif_pos hdone]
      exact ⟨h, fun hsome => (Bool.false_ne_true hsome).elim⟩
    rw [dif_neg hdone]
    have hlt := not_le.1 (not_or.1 hdone).2
    cases (CNetRecvUnpacker.skipChunks conn.split unpacker.currentChunk unpacker.data.chunkData).bind
      (CNetChunkHeader.unpack conn.split) with
    | none => exact ⟨h, fun hsome => (Bool.false_ne_true hsome).elim⟩
    | some chunk =>
      obtain ⟨header, data⟩ := chunk
      dsimp only
      by_cases hsize : header.size > data.length
      · rw [if_pos hsize]
        exact ⟨h, fun hsome => (Bool.false_ne_true hsome).elim⟩
      rw [if_neg hsize]
      have hfirst := handleSequence_listens h header
      rcases hresult : handleSequence conn header with ⟨next, _ | _⟩ <;> rw [hresult] at hfirst
      · obtain ⟨hlistens, hnext⟩ := ih _ (by dsimp only; omega)
          { unpacker with currentChunk := unpacker.currentChunk + 1 } hfirst rfl
        refine ⟨hlistens, fun hsome => ?_⟩
        obtain ⟨hdata, hmore, hle⟩ := hnext hsome
        exact ⟨hdata, (Nat.lt_succ_self _).trans hmore, hle⟩
      · exact ⟨hfirst, fun _ => ⟨rfl, Nat.lt_succ_self _, hlt⟩⟩

/-- No more chunks are fetched than the packet has. -/
lemma fetchAll_listens (fuel : ℕ) (unpacker : CNetRecvUnpacker) (h : Listens sender conn addr) :
    Listens sender (CNetConnection.fetchAll fuel unpacker conn).2 addr ∧
      (CNetConnection.fetchAll fuel unpacker conn).1.length ≤ unpacker.data.numChunks - unpacker.currentChunk := by
  induction fuel generalizing unpacker conn with
  | zero => exact ⟨h, Nat.zero_le _⟩
  | succ fuel ih =>
    obtain ⟨hlistens, hnext⟩ := fetchChunk_listens unpacker h
    rw [CNetConnection.fetchAll]
    rcases hfetch : unpacker.fetchChunk conn with ⟨unpacker', conn', _ | chunk⟩ <;> rw [hfetch] at hlistens hnext
    · exact ⟨hlistens, Nat.zero_le _⟩
    · obtain ⟨hdata, hmore, hle⟩ := hnext rfl
      dsimp only at hlistens hdata hmore hle
      obtain ⟨hrest, hlength⟩ := ih unpacker' hlistens
      refine ⟨hrest, ?_⟩
      dsimp only
      rw [hdata] at hlength
      rw [List.length_cons]
      omega

/-- The next chunk is handed out. -/
lemma handleSequence_numbered (h : Received count conn) (chunk : CNetChunk) :
    ∃ conn', handleSequence conn (Piece.mk chunk.flags chunk.data (count + vitals [chunk])).header.visible =
        (conn', true) ∧ Received (count + vitals [chunk]) conn' ∧ conn'.split = conn.split := by
  set p : Piece := ⟨chunk.flags, chunk.data, count + vitals [chunk]⟩
  have hflags : p.header.visible.flags = chunk.flags := rfl
  rw [handleSequence, hflags, vitals, List.countP_singleton]
  cases hvital : CNetChunkHeader.isVital chunk.flags with
  | false => exact ⟨conn, by rw [if_neg Bool.false_ne_true], h, rfl⟩
  | true =>
    have hnumber : p.number = count + 1 := by
      change count + vitals [chunk] = count + 1
      rw [vitals, List.countP_singleton, if_pos hvital]
    have hsequence : p.header.visible.sequence = ((count + 1) % netMaxSequence : ℕ) := by
      rw [CNetChunkHeader.visible, if_pos (show CNetChunkHeader.isVital p.header.flags = true from hvital), ← hnumber]
      rfl
    rw [if_pos rfl, hsequence, h.unknownSeq, h.ack, if_pos (by rw [Nat.mod_add_mod, Bool.or_false, decide_eq_true rfl])]
    exact ⟨_, rfl, ⟨rfl, rfl⟩, rfl⟩

/-- Chunks in order are fetched. -/
lemma fetchAll_numbered {split : ℕ} (hsplit : split ≤ 6) {pieces : List Piece} {chunks : List CNetChunk} {fuel : ℕ}
    (hfuel : chunks.length < fuel) {unpacker : CNetRecvUnpacker} (hholding : Holding split pieces unpacker)
    (hvalid : unpacker.valid = true) (hall : unpacker.data.numChunks = pieces.length)
    (hnumbered : pieces.drop unpacker.currentChunk = numbered count chunks) (h : Received count conn)
    (hsame : conn.split = split) :
    (CNetConnection.fetchAll fuel unpacker conn).1 = chunks ∧
      Received (count + vitals chunks) (CNetConnection.fetchAll fuel unpacker conn).2 := by
  induction chunks generalizing fuel unpacker conn count with
  | nil =>
    have hle : pieces.length ≤ unpacker.currentChunk := List.drop_eq_nil_iff.1 hnumbered
    cases fuel with
    | zero => exact ⟨rfl, h⟩
    | succ fuel =>
      rw [CNetConnection.fetchAll, CNetRecvUnpacker.fetchChunk, dif_pos (.inr (hall.trans_le hle))]
      exact ⟨rfl, h⟩
  | cons chunk chunks ih =>
    obtain ⟨fuel, rfl⟩ : ∃ fuel', fuel = fuel' + 1 := ⟨fuel - 1, by omega⟩
    rw [numbered_cons] at hnumbered
    have hlt : unpacker.currentChunk < pieces.length := by
      by_contra hge
      rw [List.drop_eq_nil_of_le (not_lt.1 hge)] at hnumbered
      cases hnumbered
    rw [List.drop_eq_getElem_cons hlt, List.cons.injEq] at hnumbered
    obtain ⟨hhead, htail⟩ := hnumbered
    have hget := List.getElem?_eq_getElem hlt
    rw [hhead] at hget
    obtain ⟨conn', hhandle, hreceived, hsplit'⟩ := handleSequence_numbered h chunk
    obtain ⟨hrest, hlast⟩ := ih (Nat.lt_of_succ_lt_succ hfuel)
      (show Holding split pieces { unpacker with currentChunk := unpacker.currentChunk + 1 } from
        ⟨hholding.data, hholding.numChunks, hholding.fits⟩) hvalid hall htail hreceived (hsplit'.trans hsame)
    rw [CNetConnection.fetchAll, fetchChunk_at hsplit hholding hvalid (hall ▸ hlt) hsame hget, hhandle]
    refine ⟨congrArg (chunk :: ·) hrest, ?_⟩
    rw [← List.singleton_append, vitals_append, ← Nat.add_assoc]
    exact hlast

lemma hasFlag_resend (compression : Bool) :
    hasFlag (CNetBase.packetFlags false false ||| if compression then netPacketflagCompression else 0)
      netPacketflagResend = false := by
  cases compression <;> decide

variable [DecidableEq Addr]

/-- A packet of the sender is taken. -/
lemma feed_listens (h : Listens sender conn addr) (env : NetEnv Addr) {flags : UInt8}
    (hresend : hasFlag flags netPacketflagResend = false) (hcontrol : hasFlag flags netPacketflagControl = false)
    (numChunks : ℕ) (data : List UInt8) {securityToken : SecurityToken}
    (htoken : sender.sixup = true → securityToken = sender.securityToken) (responseToken : SecurityToken) (now : ℤ) :
    ∃ conn', conn.feed env ⟨flags, sender.ack, numChunks,
        (wireForm sender.securityToken sender.sixup).received data, []⟩ addr securityToken responseToken now =
          (conn', ⟨flags, sender.ack, numChunks, data, []⟩, true) ∧
      Listens sender conn' addr ∧ conn'.ack = conn.ack ∧ conn'.unknownSeq = conn.unknownSeq := by
  have hform : (wireForm sender.securityToken sender.sixup).received data =
      (wireForm conn.securityToken conn.sixup).received data := received_eq h.keys data
  have hsame : (conn.sixup && decide (securityToken ≠ conn.token)) = false := by
    cases hsixup : conn.sixup with
    | false => rfl
    | true =>
      have hsender : sender.sixup = true := h.keys.sixup.symm.trans hsixup
      rw [htoken hsender, h.token hsender]
      simp
  have hvalid : CNetConnection.ackValid conn.sequence sender.ack sender.ack = true := by
    rw [CNetConnection.ackValid]
    split_ifs with hle
    · simpa using hle
    · simp
  have haddr : (decide (conn.state ≠ .offline) && decide (conn.state ≠ .connect) && decide (addr ≠ conn.peerAddr)) =
      false := by
    rw [h.peerAddr]
    simp
  have hpending : conn.state ≠ .pending := by
    rw [h.state]
    decide
  rw [hform, CNetConnection.feed, haddr, if_neg Bool.false_ne_true,
    stripToken_received h.state fun hsixup => (h.keys.securityToken hsixup).2]
  dsimp only
  rw [hsame, if_neg Bool.false_ne_true, h.ackValid, if_neg (by decide), CNetConnection.feedAccepted]
  dsimp only
  rw [hresend, hcontrol, if_neg Bool.false_ne_true, if_neg Bool.false_ne_true]
  dsimp only
  rw [if_neg hpending, CNetConnection.feedAck, if_pos h.state]
  exact ⟨_, rfl, ⟨h.state, h.peerAddr, hvalid, h.token, h.keys⟩, rfl, rfl⟩

/-- A datagram of the sender is read. -/
lemma receive_datagram (h : Listens sender conn addr) (hack : sender.ack < netMaxSequence) (env : NetEnv Addr)
    {pieces : List Piece} (hsize : (chunkBytes sender.split pieces).length ≤ maxPacked) (now : ℤ) :
    ∃ flags conn', conn.receive env addr (chunkDatagram sender pieces) now =
        CNetConnection.fetchAll 256
          (.start ⟨flags, sender.ack, pieces.length % 256, chunkBytes sender.split pieces, []⟩) conn' ∧
      Listens sender conn' addr ∧ conn'.ack = conn.ack ∧ conn'.unknownSeq = conn.unknownSeq := by
  obtain ⟨result, compression, hunpack, hpacket, hsecurity⟩ :=
    @unpackPacket_sent (wireForm sender.securityToken sender.sixup)
      ⟨0, sender.ack, pieces.length, chunkBytes sender.split pieces, []⟩ false false rfl hack
      (hsize.trans (le_room _ _))
  rw [wireForm_securityToken, wireForm_isSixup] at hunpack hsecurity
  have hsixup : conn.sixup = sender.sixup := h.keys.sixup
  have htoken : sender.sixup = true → result.securityToken.getD 0 = sender.securityToken := fun hsender => by
    rw [hsecurity hsender]
    rfl
  obtain ⟨conn', hfeed, hlistens⟩ := feed_listens h env (hasFlag_resend compression)
    (CNetBase.hasFlag_control false false compression) (pieces.length % 256) (chunkBytes sender.split pieces) htoken
    (result.responseToken.getD netSecurityTokenUnknown) now
  rw [CNetConnection.receive, hsixup, chunkDatagram, hunpack]
  dsimp only
  rw [hpacket]
  dsimp only
  rw [hasFlag_connless, if_neg Bool.false_ne_true, if_neg (by rw [h.state]; decide), hfeed]
  exact ⟨_, conn', rfl, hlistens⟩

/-- A packet whose chunks can be counted is handed out. -/
lemma receive_numbered (h : Listens sender conn addr) (hreceived : Received count conn)
    (hack : sender.ack < netMaxSequence) (env : NetEnv Addr) {chunks : List CNetChunk}
    (hfits : ∀ p ∈ numbered count chunks, p.Fits sender.split) (hcount : chunks.length < 256)
    (hsize : (chunkBytes sender.split (numbered count chunks)).length ≤ maxPacked) (now : ℤ) :
    (conn.receive env addr (chunkDatagram sender (numbered count chunks)) now).1 = chunks ∧
      Listens sender (conn.receive env addr (chunkDatagram sender (numbered count chunks)) now).2 addr ∧
      Received (count + vitals chunks)
        (conn.receive env addr (chunkDatagram sender (numbered count chunks)) now).2 := by
  obtain ⟨flags, conn', heq, hlistens, hsameAck, hsameSeq⟩ := receive_datagram h hack env hsize now
  have hall : (numbered count chunks).length % 256 = (numbered count chunks).length :=
    Nat.mod_eq_of_lt (length_numbered count chunks ▸ hcount)
  have hsplit : conn'.split = sender.split := hlistens.split_eq
  have hholding : Holding sender.split (numbered count chunks) (.start ⟨flags, sender.ack,
      (numbered count chunks).length % 256, chunkBytes sender.split (numbered count chunks), []⟩) :=
    ⟨fun _ => rfl, Nat.mod_le _ _, hfits⟩
  obtain ⟨hchunks, hnext⟩ := fetchAll_numbered sender.split_le hcount hholding rfl hall rfl
    ⟨hsameAck.trans hreceived.ack, hsameSeq.trans hreceived.unknownSeq⟩ hsplit
  rw [heq]
  exact ⟨hchunks, (fetchAll_listens _ _ hlistens).1, hnext⟩

/-- Chunks that are not counted are lost. -/
lemma receive_length (h : Listens sender conn addr) (hack : sender.ack < netMaxSequence) (env : NetEnv Addr)
    {pieces : List Piece} (hsize : (chunkBytes sender.split pieces).length ≤ maxPacked) (now : ℤ) :
    (conn.receive env addr (chunkDatagram sender pieces) now).1.length ≤ pieces.length % 256 ∧
      Listens sender (conn.receive env addr (chunkDatagram sender pieces) now).2 addr := by
  obtain ⟨flags, conn', heq, hlistens, -⟩ := receive_datagram h hack env hsize now
  obtain ⟨hnext, hlength⟩ := fetchAll_listens 256
    (.start ⟨flags, sender.ack, pieces.length % 256, chunkBytes sender.split pieces, []⟩) hlistens
  rw [heq]
  exact ⟨hlength, hnext⟩

/-- Packets whose chunks can be counted are handed out. -/
lemma receiveAll_numbered (h : Listens sender conn addr) (hreceived : Received count conn)
    (hack : sender.ack < netMaxSequence) (env : NetEnv Addr) {groups : List (List Piece)} {chunks : List CNetChunk}
    (hnumbered : groups.flatten = numbered count chunks) (hfits : ∀ p ∈ numbered count chunks, p.Fits sender.split)
    (hcount : ∀ group ∈ groups, group.length < 256)
    (hsize : ∀ group ∈ groups, (chunkBytes sender.split group).length ≤ maxPacked)
    {datagrams : List (List UInt8 × ℤ)} (hsent : datagrams.map Prod.fst = groups.map (chunkDatagram sender)) :
    conn.receiveAll env addr datagrams = chunks := by
  induction groups generalizing conn count chunks datagrams with
  | nil =>
    have hnil := congrArg List.length hnumbered
    rw [length_numbered] at hnil
    rw [List.map_eq_nil_iff.1 hsent, List.length_eq_zero_iff.1 hnil.symm]
    rfl
  | cons group groups ih =>
    obtain ⟨⟨datagram, now⟩, datagrams, rfl, hdatagram, hrest⟩ := List.map_eq_cons_iff.1 hsent
    rw [List.flatten_cons] at hnumbered
    obtain ⟨front, back, rfl, rfl, hback⟩ := numbered_split hnumbered
    rw [List.forall_mem_cons] at hcount hsize
    rw [numbered_append, List.forall_mem_append] at hfits
    obtain ⟨hfront, hlistens, hnext⟩ := receive_numbered h hreceived hack env hfits.1
      (length_numbered count front ▸ hcount.1) hsize.1 now
    obtain rfl : datagram = _ := hdatagram
    rw [CNetConnection.receiveAll, hfront, ih hlistens hnext hback hfits.2 hcount.2 hsize.2 hrest]

/-- No more chunks are handed out than the packets count. -/
lemma length_receiveAll_le (h : Listens sender conn addr) (hack : sender.ack < netMaxSequence) (env : NetEnv Addr)
    {groups : List (List Piece)} (hsize : ∀ group ∈ groups, (chunkBytes sender.split group).length ≤ maxPacked)
    {datagrams : List (List UInt8 × ℤ)} (hsent : datagrams.map Prod.fst = groups.map (chunkDatagram sender)) :
    (conn.receiveAll env addr datagrams).length ≤ (groups.map fun group => group.length % 256).sum := by
  induction groups generalizing conn datagrams with
  | nil =>
    rw [List.map_eq_nil_iff.1 hsent]
    exact Nat.zero_le _
  | cons group groups ih =>
    obtain ⟨⟨datagram, now⟩, datagrams, rfl, hdatagram, hrest⟩ := List.map_eq_cons_iff.1 hsent
    rw [List.forall_mem_cons] at hsize
    obtain rfl : datagram = _ := hdatagram
    obtain ⟨hlength, hlistens⟩ := receive_length h hack env hsize.1 now
    rw [CNetConnection.receiveAll, List.length_append, List.map_cons, List.sum_cons]
    exact Nat.add_le_add hlength (ih hlistens hsize.2 hrest)

end Receiving

/-! ### From one end to the other -/

section RoundTrip

variable {Addr : Type*} {sender receiver : CNetConnection Addr} {addr : Addr} {ops : List SendOp}

/-- Chunks of at least four bytes can always be counted. -/
lemma countable_of_le (hstate : sender.state = .online) (hconstruct : sender.construct = .zero)
    (hack : sender.sequence < netMaxSequence) (hfits : ∀ op ∈ ops, op.Fits sender.split)
    (hsize : ∀ chunk ∈ ops.flatMap SendOp.chunks, 4 ≤ chunk.data.length) : sender.Countable ops := by
  obtain ⟨groups, rest, hsends, hflatten, hcountable, -⟩ := foldl_sendStep_sends (building_zero hconstruct) hstate
    hfits (Nat.mod_eq_of_lt hack).symm
  rw [hcountable]
  intro group hgroup
  have hlarge : ∀ p ∈ group, 4 ≤ p.data.length := by
    intro p hp
    have hmem : p ∈ groups.flatten ++ rest := by
      rcases List.mem_append.1 hgroup with hold | hlast
      · exact List.mem_append_left _ (List.mem_flatten_of_mem hold hp)
      · exact List.mem_append_right _ (List.mem_singleton.1 hlast ▸ hp)
    rw [hflatten, List.nil_append] at hmem
    refine hsize p.chunk ?_
    rw [← map_chunk_numbered sender.sequence (ops.flatMap SendOp.chunks)]
    exact List.mem_map_of_mem hmem
  have hbytes : (chunkBytes sender.split group).length ≤ maxPacked := by
    rcases List.mem_append.1 hgroup with hold | hlast
    · exact hsends.small group hold
    · have hlast' := hsends.building.size
      rw [hsends.building.construct, CNetConnection.split_eq hsends.keys] at hlast'
      exact List.mem_singleton.1 hlast ▸ hlast'
  have hsix := six_mul_le sender.split hlarge
  rw [maxPacked, netMaxPayload, netMaxPacketsize, securityTokenSize] at hbytes
  omega

lemma sentBy_eq {conn : CNetConnection Addr} {groups : List (List Piece)} {rest : List Piece}
    (h : Sends conn (ops.foldl CNetConnection.sendStep conn) groups rest) :
    conn.sentBy ops = groups.map (chunkDatagram conn) := by
  have hlength : conn.socket.length = (conn.socket.map Prod.snd).length := (List.length_map _).symm
  rw [CNetConnection.sentBy, List.map_drop, h.socket, hlength, List.drop_left]

/-- What is sent up to the last `Flush`. -/
lemma sentBy_flush (hstate : sender.state = .online) (hconstruct : sender.construct = .zero) {count : ℕ}
    (hcount : sender.sequence = count % netMaxSequence) (hfits : ∀ op ∈ ops, op.Fits sender.split) (now : ℤ) :
    ∃ groups : List (List Piece), sender.sentBy (ops ++ [.flush now]) = groups.map (chunkDatagram sender) ∧
      groups.flatten = numbered count (ops.flatMap SendOp.chunks) ∧
      (sender.Countable ops ↔ ∀ group ∈ groups, group.length < 256) ∧
      ∀ group ∈ groups, (chunkBytes sender.split group).length ≤ maxPacked := by
  obtain ⟨groups, rest, hsends, hflatten, hcountable, -⟩ := foldl_sendStep_sends (building_zero hconstruct) hstate
    hfits hcount
  have hflush := hsends.trans (flush_sends hsends.building now)
  refine ⟨_, sentBy_eq (by rw [List.foldl_append]; exact hflush), ?_, ?_, hflush.small⟩
  · rw [← List.nil_append (numbered _ _), ← hflatten, List.flatten_append]
    split_ifs with hnil
    · rw [hnil]
      rfl
    · simp
  · rw [hcountable]
    split_ifs with hnil
    · rw [hnil, List.append_nil, List.forall_mem_append]
      exact ⟨And.left, fun hshort => ⟨hshort, by simp⟩⟩
    · rfl

/-- The receiver hands out what was queued, just if no packet has more chunks than its header can count.  The last
operation of the sender is `Flush`. -/
theorem receiveAll_iff [DecidableEq Addr] (env : NetEnv Addr) (h : InStep sender receiver addr)
    (hfits : ∀ op ∈ ops, op.Fits sender.split) {now : ℤ} {datagrams : List (List UInt8 × ℤ)}
    (hsent : datagrams.map Prod.fst = sender.sentBy (ops ++ [.flush now])) :
    receiver.receiveAll env addr datagrams = ops.flatMap SendOp.chunks ↔ sender.Countable ops := by
  have hlistens : Listens sender receiver addr := ⟨h.receiver_online, h.peerAddr, h.ackValid, h.token, h.keys⟩
  have hreceived : Received receiver.ack receiver := ⟨(Nat.mod_eq_of_lt h.ack).symm, h.unknownSeq⟩
  obtain ⟨groups, hgroups, hflatten, hcountable, hsize⟩ := sentBy_flush h.sender_online h.construct
    (h.sequence.trans hreceived.ack) hfits now
  rw [hgroups] at hsent
  have hchunks : ∀ chunk ∈ ops.flatMap SendOp.chunks, chunk.flags < 4 ∧
      chunk.data.length < 2 ^ (6 + sender.split) := by
    intro chunk hchunk
    obtain ⟨op, hop, hchunk⟩ := List.mem_flatMap.1 hchunk
    exact SendOp.chunks_fits (hfits op hop) hchunk
  rw [hcountable]
  constructor
  · intro hall
    by_contra hmore
    simp only [not_forall, not_lt] at hmore
    obtain ⟨group, hgroup, hlong⟩ := hmore
    -- the chunks that are not counted are missing
    have hlost : (groups.map fun group => group.length % 256).sum < (groups.map List.length).sum :=
      List.sum_lt_sum _ _ (fun group _ => Nat.mod_le _ _)
        ⟨group, hgroup, (Nat.mod_lt _ (by decide)).trans_le hlong⟩
    have hle := length_receiveAll_le hlistens h.sender_ack env hsize hsent
    rw [hall, ← length_numbered receiver.ack, ← hflatten, List.length_flatten] at hle
    omega
  · intro hcount
    exact receiveAll_numbered hlistens hreceived h.sender_ack env hflatten (numbered_fits hchunks) hcount hsize hsent

open CNetConnection

/-- Two chunks, of which the first is vital. -/
def sampleOps : List SendOp := [.queueChunk true [7] 0, .queueChunk false [8, 9] 0]

lemma inStep_unitOnline : InStep unitOnline unitOnline () where
  sender_online := rfl
  construct := rfl
  sender_ack := by decide
  receiver_online := rfl
  peerAddr := rfl
  sequence := rfl
  ack := by decide
  unknownSeq := rfl
  ackValid := rfl
  token := fun h => absurd h (by decide)
  keys := ⟨rfl, fun _ => ⟨rfl, (by decide : netSecurityTokenUnsupported ≠ netSecurityTokenUnknown)⟩⟩

theorem receiveAll_iff_sample :
    unitOnline.receiveAll unitEnv () ((unitOnline.sentBy (sampleOps ++ [.flush 0])).map fun datagram => (datagram, 0)) =
      sampleOps.flatMap SendOp.chunks :=
  (receiveAll_iff unitEnv inStep_unitOnline (by decide) (by rw [List.map_map]; exact List.map_id _)).2
    (by decide +kernel)

/-- There is room for 256 empty chunks in a packet. -/
example : ¬unitOnline.Countable (List.replicate 256 (.queueChunk false [] 0)) := by decide +kernel

end RoundTrip

end DDNet
