/-
The chunks of a packet, and how `FetchChunk` takes them out again.

The sequence numbers of vital chunks wrap around.  Here a chunk carries the number of the vital chunk, which does not,
and the receiver is right about the chunks whose numbers are less than a round away from the one that it waits for.
-/
import DDNet.Shared.Connection

namespace DDNet

open CNetPacketConstruct

/-! ### Chunks -/

/-- A chunk as it is packed; vital chunks are numbered from 1 on. -/
structure Piece where
  flags : ℕ
  data : List UInt8
  number : ℕ

namespace Piece

def isVital (p : Piece) : Bool := CNetChunkHeader.isVital p.flags

def header (p : Piece) : CNetChunkHeader := ⟨p.flags, p.data.length, (p.number % netMaxSequence : ℕ)⟩

def bytes (split : ℕ) (p : Piece) : List UInt8 := p.header.pack split ++ p.data

/-- The size of the chunk fits the header. -/
structure Fits (split : ℕ) (p : Piece) : Prop where
  flags : p.flags < 4
  size : p.data.length < 2 ^ (6 + split)

variable {split : ℕ} {p : Piece}

lemma Fits.header (h : p.Fits split) : p.header.Fits split where
  flags := h.flags
  size := h.size
  sequence _ := ⟨Int.natCast_nonneg _, Int.ofNat_lt.2 (Nat.mod_lt _ (by decide))⟩

lemma length_bytes_le (split : ℕ) (p : Piece) : (p.bytes split).length ≤ p.data.length + netMaxChunkheadersize := by
  have hle := p.header.length_pack_le split
  rw [bytes, List.length_append]
  omega

/-- A vital chunk has a header of three bytes. -/
lemma three_le_length_bytes (split : ℕ) (h : p.isVital = true) : 3 ≤ (p.bytes split).length := by
  rw [bytes, CNetChunkHeader.pack, if_pos (show CNetChunkHeader.isVital p.header.flags = true from h)]
  simp

end Piece

/-- The data of a packet with the chunks. -/
def chunkBytes (split : ℕ) (pieces : List Piece) : List UInt8 := pieces.flatMap (Piece.bytes split)

section ChunkBytes

variable {split : ℕ} {p : Piece} {pieces : List Piece}

lemma chunkBytes_append (pieces more : List Piece) :
    chunkBytes split (pieces ++ more) = chunkBytes split pieces ++ chunkBytes split more :=
  List.flatMap_append

/-- A header is read back. -/
lemma unpack_chunkBytes (hsplit : split ≤ 6) (hp : p.Fits split) (pieces : List Piece) :
    CNetChunkHeader.unpack split (chunkBytes split (p :: pieces)) =
      some (p.header.visible, p.data ++ chunkBytes split pieces) := by
  rw [chunkBytes, List.flatMap_cons, Piece.bytes, List.append_assoc]
  exact CNetChunkHeader.unpack_pack hp.header hsplit _

lemma skipChunks_chunkBytes (hsplit : split ≤ 6) (hpieces : ∀ p ∈ pieces, p.Fits split) {k : ℕ}
    (hk : k ≤ pieces.length) :
    CNetRecvUnpacker.skipChunks split k (chunkBytes split pieces) = some (chunkBytes split (pieces.drop k)) := by
  induction k generalizing pieces with
  | zero => rfl
  | succ k ih =>
    cases pieces with
    | nil => cases hk
    | cons p pieces =>
      have hsize : p.header.visible.size = p.data.length := rfl
      rw [CNetRecvUnpacker.skipChunks, unpack_chunkBytes hsplit (hpieces p List.mem_cons_self)]
      dsimp only
      rw [hsize, List.drop_left]
      exact ih (fun q hq => hpieces q (List.mem_cons_of_mem _ hq)) (Nat.le_of_succ_le_succ hk)

end ChunkBytes

/-! ### What the receiver makes of a chunk -/

section Receive

variable {Addr : Type*} {conn : CNetConnection Addr} {received : ℕ} {p : Piece}

/-- The receiver has handed out so many vital chunks. -/
structure Received (received : ℕ) (conn : CNetConnection Addr) : Prop where
  ack : conn.ack = received % netMaxSequence
  unknownSeq : conn.unknownSeq = false

/-- A vital chunk is less than a round away from the one that the receiver waits for. -/
def Piece.Near (received : ℕ) (p : Piece) : Prop :=
  p.isVital = true → received + 1 < p.number + netMaxSequence ∧ p.number < received + 1 + netMaxSequence

/-- What the receiver changes: its ack and the resend request. -/
structure Handled (received : ℕ) (conn conn' : CNetConnection Addr) : Prop where
  received : Received received conn'
  same : ∃ flags : UInt8, (flags = conn.construct.flags ∨ flags = conn.construct.flags ||| netPacketflagResend) ∧
    conn' = { conn with
      ack := conn'.ack
      unknownSeq := conn'.unknownSeq
      construct := { conn.construct with flags := flags } }

lemma Handled.refl (h : Received received conn) : Handled received conn conn :=
  ⟨h, conn.construct.flags, .inl rfl, rfl⟩

lemma Handled.split {conn' : CNetConnection Addr} (h : Handled received conn conn') : conn'.split = conn.split := by
  obtain ⟨flags, -, hsame⟩ := h.same
  rw [hsame]
  rfl

lemma Handled.trans {conn' conn'' : CNetConnection Addr} {received' : ℕ} (h : Handled received conn conn')
    (h' : Handled received' conn' conn'') : Handled received' conn conn'' := by
  obtain ⟨flags, hflags, hsame⟩ := h.same
  obtain ⟨flags', hflags', hsame'⟩ := h'.same
  have hconstruct : conn'.construct = { conn.construct with flags := flags } := by rw [hsame]
  refine ⟨h'.received, flags', ?_, ?_⟩
  · rw [hconstruct] at hflags'
    rcases hflags with rfl | rfl <;> rcases hflags' with rfl | rfl
    · exact .inl rfl
    · exact .inr rfl
    · exact .inr rfl
    · right
      dsimp only
      rw [UInt8.or_assoc, UInt8.or_self]
  · rw [hsame', hsame]

open CNetRecvUnpacker (handleSequence)

/-- A chunk is handed out if it is not vital or the one that the receiver waits for. -/
lemma handleSequence_piece (h : Received received conn) (hnear : p.Near received) :
    (p.isVital = false ∧ handleSequence conn p.header.visible = (conn, true)) ∨
    (p.isVital = true ∧ p.number = received + 1 ∧
      ∃ conn', handleSequence conn p.header.visible = (conn', true) ∧ Handled (received + 1) conn conn') ∨
    (p.isVital = true ∧ ∃ conn', handleSequence conn p.header.visible = (conn', false) ∧
      Handled received conn conn') := by
  have hflags : p.header.visible.flags = p.flags := rfl
  rw [handleSequence, hflags]
  cases hvital : p.isVital with
  | false =>
    rw [Piece.isVital] at hvital
    exact .inl ⟨rfl, by rw [if_neg (by rw [hvital]; exact Bool.false_ne_true)]⟩
  | true =>
    obtain ⟨hold, hnew⟩ := hnear hvital
    have hsequence : p.header.visible.sequence = (p.number % netMaxSequence : ℕ) := by
      rw [CNetChunkHeader.visible, if_pos (show CNetChunkHeader.isVital p.header.flags = true from hvital)]
      rfl
    rw [Piece.isVital] at hvital
    rw [if_pos hvital, hsequence, h.unknownSeq, h.ack]
    have hmax : netMaxSequence = 1024 := rfl
    rw [hmax] at hold hnew ⊢
    by_cases hnext : p.number = received + 1
    · right
      left
      refine ⟨rfl, hnext, _, if_pos ?_, ⟨?_, rfl⟩, conn.construct.flags, .inl rfl, rfl⟩
      · rw [Bool.or_false, decide_eq_true_eq, hnext, Nat.mod_add_mod]
      · rw [hnext]
        rfl
    · right
      right
      refine ⟨rfl, ?_⟩
      rw [if_neg]
      · split_ifs
        · exact ⟨conn, rfl, .refl h⟩
        · exact ⟨_, rfl, ⟨h.ack, h.unknownSeq⟩, _, .inr rfl, rfl⟩
      · rw [Bool.or_false, decide_eq_true_eq]
        omega

end Receive

/-! ### FetchChunk -/

section Fetch

variable {Addr : Type*} {received : ℕ} {pieces : List Piece}

/-- The unpacker is at a packet with the chunks. -/
structure Holding (split : ℕ) (pieces : List Piece) (unpacker : CNetRecvUnpacker) : Prop where
  data : 0 < unpacker.data.numChunks → unpacker.data.chunkData = chunkBytes split pieces
  numChunks : unpacker.data.numChunks ≤ pieces.length
  fits : ∀ p ∈ pieces, p.Fits split

/-- `FetchChunk` reads the chunk at its place. -/
lemma fetchChunk_at {split : ℕ} (hsplit : split ≤ 6) {unpacker : CNetRecvUnpacker} {conn : CNetConnection Addr}
    {p : Piece} (hholding : Holding split pieces unpacker) (hvalid : unpacker.valid = true)
    (hlt : unpacker.currentChunk < unpacker.data.numChunks) (hsame : conn.split = split)
    (hp : pieces[unpacker.currentChunk]? = some p) :
    unpacker.fetchChunk conn = match CNetRecvUnpacker.handleSequence conn p.header.visible with
      | (conn, true) =>
          ({ unpacker with currentChunk := unpacker.currentChunk + 1 }, conn, some ⟨p.flags, p.data⟩)
      | (conn, false) =>
          CNetRecvUnpacker.fetchChunk { unpacker with currentChunk := unpacker.currentChunk + 1 } conn := by
  obtain ⟨hbound, rfl⟩ := List.getElem?_eq_some_iff.1 hp
  have hheader : (CNetRecvUnpacker.skipChunks conn.split unpacker.currentChunk unpacker.data.chunkData).bind
      (CNetChunkHeader.unpack conn.split) = some (pieces[unpacker.currentChunk].header.visible,
        pieces[unpacker.currentChunk].data ++ chunkBytes split (pieces.drop (unpacker.currentChunk + 1))) := by
    rw [hsame, hholding.data (by omega), skipChunks_chunkBytes hsplit hholding.fits hbound.le,
      List.drop_eq_getElem_cons hbound]
    exact unpack_chunkBytes hsplit (hholding.fits _ (List.getElem_mem hbound)) _
  have hsize : pieces[unpacker.currentChunk].header.visible.size = pieces[unpacker.currentChunk].data.length := rfl
  rw [CNetRecvUnpacker.fetchChunk, dif_neg (not_or.2 ⟨Bool.not_eq_false _ ▸ hvalid, by omega⟩), hheader]
  dsimp only
  rw [if_neg (by rw [hsize, List.length_append]; omega), hsize, List.take_left]
  rfl

/-- What `FetchChunk` does with chunks that are near: it hands out one that is not vital or the vital one that the
receiver waits for, or it is through with the packet. -/
lemma fetchChunk_spec {split : ℕ} (hsplit : split ≤ 6) (hnear : ∀ p ∈ pieces, p.Near received) (n : ℕ) :
    ∀ (unpacker : CNetRecvUnpacker) (conn : CNetConnection Addr), unpacker.data.numChunks - unpacker.currentChunk = n →
      Holding split pieces unpacker → Received received conn → conn.split = split →
      ∃ unpacker' conn', (unpacker'.valid = true → unpacker'.data = unpacker.data) ∧
        ((unpacker.fetchChunk conn = (unpacker', conn', none) ∧ unpacker'.valid = false ∧
            Handled received conn conn') ∨
          ∃ p ∈ pieces, unpacker.fetchChunk conn = (unpacker', conn', some ⟨p.flags, p.data⟩) ∧
            ((p.isVital = false ∧ Handled received conn conn') ∨
              (p.isVital = true ∧ p.number = received + 1 ∧ Handled (received + 1) conn conn'))) := by
  induction n with
  | zero =>
    intro unpacker conn hn _ hconn _
    rw [CNetRecvUnpacker.fetchChunk, dif_pos (.inr (by omega))]
    exact ⟨_, _, fun h => (Bool.false_ne_true h).elim, .inl ⟨rfl, rfl, .refl hconn⟩⟩
  | succ n ih =>
    intro unpacker conn hn hholding hconn hsame
    by_cases hvalid : unpacker.valid = false
    · rw [CNetRecvUnpacker.fetchChunk, dif_pos (.inl hvalid)]
      exact ⟨_, _, fun h => (Bool.false_ne_true h).elim, .inl ⟨rfl, rfl, .refl hconn⟩⟩
    rw [Bool.not_eq_false] at hvalid
    have hlt : unpacker.currentChunk < pieces.length := by
      have hle := hholding.numChunks
      omega
    have hmem : pieces[unpacker.currentChunk] ∈ pieces := List.getElem_mem hlt
    rw [fetchChunk_at hsplit hholding hvalid (by omega) hsame (List.getElem?_eq_getElem hlt)]
    rcases handleSequence_piece hconn (hnear _ hmem) with
      ⟨hvital, hhandle⟩ | ⟨hvital, hnumber, conn', hhandle, hconn'⟩ | ⟨hvital, conn', hhandle, hconn'⟩
    · rw [hhandle]
      exact ⟨{ unpacker with currentChunk := unpacker.currentChunk + 1 }, conn, fun _ => rfl,
        .inr ⟨_, hmem, rfl, .inl ⟨hvital, .refl hconn⟩⟩⟩
    · rw [hhandle]
      exact ⟨{ unpacker with currentChunk := unpacker.currentChunk + 1 }, conn', fun _ => rfl,
        .inr ⟨_, hmem, rfl, .inr ⟨hvital, hnumber, hconn'⟩⟩⟩
    · rw [hhandle]
      dsimp only
      obtain ⟨unpacker'', conn'', hdata, hcases⟩ :=
        ih { unpacker with currentChunk := unpacker.currentChunk + 1 } conn' (by dsimp only; omega)
          ⟨hholding.data, hholding.numChunks, hholding.fits⟩ hconn'.received (hconn'.split.trans hsame)
      refine ⟨unpacker'', conn'', hdata, hcases.imp (fun ⟨hfetch, hdone, hnone⟩ => ⟨hfetch, hdone, hconn'.trans hnone⟩)
        fun ⟨q, hq, hfetch, hnext⟩ => ⟨q, hq, hfetch, hnext.imp (fun ⟨hplain, hsame'⟩ => ⟨hplain, hconn'.trans hsame'⟩)
          fun ⟨hvital', hnumber, hsame'⟩ => ⟨hvital', hnumber, hconn'.trans hsame'⟩⟩⟩

end Fetch

/-! ### On the wire -/

section Wire

open CNetBase CHuffman

/-- The form in which a connection sends. -/
def wireForm (securityToken : SecurityToken) (sixup : Bool) : WireForm :=
  if sixup then .sixup securityToken
  else if h : securityToken = netSecurityTokenUnsupported then .plain else .withToken securityToken h

lemma wireForm_securityToken (securityToken : SecurityToken) (sixup : Bool) :
    (wireForm securityToken sixup).securityToken = securityToken := by
  rw [wireForm]
  split_ifs with _ h
  · rfl
  · exact h.symm
  · rfl

lemma wireForm_isSixup (securityToken : SecurityToken) (sixup : Bool) :
    (wireForm securityToken sixup).isSixup = sixup := by
  rw [wireForm]
  split_ifs with h
  · exact h.symm
  · exact (Bool.eq_false_iff.2 h).symm
  · exact (Bool.eq_false_iff.2 h).symm

/-- Room for the payload in every form. -/
lemma le_room (securityToken : SecurityToken) (sixup : Bool) :
    netMaxPayload - securityTokenSize ≤ (wireForm securityToken sixup).room := by
  rw [wireForm]
  split_ifs
  · exact (by decide : netMaxPayload - securityTokenSize ≤ netMaxPacketsize - netPacketheadersize - securityTokenSize)
  · exact Nat.sub_le _ _
  · exact le_rfl

/-- The number of chunks travels in one byte. -/
lemma packetHeader_mod (flags : UInt8) (ack numChunks : ℕ) :
    packetHeader flags ack numChunks = packetHeader flags ack (numChunks % 256) := by
  have hbyte : UInt8.ofNat numChunks = UInt8.ofNat (numChunks % 256) := by
    rw [← UInt8.toNat_inj, UInt8.toNat_ofNat', UInt8.toNat_ofNat']
    omega
  rw [packetHeader, packetHeader, hbyte]

/-- A datagram is unpacked to the packet, apart from the chunks that the byte does not count. -/
lemma unpackPacket_sent (form : WireForm) {packet : CNetPacketConstruct} {control resend : Bool}
    (hflags : packet.flags = packetFlags control resend) (hack : packet.ack < netMaxSequence)
    (hsize : packet.dataSize ≤ form.room) :
    ∃ result : Unpacked, ∃ compression : Bool,
      unpackPacket (sendPacket packet form.securityToken form.isSixup control) form.isSixup true true = some result ∧
      result.packet = ⟨packetFlags control resend ||| if compression then netPacketflagCompression else 0, packet.ack,
        packet.numChunks % 256, form.received packet.chunkData, []⟩ ∧
      (form.isSixup = true → result.securityToken = some form.securityToken) := by
  have heq := sendPacket_eq form hflags control
  obtain ⟨hlen, huncompressed, hcompressed⟩ :=
    packBody_spec (form.received packet.chunkData) form.headerSize_lt control
  have hfits := form.length_received hsize
  rcases hbody : packBody (form.received packet.chunkData) form.headerSize control with ⟨compression, body⟩
  rw [hbody] at heq hlen huncompressed hcompressed
  dsimp only at heq hlen huncompressed hcompressed
  rw [packetHeader_mod] at heq
  obtain ⟨hbyte, hackread, hnumread⟩ := packetHeader_read form.isSixup control resend compression hack
    (Nat.mod_lt packet.numChunks (by decide : 0 < 256)) (form.tokenHeader ++ body)
  rw [heq]
  set buffer := packetHeader (wireFlags form.isSixup control resend compression) packet.ack
    (packet.numChunks % 256) ++ (form.tokenHeader ++ body)
  have hheader : (if form.isSixup then 7 else netPacketheadersize) = form.headerSize := by
    cases form <;> rfl
  have hlength : buffer.length = form.headerSize + body.length := by
    rw [List.length_append, List.length_append, ← Nat.add_assoc]
    rfl
  have hdrop : buffer.drop (if form.isSixup then 7 else netPacketheadersize) = body := by
    cases form <;> rfl
  -- a packet is only compressed if it is no control packet
  have hpayload : (if compression then if control then none else decompress msHuffman body netMaxPayload
      else some body) = some (form.received packet.chunkData) := by
    cases compression with
    | false => rw [if_neg Bool.false_ne_true, huncompressed rfl]
    | true =>
      obtain ⟨hno, hdec⟩ := hcompressed rfl
      rw [if_pos rfl, hno, if_neg Bool.false_ne_true]
      exact hdec netMaxPayload (form.length_received_le hsize)
  have hstart : (if form.isSixup then 7 else netPacketheadersize) ≤ buffer.length := by
    omega
  have hunpack : unpackPacket buffer form.isSixup true true = some
      { packet := ⟨packetFlags control resend ||| if compression then netPacketflagCompression else 0,
          packet.ack, packet.numChunks % 256, form.received packet.chunkData, []⟩
        sixup := form.isSixup
        securityToken := if form.isSixup then some (toSecurityToken (buffer.drop 3)) else none
        responseToken := responseTokenOf
          (packetFlags control resend ||| if compression then netPacketflagCompression else 0)
          (form.received packet.chunkData) } := by
    have hshort : (decide (buffer.length < netPacketheadersize) || decide (buffer.length > netMaxPacketsize)) =
        false := by
      have hthree : netPacketheadersize ≤ form.headerSize := Nat.le_add_right _ _
      simp only [Bool.or_eq_false_iff, decide_eq_false_iff_not]
      omega
    have hvariant : (form.isSixup || (form.isSixup && control)) = form.isSixup := by
      cases form <;> rfl
    rw [unpackPacket, hshort, if_neg Bool.false_ne_true, hbyte, wireFlags_not_connless, if_neg Bool.false_ne_true,
      unpackConn]
    simp only [hbyte, wireFlags_unused, hvariant, Bool.not_true, Bool.and_false, Bool.false_eq_true, if_false,
      if_neg (not_lt.2 hstart), hackread, hnumread, wireFlags_read, hasFlag_compression, hasFlag_control, hdrop,
      hpayload, Option.map_some]
  refine ⟨_, compression, hunpack, rfl, fun hsixup => ?_⟩
  dsimp only
  rw [if_pos hsixup]
  cases form with
  | plain => cases hsixup
  | withToken token h => cases hsixup
  | sixup token => exact congrArg some (toSecurityToken_write token body)

end Wire

end DDNet
