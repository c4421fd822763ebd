/-
What the operations of a connection leave alone: a packet without chunks has no data, and only `Update` finds out that
the peer has timed out.
-/
import DDNet.Shared.HandOver

namespace DDNet

open CNetPacketConstruct

namespace CNetConnection

variable {Addr : Type*} {conn conn' conn'' : CNetConnection Addr}

/-- The packet that is being built has no data without chunks. -/
def Packs (conn : CNetConnection Addr) : Prop :=
  conn.construct.numChunks = 0 → conn.construct.chunkData = []

/-- The packet is built in the right way, and the peer has not timed out meanwhile. -/
structure Calm (conn conn' : CNetConnection Addr) : Prop where
  packs : conn.Packs → conn'.Packs
  situation : conn'.timeoutSituation = true → conn.timeoutSituation = true

lemma Calm.refl (conn : CNetConnection Addr) : conn.Calm conn := ⟨id, id⟩

lemma Calm.trans (h : conn.Calm conn') (h' : conn'.Calm conn'') : conn.Calm conn'' :=
  ⟨h'.packs ∘ h.packs, h.situation ∘ h'.situation⟩

/-- Besides, it is the same connection in the same state. -/
structure Same (conn conn' : CNetConnection Addr) : Prop extends conn.Calm conn' where
  state : conn'.state = conn.state
  peerAddr : conn'.peerAddr = conn.peerAddr

lemma Same.refl (conn : CNetConnection Addr) : conn.Same conn := ⟨.refl conn, rfl, rfl⟩

lemma Same.trans (h : conn.Same conn') (h' : conn'.Same conn'') : conn.Same conn'' :=
  ⟨h.toCalm.trans h'.toCalm, h'.state.trans h.state, h'.peerAddr.trans h.peerAddr⟩

/-! ### Sending -/

lemma flush_same (conn : CNetConnection Addr) (now : ℤ) : conn.Same (conn.flush now).1 := by
  rw [flush]
  split_ifs
  · exact .refl conn
  · exact ⟨⟨fun _ _ => rfl, id⟩, rfl, rfl⟩

lemma makeRoom_same (conn : CNetConnection Addr) (size : ℕ) (now : ℤ) : conn.Same (conn.makeRoom size now) := by
  rw [makeRoom]
  split_ifs
  · exact flush_same conn now
  · exact .refl conn

lemma queueChunkEx_same (conn : CNetConnection Addr) (flags : ℕ) (data : List UInt8) (sequence : ℕ) (now : ℤ) :
    conn.Same (conn.queueChunkEx flags data sequence now).1 := by
  have hroom := makeRoom_same conn data.length now
  have hpacked : conn.Same ((conn.makeRoom data.length now).packChunk ⟨flags, data.length, sequence⟩ data) :=
    ⟨⟨fun _ hzero => absurd hzero (Nat.succ_ne_zero _), hroom.situation⟩, hroom.state, hroom.peerAddr⟩
  rw [queueChunkEx]
  split_ifs
  · exact .refl conn
  · exact ⟨⟨hpacked.packs, hpacked.situation⟩, hpacked.state, hpacked.peerAddr⟩
  · exact hpacked

lemma queueChunk_same (conn : CNetConnection Addr) (flags : ℕ) (data : List UInt8) (now : ℤ) :
    conn.Same (conn.queueChunk flags data now).1 := by
  have hnext : conn.Same { conn with sequence := (conn.sequence + 1) % netMaxSequence } := ⟨⟨id, id⟩, rfl, rfl⟩
  rw [queueChunk]
  split_ifs
  · exact hnext.trans (queueChunkEx_same _ flags data _ now)
  · exact queueChunkEx_same conn flags data _ now

lemma resend_same (conn : CNetConnection Addr) (now : ℤ) : conn.Same (conn.resend now) := by
  have hfold : ∀ (chunks : List CNetChunkResend) (sent : CNetConnection Addr), conn.Same sent →
      conn.Same (chunks.foldl (fun conn chunk => conn.resendChunk chunk now) sent) := by
    intro chunks
    induction chunks with
    | nil => exact fun sent h => h
    | cons chunk chunks ih => exact fun sent h => ih _ (h.trans (queueChunkEx_same sent _ _ _ now))
  have hsent := hfold conn.buffer.values conn (.refl conn)
  exact ⟨⟨hsent.packs, hsent.situation⟩, hsent.state, hsent.peerAddr⟩

/-! ### Receiving -/

lemma handleSequence_same (conn : CNetConnection Addr) (header : CNetChunkHeader) :
    conn.Same (CNetRecvUnpacker.handleSequence conn header).1 := by
  rw [CNetRecvUnpacker.handleSequence]
  split_ifs <;> exact ⟨⟨id, id⟩, rfl, rfl⟩

lemma fetchChunk_same (unpacker : CNetRecvUnpacker) (conn : CNetConnection Addr) :
    conn.Same (unpacker.fetchChunk conn).2.1 := by
  induction hn : unpacker.data.numChunks - unpacker.currentChunk using Nat.strong_induction_on
    generalizing unpacker conn with
  | _ n ih =>
    rw [CNetRecvUnpacker.fetchChunk]
    by_cases hdone : unpacker.valid = false ∨ unpacker.data.numChunks ≤ unpacker.currentChunk
    · rw [dif_pos hdone]
      exact .refl conn
    rw [dif_neg hdone]
    cases (CNetRecvUnpacker.skipChunks conn.split unpacker.currentChunk unpacker.data.chunkData).bind
      (CNetChunkHeader.unpack conn.split) with
    | none => exact .refl conn
    | some chunk =>
      obtain ⟨header, data⟩ := chunk
      dsimp only
      by_cases hsize : header.size > data.length
      · rw [if_pos hsize]
        exact .refl conn
      rw [if_neg hsize]
      have hfirst := handleSequence_same conn header
      rcases hresult : CNetRecvUnpacker.handleSequence conn header with ⟨next, _ | _⟩ <;> rw [hresult] at hfirst
      · have hlt : unpacker.data.numChunks - (unpacker.currentChunk + 1) < n := by
          have hmore := not_or.1 hdone
          omega
        exact hfirst.trans (ih _ hlt { unpacker with currentChunk := unpacker.currentChunk + 1 } next rfl)
      · exact hfirst

section Feed

variable [DecidableEq Addr] (env : NetEnv Addr)

lemma feedControl_calm (conn : CNetConnection Addr) (packet : CNetPacketConstruct) (addr : Addr)
    (responseToken : SecurityToken) (now : ℤ) :
    conn.Calm (conn.feedControl env packet addr responseToken now).1 := by
  have hreset : ∀ conn' : CNetConnection Addr, conn'.construct = .zero → conn'.timeoutSituation = false →
      conn.Calm conn' := fun conn' hzero hfalse =>
    ⟨fun _ _ => by rw [hzero]; rfl, fun htrue => absurd htrue (by rw [hfalse]; exact Bool.false_ne_true)⟩
  rw [feedControl]
  dsimp only
  by_cases hclose : packet.chunkData.getD 0 0 = netCtrlmsgClose
  · rw [if_pos hclose]
    dsimp only
    split_ifs <;> exact ⟨id, id⟩
  rw [if_neg hclose]
  by_cases htoken : packet.chunkData.getD 0 0 = netCtrlmsgToken
  · rw [if_pos htoken]
    dsimp only
    split_ifs <;> exact ⟨id, id⟩
  rw [if_neg htoken]
  cases conn.state with
  | offline =>
    dsimp only
    split_ifs
    · exact .refl conn
    · exact hreset _ rfl rfl
    · exact .refl conn
  | connect =>
    dsimp only
    split_ifs <;> exact ⟨id, id⟩
  | _ => exact .refl conn

omit [DecidableEq Addr] in
lemma feedAck_calm (conn : CNetConnection Addr) (ack : ℕ) (now : ℤ) : conn.Calm (conn.feedAck ack now) := by
  rw [feedAck]
  split_ifs
  · exact ⟨id, id⟩
  · exact .refl conn

lemma feedAccepted_calm (conn : CNetConnection Addr) (packet : CNetPacketConstruct) (addr : Addr)
    (responseToken : SecurityToken) (now : ℤ) :
    conn.Calm (conn.feedAccepted env packet addr responseToken now).1 := by
  have hpeer : conn.Calm { conn with peerAck := packet.ack } := ⟨id, id⟩
  have hresent : conn.Calm (if hasFlag packet.flags netPacketflagResend = true then
      ({ conn with peerAck := packet.ack } : CNetConnection Addr).resend now
      else { conn with peerAck := packet.ack }) := by
    split_ifs
    · exact hpeer.trans (resend_same _ now).toCalm
    · exact hpeer
  rw [feedAccepted]
  dsimp only
  revert hresent
  generalize (if hasFlag packet.flags netPacketflagResend = true then
    ({ conn with peerAck := packet.ack } : CNetConnection Addr).resend now
    else { conn with peerAck := packet.ack }) = resent
  intro hresent
  by_cases hcontrol : hasFlag packet.flags netPacketflagControl = true
  · rw [if_pos hcontrol]
    have hfed := hresent.trans (feedControl_calm env resent packet addr responseToken now)
    rcases hresult : resent.feedControl env packet addr responseToken now with ⟨fed, _ | _⟩ <;> rw [hresult] at hfed
    · exact hfed
    · exact hfed.trans (feedAck_calm fed packet.ack now)
  · have honline : resent.Calm { resent with lastRecvTime := now, state := .online } := ⟨id, id⟩
    rw [if_neg hcontrol]
    split_ifs
    · exact (hresent.trans honline).trans (feedAck_calm _ packet.ack now)
    · exact hresent.trans (feedAck_calm resent packet.ack now)

lemma feed_calm (conn : CNetConnection Addr) (packet : CNetPacketConstruct) (addr : Addr)
    (securityToken responseToken : SecurityToken) (now : ℤ) :
    conn.Calm (conn.feed env packet addr securityToken responseToken now).1 := by
  rw [feed]
  by_cases hother : (conn.state ≠ .offline && conn.state ≠ .connect && addr ≠ conn.peerAddr) = true
  · rw [if_pos hother]
    exact .refl conn
  rw [if_neg hother]
  rcases conn.stripToken packet with ⟨stripped, _ | _⟩
  · exact .refl conn
  · dsimp only
    split_ifs
    · exact .refl conn
    · exact .refl conn
    · exact feedAccepted_calm env conn stripped addr responseToken now

end Feed

/-! ### Updating -/

lemma updateSend_calm (conn : CNetConnection Addr) (now : ℤ) : conn.Calm (conn.updateSend now) := by
  have hflush : conn.Calm (if now - conn.lastSendTime > timeFreq / 2 then (conn.flush now).1 else conn) := by
    split_ifs
    · exact (flush_same conn now).toCalm
    · exact .refl conn
  rw [updateSend]
  revert hflush
  generalize (if now - conn.lastSendTime > timeFreq / 2 then (conn.flush now).1 else conn) = flushed
  intro hflush
  cases conn.state with
  | online =>
    dsimp only
    split_ifs
    · exact ⟨hflush.packs, hflush.situation⟩
    · exact hflush
  | connect =>
    dsimp only
    split_ifs <;> exact ⟨id, id⟩
  | pending =>
    dsimp only
    split_ifs <;> exact ⟨id, id⟩
  | _ => exact .refl conn

/-- What `Update` does to a connection that is neither offline nor in error: if the peer has timed out, then the
connection is in error. -/
structure Updated (conn conn' : CNetConnection Addr) : Prop where
  packs : conn.Packs → conn'.Packs
  situation : conn'.timeoutSituation = true → conn'.state = .error

lemma updateResend_updated {conn : CNetConnection Addr} (h : conn.timeoutSituation = true → conn.state = .error)
    (env : NetEnv Addr) (now : ℤ) : conn.Updated (conn.updateResend env now) := by
  rw [updateResend]
  cases conn.buffer.first.bind fun i => (conn.buffer.item i).value with
  | none => exact ⟨id, h⟩
  | some chunk =>
    dsimp only
    split_ifs
    · exact ⟨id, fun _ => rfl⟩
    · have hsent : conn.Same (conn.resendChunk chunk now) := queueChunkEx_same conn _ _ _ now
      exact ⟨hsent.packs, fun htrue => hsent.state.trans (h (hsent.situation htrue))⟩
    · exact ⟨id, h⟩

/-- `Update` leaves a connection as it is that is offline, or in error. -/
lemma update_of_closed {conn : CNetConnection Addr} (h : conn.state = .offline ∨ conn.state = .error)
    (env : NetEnv Addr) (now : ℤ) :
    conn.Calm (conn.update env now) ∧ (conn.update env now).state = conn.state ∧
      (conn.update env now).peerAddr = conn.peerAddr := by
  have hclosed : (decide (conn.state = .offline) || decide (conn.state = .error)) = true := by
    simpa using h
  rw [update]
  dsimp only
  split_ifs with htimeout
  · exact ⟨⟨id, fun hfalse => absurd hfalse Bool.false_ne_true⟩, rfl, rfl⟩
  · exact ⟨.refl conn, rfl, rfl⟩

/-- `Update` of a connection that is open. -/
lemma update_updated {conn : CNetConnection Addr} (hoffline : conn.state ≠ .offline) (herror : conn.state ≠ .error)
    (env : NetEnv Addr) (now : ℤ) : conn.Updated (conn.update env now) := by
  have hsend : ∀ conn' : CNetConnection Addr, conn'.construct = conn.construct →
      (conn'.timeoutSituation = true → conn'.state = .error) →
      conn.Updated ((conn'.updateResend env now).updateSend now) := by
    intro conn' hconstruct hsituation
    have hresent := updateResend_updated hsituation env now
    have hcalm := updateSend_calm (conn'.updateResend env now) now
    refine ⟨fun hpacks => hcalm.packs (hresent.packs ?_), fun htrue => ?_⟩
    · rw [Packs, hconstruct]
      exact hpacks
    · have hstate := hresent.situation (hcalm.situation htrue)
      rw [updateSend, hstate]
      exact hstate
  rw [update]
  simp only [herror, decide_false, Bool.false_and, Bool.false_eq_true, if_false, Bool.or_false, hoffline]
  split_ifs
  · exact hsend _ rfl fun _ => rfl
  · exact hsend _ rfl fun hfalse => absurd hfalse Bool.false_ne_true

end CNetConnection

end DDNet
