/-
What `Send` checks against what the packet holds.

`Send` accepts every chunk that is shorter than `NET_MAX_PAYLOAD`.  The header of a chunk of 0.6 has ten bits for the size,
so that only chunks below 1024 bytes arrive with their size.  A chunk of 0.7 keeps its size, but together with its header
and the longer header of the packet it may be longer than a packet; it fits if `QueueChunkEx` and `SendPacket` write not
more than the two buffers have room for (`CNetConnection.queueChunk_carries_iff`).
-/
import DDNet.Server.NetServerSteps

namespace DDNet

open CNetPacketConstruct CNetBase

namespace CNetConnection

variable {Addr : Type*} {conn : CNetConnection Addr}

/-! ### One chunk -/

/-- The flags of a chunk that is queued by `Send`. -/
def sendFlags (vital : Bool) : ℕ := if vital then netChunkflagVital else 0

/-- `QueueChunk` counts the vital chunks. -/
def nextSequence (conn : CNetConnection Addr) (vital : Bool) : ℕ :=
  if vital then (conn.sequence + 1) % netMaxSequence else conn.sequence

/-- The header that `QueueChunk` packs, and the data. -/
def chunkBytes (conn : CNetConnection Addr) (vital : Bool) (data : List UInt8) : List UInt8 :=
  CNetChunkHeader.pack ⟨sendFlags vital, data.length, conn.nextSequence vital⟩ conn.split ++ data

/-- What `SendPacket` appends to `m_aChunkData`. -/
def appendedToken (conn : CNetConnection Addr) : List UInt8 :=
  if !conn.sixup && conn.securityToken ≠ netSecurityTokenUnsupported then writeSecurityToken conn.securityToken else []

/-- The datagram that `Flush` sends. -/
def datagram (conn : CNetConnection Addr) : List UInt8 :=
  sendPacket { conn.construct with ack := conn.ack } conn.securityToken conn.sixup false

/-- The packet in which a chunk is queued holds the chunk, with its size and all its bytes, and neither `m_aChunkData`
nor the buffer of `SendPacket` is written past its end. -/
structure Carries (conn : CNetConnection Addr) (data : List UInt8) : Prop where
  chunk : ∃ before chunk header, conn.construct.chunkData = before ++ chunk ∧
    CNetChunkHeader.unpack conn.split chunk = some (header, data) ∧ header.size = data.length
  chunkData : (conn.construct.chunkData ++ conn.appendedToken).length ≤ netMaxPayload
  packet : ∀ now, ∃ packet, (conn.flush now).1.socket = conn.socket ++ [(conn.peerAddr, packet)] ∧
    packet.length ≤ netMaxPacketsize

/-- A chunk is read back if its size fits the header. -/
lemma unpack_chunkBytes (vital : Bool) {data : List UInt8} (h : data.length < 2 ^ (6 + conn.split)) :
    ∃ header, CNetChunkHeader.unpack conn.split (conn.chunkBytes vital data) = some (header, data) ∧
      header.size = data.length := by
  have hsplit : conn.split ≤ 6 := by
    rw [split]
    split_ifs <;> omega
  refine ⟨_, CNetChunkHeader.unpack_pack ⟨?_, h, fun hvital => ⟨Int.natCast_nonneg _, ?_⟩⟩ hsplit data, rfl⟩
  · cases vital <;> exact Nat.lt_of_sub_eq_succ rfl
  · cases vital with
    | false => exact absurd hvital (show ¬ CNetChunkHeader.isVital 0 = true by decide)
    | true => exact Int.ofNat_lt.2 (Nat.mod_lt _ (by decide))

/-! ### The packet of the chunk -/

lemma update_packs (env : NetEnv Addr) (h : conn.Packs) (now : ℤ) : (conn.update env now).Packs := by
  by_cases hclosed : conn.state = .offline ∨ conn.state = .error
  · exact (update_of_closed hclosed env now).1.packs h
  · obtain ⟨hoffline, herror⟩ := not_or.1 hclosed
    exact (update_updated hoffline herror env now).packs h

lemma packs_of_zero (h : conn.construct = .zero) : conn.Packs := fun _ => by rw [h]; rfl

end CNetConnection

lemma CSlot.disconnect_packs {slot : CSlot} (h : slot.connection.Packs) (reason : Option (List UInt8)) (now : ℤ) :
    (slot.disconnect reason now).connection.Packs := by
  rw [CSlot.disconnect]
  split_ifs
  · exact h
  · exact CNetConnection.packs_of_zero rfl
  · exact CNetConnection.packs_of_zero rfl

lemma CSlot.SlotStep.packs {slot slot' : CSlot} (h : slot.SlotStep slot') (hpacks : slot.connection.Packs) :
    slot'.connection.Packs := by
  cases h with
  | rejoin => exact CNetConnection.packs_of_zero rfl
  | feed config packet securityToken responseToken now hlive =>
    exact (CNetConnection.feed_calm config.netEnv slot.connection packet _ securityToken responseToken now).packs hpacks
  | fetchChunk unpacker => exact (CNetConnection.fetchChunk_same unpacker slot.connection).packs hpacks
  | update config errorString now =>
    have hupdate := CNetConnection.update_packs config.netEnv hpacks now
    rw [CSlot.update]
    dsimp only
    split_ifs
    · exact CSlot.disconnect_packs hupdate _ _
    · exact hupdate
  | disconnect reason now => exact CSlot.disconnect_packs hpacks reason now
  | queueChunk flags data now => exact (CNetConnection.queueChunk_same slot.connection flags data now).packs hpacks
  | flush now => exact (CNetConnection.flush_same slot.connection now).packs hpacks
  | protect => exact hpacks

namespace CNetServer

variable {n : ℕ} {server server' : CNetServer n}

/-- No packet has data without chunks. -/
def Packs (server : CNetServer n) : Prop := ∀ i, (server.slots i).connection.Packs

lemma DatagramStep.packs (h : server.DatagramStep server') (hpacks : server.Packs) : server'.Packs := by
  obtain hevolve | ⟨addr, haccepted⟩ := h
  · exact fun i => (hevolve.slots i).keeps (p := fun slot => slot.connection.Packs)
      (fun _ _ hstep hslot => hstep.packs hslot) (hpacks i)
  · obtain ⟨j, securityToken, vanillaAuth, sixup, token, now, -, hslots⟩ := haccepted.slot
    intro i
    rw [hslots]
    by_cases hij : i = j
    · subst hij
      rw [Function.update_self, acceptSlot]
      cases vanillaAuth <;> exact CNetConnection.packs_of_zero rfl
    · rw [Function.update_of_ne hij]
      exact hpacks i

end CNetServer

end DDNet
