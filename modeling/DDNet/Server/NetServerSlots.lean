/-
The peers of the slots of the server: what an operation does to them, and when no address has two slots.
-/
import DDNet.Server.NetServer

namespace DDNet

open Lib CNetPacketConstruct CNetBase

/-! ### The peer of a connection -/

namespace CNetConnection

variable {Addr : Type*}

/-- The peer is the same, and the state is the same or it is `NET_CONNSTATE_ERROR`. -/
def KeepsPeer (conn conn' : CNetConnection Addr) : Prop :=
  conn'.peerAddr = conn.peerAddr ∧ (conn'.state = conn.state ∨ conn'.state = .error)

lemma KeepsPeer.refl (conn : CNetConnection Addr) : KeepsPeer conn conn := ⟨rfl, .inl rfl⟩

lemma KeepsPeer.trans {conn conn' conn'' : CNetConnection Addr} (h : KeepsPeer conn conn')
    (h' : KeepsPeer conn' conn'') : KeepsPeer conn conn'' := by
  refine ⟨h'.1.trans h.1, ?_⟩
  rcases h'.2 with hstate | hstate
  · rcases h.2 with hstate' | hstate'
    · exact .inl (hstate.trans hstate')
    · exact .inr (hstate.trans hstate')
  · exact .inr hstate

lemma KeepsPeer.of_view {conn conn' : CNetConnection Addr} (h : conn'.view = conn.view) : KeepsPeer conn conn' :=
  ⟨congrArg ConnView.peerAddr h, .inl (congrArg ConnView.state h)⟩

lemma queueChunkEx_keepsPeer (conn : CNetConnection Addr) (flags : ℕ) (data : List UInt8) (sequence : ℕ)
    (now : ℤ) : KeepsPeer conn (conn.queueChunkEx flags data sequence now).1 := by
  have hroom : KeepsPeer conn (conn.makeRoom data.length now) := .of_view (makeRoom_view conn data.length now)
  rw [queueChunkEx]
  split_ifs
  · exact .refl conn
  · exact hroom
  · exact hroom

lemma queueChunk_keepsPeer (conn : CNetConnection Addr) (flags : ℕ) (data : List UInt8) (now : ℤ) :
    KeepsPeer conn (conn.queueChunk flags data now).1 := by
  rw [queueChunk]
  split_ifs
  · exact queueChunkEx_keepsPeer { conn with sequence := (conn.sequence + 1) % netMaxSequence } flags data _ now
  · exact queueChunkEx_keepsPeer conn flags data _ now

lemma resend_keepsPeer (conn : CNetConnection Addr) (now : ℤ) : KeepsPeer conn (conn.resend now) := by
  have hsent := KeepsPeer.of_view (foldl_resendChunk_view conn.buffer.values conn now)
  exact ⟨hsent.1, hsent.2⟩

lemma updateResend_keepsPeer (conn : CNetConnection Addr) (env : NetEnv Addr) (now : ℤ) :
    KeepsPeer conn (conn.updateResend env now) := by
  rw [updateResend]
  cases conn.buffer.first.bind fun i => (conn.buffer.item i).value with
  | none => exact .refl conn
  | some chunk =>
    dsimp only
    split_ifs
    · exact ⟨rfl, .inr rfl⟩
    · have hsent := KeepsPeer.of_view (resendChunk_view conn chunk now)
      exact ⟨hsent.1, hsent.2⟩
    · exact .refl conn

lemma updateSend_keepsPeer (conn : CNetConnection Addr) (now : ℤ) : KeepsPeer conn (conn.updateSend now) := by
  have hflush : KeepsPeer conn (if now - conn.lastSendTime > timeFreq / 2 then (conn.flush now).1 else conn) := by
    split_ifs
    · exact .of_view (flush_view conn now)
    · exact .refl conn
  rw [updateSend]
  revert hflush
  generalize (if now - conn.lastSendTime > timeFreq / 2 then (conn.flush now).1 else conn) = flushed
  intro hflush
  cases conn.state with
  | online =>
    dsimp only
    split_ifs <;> exact hflush
  | connect =>
    dsimp only
    split_ifs <;> exact .refl conn
  | pending =>
    dsimp only
    split_ifs <;> exact .refl conn
  | _ => exact .refl conn

lemma update_keepsPeer (conn : CNetConnection Addr) (env : NetEnv Addr) (now : ℤ) :
    KeepsPeer conn (conn.update env now) := by
  have hsend : ∀ conn' : CNetConnection Addr, KeepsPeer conn conn' →
      KeepsPeer conn ((conn'.updateResend env now).updateSend now) := fun conn' h =>
    (h.trans (updateResend_keepsPeer conn' env now)).trans (updateSend_keepsPeer _ now)
  rw [update]
  dsimp only
  split_ifs
  · exact .refl conn
  · exact hsend _ ⟨rfl, .inr rfl⟩
  · exact hsend _ ⟨rfl, .inl rfl⟩
  · exact .refl conn
  · exact hsend _ ⟨rfl, .inr rfl⟩
  · exact hsend _ ⟨rfl, .inl rfl⟩

lemma handleSequence_keepsPeer (conn : CNetConnection Addr) (header : CNetChunkHeader) :
    KeepsPeer conn (CNetRecvUnpacker.handleSequence conn header).1 := by
  rw [CNetRecvUnpacker.handleSequence]
  split_ifs <;> exact ⟨rfl, .inl rfl⟩

lemma fetchChunk_keepsPeer (unpacker : CNetRecvUnpacker) (conn : CNetConnection Addr) :
    KeepsPeer conn (unpacker.fetchChunk conn).2.1 := by
  induction hn : unpacker.data.numChunks - unpacker.currentChunk using Nat.strong_induction_on
    generalizing unpacker conn with
  | _ n ih =>
    rw [CNetRecvUnpacker.fetchChunk]
    by_cases hdone : unpacker.valid = false ∨ unpacker.data.numChunks ≤ unpacker.currentChunk
    · rw [dif_pos hdone]
      exact .refl conn
    rw [dif_neg hdone]
    cases (CNetRecvUnpacker.skipChunks conn.split unpacker.currentChunk unpacker.data.chunkData).bind
      (CNetChunkHeader.unpack conn.split) with
    | none => exact .refl conn
    | some chunk =>
      obtain ⟨header, data⟩ := chunk
      dsimp only
      by_cases hsize : header.size > data.length
      · rw [if_pos hsize]
        exact .refl conn
      rw [if_neg hsize]
      have hfirst := handleSequence_keepsPeer conn header
      rcases hresult : CNetRecvUnpacker.handleSequence conn header with ⟨next, _ | _⟩
      · rw [hresult] at hfirst
        have hlt : unpacker.data.numChunks - (unpacker.currentChunk + 1) < n := by
          have hmore := not_or.1 hdone
          omega
        exact hfirst.trans (ih _ hlt { unpacker with currentChunk := unpacker.currentChunk + 1 } next rfl)
      · rw [hresult] at hfirst
        exact hfirst

variable [DecidableEq Addr]

lemma feedControl_peerAddr {conn : CNetConnection Addr} {addr : Addr} (h : conn.peerAddr = addr)
    (env : NetEnv Addr) (packet : CNetPacketConstruct) (responseToken : SecurityToken) (now : ℤ) :
    (conn.feedControl env packet addr responseToken now).1.peerAddr = addr := by
  rw [feedControl]
  dsimp only
  by_cases hclose : packet.chunkData.getD 0 0 = netCtrlmsgClose
  · rw [if_pos hclose]
    dsimp only
    split_ifs <;> exact h
  rw [if_neg hclose]
  by_cases htoken : packet.chunkData.getD 0 0 = netCtrlmsgToken
  · rw [if_pos htoken]
    dsimp only
    split_ifs <;> exact h
  rw [if_neg htoken]
  cases conn.state with
  | offline =>
    dsimp only
    split_ifs
    · exact h
    · rfl
    · exact h
  | connect =>
    dsimp only
    split_ifs <;> first | rfl | exact h
  | _ => exact h

/-- A packet from the peer leaves the address of the peer as it is. -/
lemma feed_peerAddr {conn : CNetConnection Addr} {addr : Addr} (h : conn.peerAddr = addr) (env : NetEnv Addr)
    (packet : CNetPacketConstruct) (securityToken responseToken : SecurityToken) (now : ℤ) :
    (conn.feed env packet addr securityToken responseToken now).1.peerAddr = addr := by
  have hack : ∀ (conn' : CNetConnection Addr) (ack : ℕ), (conn'.feedAck ack now).peerAddr = conn'.peerAddr := by
    intro conn' ack
    rw [feedAck]
    split_ifs <;> rfl
  have haccepted : ∀ packet : CNetPacketConstruct,
      (conn.feedAccepted env packet addr responseToken now).1.peerAddr = addr := by
    intro packet
    rw [feedAccepted]
    have hresent : (if hasFlag packet.flags netPacketflagResend = true then
        ({ conn with peerAck := packet.ack } : CNetConnection Addr).resend now
        else { conn with peerAck := packet.ack }).peerAddr = addr := by
      split_ifs
      · exact (resend_keepsPeer { conn with peerAck := packet.ack } now).1.trans h
      · exact h
    dsimp only
    revert hresent
    generalize (if hasFlag packet.flags netPacketflagResend = true then
      ({ conn with peerAck := packet.ack } : CNetConnection Addr).resend now
      else { conn with peerAck := packet.ack }) = resent
    intro hresent
    by_cases hcontrol : hasFlag packet.flags netPacketflagControl = true
    · rw [if_pos hcontrol]
      have hfed := feedControl_peerAddr hresent env packet responseToken now
      rcases hresult : resent.feedControl env packet addr responseToken now with ⟨fed, _ | _⟩
      · rw [hresult] at hfed
        exact hfed
      · rw [hresult] at hfed
        exact (hack fed packet.ack).trans hfed
    · rw [if_neg hcontrol]
      split_ifs <;> exact (hack _ packet.ack).trans hresent
  rw [feed]
  by_cases haddr : (conn.state ≠ .offline && conn.state ≠ .connect && addr ≠ conn.peerAddr) = true
  · rw [if_pos haddr]
    exact h
  rw [if_neg haddr]
  rcases conn.stripToken packet with ⟨stripped, _ | _⟩
  · exact h
  · dsimp only
    split_ifs
    · exact h
    · exact h
    · exact haccepted stripped

end CNetConnection

/-! ### The peer of a slot -/

namespace CSlot

lemma isLive_iff {slot : CSlot} :
    slot.isLive = true ↔ slot.connection.state ≠ .offline ∧ slot.connection.state ≠ .error := by
  rw [isLive, Bool.and_eq_true, decide_eq_true_iff, decide_eq_true_iff]

lemma peer_eq_some {slot : CSlot} {addr : NETADDR} :
    slot.peer = some addr ↔ slot.isLive = true ∧ slot.connection.peerAddr = addr := by
  rw [peer]
  constructor
  · intro h
    split_ifs at h with hlive
    exact ⟨hlive, Option.some.inj h⟩
  · rintro ⟨hlive, rfl⟩
    rw [if_pos hlive]

lemma peer_of_not_live {slot : CSlot} (h : slot.isLive = false) : slot.peer = none := by
  rw [peer, if_neg (by rw [h]; exact Bool.false_ne_true)]

/-- The slot has the peer of the other one, or none. -/
def Below (slot slot' : CSlot) : Prop := ∀ ⦃addr⦄, slot.peer = some addr → slot'.peer = some addr

lemma Below.refl (slot : CSlot) : slot.Below slot := fun _ h => h

lemma Below.of_not_live {slot slot' : CSlot} (h : slot.isLive = false) : slot.Below slot' := by
  intro addr haddr
  rw [peer_of_not_live h] at haddr
  exact absurd haddr (Option.some_ne_none addr).symm

lemma Below.of_keepsPeer {slot slot' : CSlot} (h : slot'.connection.KeepsPeer slot.connection) :
    slot.Below slot' := by
  intro addr haddr
  obtain ⟨hlive, rfl⟩ := peer_eq_some.1 haddr
  obtain ⟨hoffline, herror⟩ := isLive_iff.1 hlive
  refine peer_eq_some.2 ⟨isLive_iff.2 ?_, h.1.symm⟩
  rcases h.2 with hstate | hstate
  · exact hstate ▸ ⟨hoffline, herror⟩
  · exact absurd hstate herror

lemma reset_not_live (slot : CSlot) : slot.reset.isLive = false := rfl

lemma disconnect_not_live (slot : CSlot) (reason : Option (List UInt8)) (now : ℤ) :
    (slot.disconnect reason now).isLive = false := by
  rw [disconnect]
  split_ifs with hoffline
  · exact Bool.eq_false_iff.2 fun hlive => (isLive_iff.1 hlive).1 hoffline
  · rfl
  · rfl

lemma update_below (config : NetServerConfig) (slot : CSlot) (errorString : List UInt8) (now : ℤ) :
    (slot.update config errorString now).Below slot := by
  rw [update]
  dsimp only
  split_ifs
  · exact .of_not_live (disconnect_not_live _ _ _)
  · exact .of_keepsPeer (CNetConnection.update_keepsPeer slot.connection config.netEnv now)

/-- A packet from the peer of a slot leaves the slot the peer, or takes it from it. -/
lemma feed_below (config : NetServerConfig) {slot slot' : CSlot} {addr : NETADDR} (h : slot'.peer = some addr)
    (hpeer : slot.connection.peerAddr = addr) (packet : CNetPacketConstruct)
    (securityToken responseToken : SecurityToken) (now : ℤ) :
    (slot.feed config packet addr securityToken responseToken now).1.Below slot' := by
  intro addr' haddr
  have hfed := CNetConnection.feed_peerAddr hpeer config.netEnv packet securityToken responseToken now
  obtain ⟨-, hpeer'⟩ := peer_eq_some.1 haddr
  obtain rfl : addr' = addr := hpeer'.symm.trans hfed
  exact h

end CSlot

namespace CNetServer

variable {n : ℕ}

lemma setSlot_self (server : CNetServer n) (i : Fin n) (slot : CSlot) : (server.setSlot i slot).slots i = slot := by
  rw [setSlot]
  exact Function.update_self i slot server.slots

lemma setSlot_of_ne (server : CNetServer n) {i j : Fin n} (h : j ≠ i) (slot : CSlot) :
    (server.setSlot i slot).slots j = server.slots j := by
  rw [setSlot]
  exact Function.update_of_ne h slot server.slots

/-- The peers after a change of one slot. -/
lemma peers_setSlot (server : CNetServer n) (i : Fin n) (slot : CSlot) :
    (server.setSlot i slot).peers = Function.update server.peers i slot.peer := by
  ext1 j
  by_cases hj : j = i
  · subst hj
    rw [peers, setSlot_self, Function.update_self]
  · rw [peers, setSlot_of_ne server hj, Function.update_of_ne hj, peers]

lemma setSlot_below {server : CNetServer n} {i : Fin n} {slot : CSlot} (h : slot.Below (server.slots i)) :
    SlotTable.Below (server.setSlot i slot).peers server.peers := by
  intro j addr hj
  by_cases hji : j = i
  · subst hji
    rw [peers, setSlot_self] at hj
    exact h hj
  · rw [peers, setSlot_of_ne server hji] at hj
    exact hj

/-- What `GetClientSlot` finds. -/
lemma of_getClientSlot {server : CNetServer n} {addr : NETADDR} {i : Fin n}
    (h : server.getClientSlot addr = some i) : server.peers i = some addr := by
  obtain ⟨-, hi⟩ := SlotTable.of_findLast h
  rw [Bool.and_eq_true, decide_eq_true_iff] at hi
  exact CSlot.peer_eq_some.2 hi

lemma getClientSlot_eq_none {server : CNetServer n} {addr : NETADDR} :
    server.getClientSlot addr = none ↔ ¬ SlotTable.Has server.peers addr := by
  rw [getClientSlot, SlotTable.findLast_eq_none]
  constructor
  · rintro h ⟨i, hi⟩
    have hfalse := h i (List.mem_finRange i)
    obtain ⟨hlive, hpeer⟩ := CSlot.peer_eq_some.1 hi
    rw [hlive, Bool.true_and, decide_eq_false_iff_not] at hfalse
    exact hfalse hpeer
  · intro h i _
    refine Bool.eq_false_iff.2 fun htrue => h ⟨i, ?_⟩
    rw [Bool.and_eq_true, decide_eq_true_iff] at htrue
    exact CSlot.peer_eq_some.2 htrue

/-- If no address has two slots, `GetClientSlot` names the slot of an address. -/
lemma getClientSlot_eq_some {server : CNetServer n} (h : SlotTable.Unique server.peers) {addr : NETADDR}
    {i : Fin n} : server.getClientSlot addr = some i ↔ server.peers i = some addr := by
  refine ⟨of_getClientSlot, fun hi => ?_⟩
  cases hfound : server.getClientSlot addr with
  | none => exact absurd ⟨i, hi⟩ (getClientSlot_eq_none.1 hfound)
  | some j => rw [h (of_getClientSlot hfound) hi]

/-! ### Accepting a client -/

lemma acceptSlot_peer (slot : CSlot) (addr : NETADDR) (securityToken token : SecurityToken)
    (vanillaAuth sixup : Bool) (now : ℤ) :
    (acceptSlot slot addr securityToken token vanillaAuth sixup now).peer = some addr := by
  rw [acceptSlot]
  cases vanillaAuth <;> rfl

lemma connlimit_slots (config : NetServerConfig) (server : CNetServer n) (addr : NETADDR) (now : ℤ) :
    (server.connlimit config addr now).1.slots = server.slots := by
  rw [connlimit]
  cases connlimitLoop config addr now server.spamConns <;> rfl

/-- `TryAcceptClient` leaves the peers as they are, or a slot that was free is taken by the client. -/
lemma tryAcceptClient_peers (config : NetServerConfig) (server : CNetServer n) (addr : NETADDR)
    (securityToken : SecurityToken) (vanillaAuth sixup : Bool) (token : SecurityToken) (now : ℤ) :
    (server.tryAcceptClient config addr securityToken vanillaAuth sixup token now).peers = server.peers ∨
      ∃ i, server.peers i = none ∧
        (server.tryAcceptClient config addr securityToken vanillaAuth sixup token now).peers =
          SlotTable.take server.peers i addr := by
  rw [tryAcceptClient]
  by_cases hsixup : (sixup && !config.svSixup) = true
  · rw [if_pos hsixup]
    exact .inl rfl
  rw [if_neg hsixup]
  have hslots := connlimit_slots config server addr now
  rcases hlimit : server.connlimit config addr now with ⟨limited, _ | _⟩ <;> rw [hlimit] at hslots
  · have hpeers : limited.peers = server.peers := funext fun i => congrArg CSlot.peer (congrFun hslots i)
    dsimp only
    by_cases hmax : (limited.numClientsWithAddr addr : ℤ) + 1 > limited.maxClientsPerIp
    · rw [if_pos hmax]
      exact .inl hpeers
    rw [if_neg hmax]
    cases hfind : (List.finRange n).find? fun i => (limited.slots i).connection.state = .offline with
    | none => exact .inl hpeers
    | some i =>
      right
      have hoffline : (limited.slots i).connection.state = .offline := by
        simpa using List.find?_some hfind
      have hfree : limited.peers i = none := by
        refine CSlot.peer_of_not_live (Bool.eq_false_iff.2 fun hlive => ?_)
        exact (CSlot.isLive_iff.1 hlive).1 hoffline
      refine ⟨i, hpeers ▸ hfree, ?_⟩
      dsimp only
      rw [peers_setSlot, acceptSlot_peer, hpeers, SlotTable.take]
  · exact .inl (funext fun i => congrArg CSlot.peer (congrFun hslots i))

/-- The ways in which a client without a slot gets one. -/
inductive Handshake (hash : List UInt8 → SecurityToken) (config : NetServerConfig) (memory : List UInt8)
    (addr : NETADDR) (unpacked : Unpacked) : Prop
  /-- The anti-spoof handshake is off. -/
  | direct (h : isAntiSpoof config = false)
  /-- A websocket client doesn't send a token. -/
  | websocket (h : addr.type = nettypeWebsocketIpv4)
  /-- The token is the tick of an input message. -/
  | vanilla (h : preConnMsg memory = some (netmsgInput, getVanillaToken hash addr))
      (hsixup : unpacked.sixup = false) (hcontrol : hasFlag unpacked.packet.flags netPacketflagControl = false)
  /-- The token follows the control byte. -/
  | ddnet (h : toSecurityToken (unpacked.packet.chunkData.drop 1) = getToken hash addr)
      (hsize : 1 + securityTokenSize ≤ unpacked.packet.dataSize)
  /-- The token is in the header of the packet. -/
  | sixup (h : unpacked.securityToken.getD 0 = getToken hash addr)

/-- The peers are the same, or a slot that was free is taken by the client, and the condition holds. -/
def Accepts (server server' : CNetServer n) (addr : NETADDR) (p : Prop) : Prop :=
  server'.peers = server.peers ∨
    (p ∧ ∃ i, server.peers i = none ∧ server'.peers = SlotTable.take server.peers i addr)

lemma Accepts.of_eq {server server' : CNetServer n} {addr : NETADDR} {p : Prop}
    (h : server'.peers = server.peers) : Accepts server server' addr p := .inl h

lemma tryAcceptClient_accepts {config : NetServerConfig} {server server' : CNetServer n} {addr : NETADDR}
    {p : Prop} (hp : p) (hpeers : server'.peers = server.peers) (securityToken : SecurityToken)
    (vanillaAuth sixup : Bool) (token : SecurityToken) (now : ℤ) :
    Accepts server (server'.tryAcceptClient config addr securityToken vanillaAuth sixup token now) addr p := by
  rw [Accepts, ← hpeers]
  rcases tryAcceptClient_peers config server' addr securityToken vanillaAuth sixup token now with h | h
  · exact .inl h
  · exact .inr ⟨hp, h⟩

lemma vanillaFlooding_peers (config : NetServerConfig) (server : CNetServer n) (now : ℤ) :
    (server.vanillaFlooding config now).1.peers = server.peers := by
  rw [vanillaFlooding]
  dsimp only
  split_ifs <;> rfl

lemma onPreConnMsg_accepts (hash : List UInt8 → SecurityToken) (config : NetServerConfig)
    (server : CNetServer n) (addr : NETADDR) {unpacked : Unpacked} (hsixup : unpacked.sixup = false) (now : ℤ) :
    Accepts server (server.onPreConnMsg hash config addr unpacked.packet now) addr
      (Handshake hash config server.chunkMemory addr unpacked) := by
  rw [onPreConnMsg]
  by_cases hconnect : (hasFlag unpacked.packet.flags netPacketflagControl &&
      unpacked.packet.chunkData.getD 0 0 = netCtrlmsgConnect) = true
  · rw [if_pos hconnect]
    cases hspoof : isAntiSpoof config with
    | true =>
      rw [if_pos rfl]
      exact .of_eq (vanillaFlooding_peers config server now)
    | false =>
      rw [if_neg Bool.false_ne_true]
      exact tryAcceptClient_accepts (.direct hspoof) rfl _ _ _ _ _
  rw [if_neg hconnect]
  by_cases hmsg : (!hasFlag unpacked.packet.flags netPacketflagControl && isAntiSpoof config) = true
  · rw [if_pos hmsg]
    cases hread : preConnMsg server.chunkMemory with
    | none => exact .of_eq rfl
    | some msg =>
      obtain ⟨msg, securityToken⟩ := msg
      dsimp only
      split_ifs with htoken
      · rw [Bool.and_eq_true, decide_eq_true_iff, decide_eq_true_iff] at htoken
        obtain ⟨rfl, rfl⟩ := htoken
        rw [Bool.and_eq_true, Bool.not_eq_true'] at hmsg
        exact tryAcceptClient_accepts (.vanilla hread hsixup hmsg.1) rfl _ _ _ _ _
      · exact .of_eq rfl
  · rw [if_neg hmsg]
    exact .of_eq rfl

lemma onTokenCtrlMsg_accepts (hash : List UInt8 → SecurityToken) (config : NetServerConfig)
    (server : CNetServer n) (addr : NETADDR) (unpacked : Unpacked) (hcontrol : isDDNetControlMsg unpacked.packet)
    (now : ℤ) :
    Accepts server (server.onTokenCtrlMsg hash config addr (unpacked.packet.chunkData.getD 0 0)
      unpacked.packet now) addr (Handshake hash config server.chunkMemory addr unpacked) := by
  rw [onTokenCtrlMsg]
  dsimp only
  split_ifs with hexists hwebsocket hconnect haccept htoken
  · exact .of_eq rfl
  · exact tryAcceptClient_accepts (.websocket hwebsocket) rfl _ _ _ _ _
  · exact .of_eq rfl
  · have hsize : 1 + securityTokenSize ≤ unpacked.packet.dataSize := by
      rw [isDDNetControlMsg, haccept] at hcontrol
      split_ifs at hcontrol with hnone hmagic
      · rw [Bool.and_eq_true, decide_eq_true_iff] at hmagic
        exact absurd hmagic.1 (by decide)
      · rw [Bool.and_eq_true, decide_eq_true_iff] at hcontrol
        exact of_decide_eq_true hcontrol.2
    exact tryAcceptClient_accepts (.ddnet htoken hsize) rfl _ _ _ _ _
  · exact .of_eq rfl
  · exact .of_eq rfl

lemma onSixupCtrlMsg_accepts (hash : List UInt8 → SecurityToken) (config : NetServerConfig)
    (server : CNetServer n) (addr : NETADDR) (unpacked : Unpacked) (responseToken : SecurityToken) (now : ℤ) :
    Accepts server (server.onSixupCtrlMsg hash config addr (unpacked.packet.chunkData.getD 0 0)
      unpacked.packet responseToken (unpacked.securityToken.getD 0) now).1 addr
      (Handshake hash config server.chunkMemory addr unpacked) := by
  rw [onSixupCtrlMsg]
  dsimp only
  split_ifs with hignored htoken hsize hconnect hmine
  · exact .of_eq rfl
  · exact .of_eq rfl
  · exact .of_eq rfl
  · exact tryAcceptClient_accepts (.sixup hmine) rfl _ _ _ _ _
  · exact .of_eq rfl
  · exact .of_eq rfl

lemma recvUnknown_accepts (hash : List UInt8 → SecurityToken) (config : NetServerConfig)
    (server : CNetServer n) (unpacked : Unpacked) (addr : NETADDR) (responseToken : SecurityToken) (now : ℤ) :
    Accepts server (server.recvUnknown hash config unpacked addr responseToken now).1 addr
      (Handshake hash config server.chunkMemory addr unpacked) := by
  rw [recvUnknown]
  split_ifs with hsixup hcontrol
  · exact onSixupCtrlMsg_accepts hash config server addr unpacked responseToken now
  · exact onTokenCtrlMsg_accepts hash config server addr unpacked hcontrol now
  · exact onPreConnMsg_accepts hash config server addr (Bool.eq_false_iff.2 hsixup) now

/-! ### Receiving -/

lemma fetchChunk_below (server : CNetServer n) : SlotTable.Below server.fetchChunk.1.peers server.peers := by
  rw [fetchChunk]
  cases server.unpackerClientId with
  | none => exact .refl _
  | some clientId =>
    have hfetch := CNetConnection.fetchChunk_keepsPeer server.unpacker (server.slots clientId).connection
    exact setSlot_below (.of_keepsPeer hfetch)

lemma onConnCtrlMsg_slot (hash : List UInt8 → SecurityToken) (server : CNetServer n) (addr : NETADDR)
    (clientId : Fin n) (controlMsg : UInt8) (packet : CNetPacketConstruct) :
    SlotTable.Below (server.onConnCtrlMsg hash addr clientId controlMsg packet).peers server.peers ∧
      ((server.onConnCtrlMsg hash addr clientId controlMsg packet).slots clientId).connection.peerAddr =
        (server.slots clientId).connection.peerAddr := by
  have hrejoin : (server.slots clientId).resetRejoin.Below (server.slots clientId) :=
    .of_keepsPeer ⟨rfl, .inl rfl⟩
  rw [onConnCtrlMsg]
  split_ifs
  · exact ⟨.refl _, rfl⟩
  · exact ⟨.refl _, rfl⟩
  · refine ⟨setSlot_below hrejoin, ?_⟩
    rw [setSlot_self]
    rfl
  · exact ⟨.refl _, rfl⟩
  · exact ⟨.refl _, rfl⟩

lemma recvKnown_below (hash : List UInt8 → SecurityToken) (config : NetServerConfig) {server : CNetServer n}
    {clientId : Fin n} {addr : NETADDR} (h : server.peers clientId = some addr) (packet : CNetPacketConstruct)
    (token responseToken : SecurityToken) (now : ℤ) :
    SlotTable.Below (server.recvKnown hash config clientId packet addr token responseToken now).peers
      server.peers := by
  obtain ⟨-, hpeer⟩ := CSlot.peer_eq_some.1 h
  have hctrl : ∃ server' : CNetServer n, (if hasFlag packet.flags netPacketflagControl then
        server.onConnCtrlMsg hash addr clientId (packet.chunkData.getD 0 0) packet else server) = server' ∧
      SlotTable.Below server'.peers server.peers ∧ (server'.slots clientId).connection.peerAddr = addr := by
    refine ⟨_, rfl, ?_⟩
    split_ifs
    · obtain ⟨hbelow, hsame⟩ :=
        onConnCtrlMsg_slot hash server addr clientId (packet.chunkData.getD 0 0) packet
      exact ⟨hbelow, hsame.trans hpeer⟩
    · exact ⟨.refl _, hpeer⟩
  obtain ⟨server', hserver', hbelow, hpeer'⟩ := hctrl
  have hfeed := CSlot.feed_below config h hpeer' packet token responseToken now
  have hset : SlotTable.Below (server'.setSlot clientId
      ((server'.slots clientId).feed config packet addr token responseToken now).1).peers server.peers := by
    intro j addr' hj
    by_cases hji : j = clientId
    · subst hji
      rw [peers, setSlot_self] at hj
      exact hfeed hj
    · rw [peers, setSlot_of_ne server' hji] at hj
      exact hbelow hj
  rw [recvKnown, hserver']
  dsimp only
  split_ifs
  · exact hset
  · exact hset

/-- What a datagram does to the peers: slots are given up, or a client without a slot takes a free one. -/
inductive Received (hash : List UInt8 → SecurityToken) (config : NetServerConfig) (server server' : CNetServer n)
    (datagram : Datagram) : Prop
  | below (h : SlotTable.Below server'.peers server.peers)
  | taken {i : Fin n} {unpacked : Unpacked}
      (hpeers : server'.peers = SlotTable.take server.peers i datagram.addr) (hfree : server.peers i = none)
      (hnew : ¬ SlotTable.Has server.peers datagram.addr)
      (hunpack : unpackPacket datagram.data false true true = some unpacked)
      (hconn : hasFlag unpacked.packet.flags netPacketflagConnless = false)
      (hshake : Handshake hash config (unpacked.packet.chunkData ++
        server.chunkMemory.drop unpacked.packet.chunkData.length) datagram.addr unpacked)

lemma recvConn_received {hash : List UInt8 → SecurityToken} {config : NetServerConfig}
    {server server' : CNetServer n} (hpeers : server'.peers = server.peers) {unpacked : Unpacked}
    {datagram : Datagram} (hunpack : unpackPacket datagram.data false true true = some unpacked)
    (hconn : hasFlag unpacked.packet.flags netPacketflagConnless = false)
    (hmemory : server'.chunkMemory = unpacked.packet.chunkData ++
      server.chunkMemory.drop unpacked.packet.chunkData.length) (responseToken : SecurityToken) :
    Received hash config server (server'.recvConn hash config unpacked datagram responseToken).1 datagram := by
  have hsame : SlotTable.Below server'.peers server.peers := hpeers ▸ .refl _
  rw [recvConn]
  split_ifs with hctrl
  · exact .below hsame
  cases hslot : server'.getClientSlot datagram.addr with
  | none =>
    have hnew := getClientSlot_eq_none.1 hslot
    rcases recvUnknown_accepts hash config server' unpacked datagram.addr responseToken datagram.now with
      h | ⟨hshake, i, hfree, h⟩
    · exact .below (h ▸ hsame)
    · rw [hmemory] at hshake
      rw [hpeers] at h hnew hfree
      exact .taken h hfree hnew hunpack hconn hshake
  | some clientId =>
    have hpeer := of_getClientSlot hslot
    dsimp only
    split_ifs with hreparse
    · have hpeer' : (server'.overwrite (unpackWritten datagram.data true)).peers clientId =
        some datagram.addr := hpeer
      cases unpackPacket datagram.data true true false with
      | none => exact .below hsame
      | some reparsed => exact .below ((recvKnown_below hash config hpeer' _ _ _ _).trans hsame)
    · exact .below ((recvKnown_below hash config hpeer _ _ _ _).trans hsame)

/-- The datagrams change the peers in one of the two ways. -/
lemma recvDatagram_received (hash : List UInt8 → SecurityToken) (config : NetServerConfig)
    (server : CNetServer n) (datagram : Datagram) (responseToken : SecurityToken) :
    Received hash config server (server.recvDatagram hash config datagram responseToken).1 datagram := by
  rw [recvDatagram]
  cases datagram.banned with
  | some text => exact .below (.refl _)
  | none =>
    dsimp only
    cases hunpack : unpackPacket datagram.data false true true with
    | none => exact .below (.refl _)
    | some unpacked =>
      dsimp only
      split_ifs with hconn hglobal
      · exact .below (.refl _)
      · exact .below (.refl _)
      · have hwritten : unpackWritten datagram.data false = unpacked.packet.chunkData := by
          rw [unpackWritten, hunpack]
        rw [hwritten]
        have hpeers : (server.overwrite unpacked.packet.chunkData).peers = server.peers := rfl
        exact recvConn_received hpeers hunpack (Bool.eq_false_iff.2 hconn) rfl _

/-- What holds of the server is kept by `Recv` if fetching a chunk keeps it, and every datagram that is
received does. -/
lemma recv_keeps {hash : List UInt8 → SecurityToken} {config : NetServerConfig} {p : CNetServer n → Prop}
    (hfetch : ∀ server, p server → p server.fetchChunk.1) {server : CNetServer n} {queue : List Datagram}
    {responseToken : SecurityToken}
    (hreceived : ∀ x ∈ server.received hash config queue responseToken, p x.1 →
      ∀ responseToken, p (x.1.recvDatagram hash config x.2 responseToken).1)
    (h : p server) : p (server.recv hash config queue responseToken).1 := by
  induction queue generalizing server responseToken with
  | nil =>
    rw [recv]
    have hnext := hfetch server h
    rcases hchunk : server.fetchChunk with ⟨next, _ | chunk⟩ <;> rw [hchunk] at hnext <;> exact hnext
  | cons datagram queue ih =>
    rw [recv]
    rw [received] at hreceived
    have hnext := hfetch server h
    rcases hchunk : server.fetchChunk with ⟨next, _ | chunk⟩ <;> rw [hchunk] at hreceived hnext
    · dsimp only at hreceived hnext ⊢
      by_cases hempty : datagram.data = []
      · rw [if_pos hempty]
        exact hnext
      rw [if_neg hempty] at hreceived ⊢
      have hafter := hreceived _ List.mem_cons_self hnext responseToken
      rcases hresult : next.recvDatagram hash config datagram responseToken with ⟨after, token, _ | chunk⟩
      · rw [hresult] at hafter hreceived
        exact ih (fun x hx => hreceived x (List.mem_cons_of_mem _ hx)) hafter
      · rw [hresult] at hafter
        exact hafter
    · exact hnext

/-! ### One slot for a peer -/

/-- No two slots that are live have the same peer. -/
def OneSlotPerPeer (server : CNetServer n) : Prop :=
  ∀ i j, (server.slots i).isLive = true → (server.slots j).isLive = true →
    (server.slots i).connection.peerAddr = (server.slots j).connection.peerAddr → i = j

lemma oneSlotPerPeer_iff {server : CNetServer n} : server.OneSlotPerPeer ↔ SlotTable.Unique server.peers := by
  constructor
  · intro h i j addr hi hj
    obtain ⟨hlive, hpeer⟩ := CSlot.peer_eq_some.1 hi
    obtain ⟨hlive', hpeer'⟩ := CSlot.peer_eq_some.1 hj
    exact h i j hlive hlive' (hpeer.trans hpeer'.symm)
  · intro h i j hlive hlive' hpeer
    exact h (CSlot.peer_eq_some.2 ⟨hlive, hpeer⟩) (CSlot.peer_eq_some.2 ⟨hlive', rfl⟩)

/-- No other live slot has the address that a slot in error takes over. -/
def HandOverFree (server : CNetServer n) (clientId origId : Fin n) : Prop :=
  (server.slots clientId).connection.state = .error → clientId ≠ origId →
    ∀ j ≠ origId, (server.slots j).isLive = true →
      (server.slots j).connection.peerAddr ≠ (server.slots origId).connection.peerAddr

/-- A hand-over takes an address that no other live slot has. -/
def OpOk (server : CNetServer n) : Op n → Prop
  | .setTimedOut clientId origId _ => server.HandOverFree clientId origId
  | _ => True

/-- Every operation of a run meets the condition in the state in which it starts. -/
def RunOk (hash : List UInt8 → SecurityToken) : CNetServer n → List (Op n) → Prop
  | _, [] => True
  | server, op :: ops => server.OpOk op ∧ RunOk hash (server.step hash op) ops

lemma Received.unique {hash : List UInt8 → SecurityToken} {config : NetServerConfig}
    {server server' : CNetServer n} {datagram : Datagram} (h : Received hash config server server' datagram)
    (hunique : SlotTable.Unique server.peers) : SlotTable.Unique server'.peers := by
  cases h with
  | below h => exact h.unique hunique
  | taken hpeers hfree hnew => exact hpeers ▸ hunique.take hnew _

lemma recv_unique (hash : List UInt8 → SecurityToken) (config : NetServerConfig) {server : CNetServer n}
    (h : SlotTable.Unique server.peers) (queue : List Datagram) (responseToken : SecurityToken) :
    SlotTable.Unique (server.recv hash config queue responseToken).1.peers :=
  recv_keeps (fun server h => (fetchChunk_below server).unique h)
    (fun x _ h responseToken => (recvDatagram_received hash config x.1 x.2 responseToken).unique h) h

lemma update_below (config : NetServerConfig) (server : CNetServer n) (errorString : Fin n → List UInt8)
    (now : ℤ) : SlotTable.Below (server.update config errorString now).peers server.peers :=
  fun i _ hi => CSlot.update_below config (server.slots i) (errorString i) now hi

lemma drop_below (server : CNetServer n) (clientId : Fin n) (reason : Option (List UInt8)) (now : ℤ) :
    SlotTable.Below (server.drop clientId reason now).peers server.peers :=
  setSlot_below (.of_not_live (CSlot.disconnect_not_live _ _ _))

lemma sendChunk_below (server : CNetServer n) (clientId : Fin n) (vital flush : Bool) (data : List UInt8)
    (now : ℤ) : SlotTable.Below (server.sendChunk clientId vital flush data now).peers server.peers := by
  rw [sendChunk]
  by_cases hsize : data.length ≥ netMaxPayload
  · rw [if_pos hsize]
    exact .refl _
  rw [if_neg hsize]
  refine setSlot_below (.of_keepsPeer ?_)
  dsimp only
  generalize (if vital = true then netChunkflagVital else 0) = flags
  have hqueue := CNetConnection.queueChunk_keepsPeer (server.slots clientId).connection flags data now
  split_ifs
  · exact hqueue.trans (.of_view (CNetConnection.flush_view _ now))
  · exact hqueue

lemma setTimeoutProtected_below (server : CNetServer n) (clientId : Fin n) :
    SlotTable.Below (server.setTimeoutProtected clientId).peers server.peers :=
  setSlot_below (.of_keepsPeer (.refl _))

/-- The peers after a hand-over. -/
lemma setSlotTimedOut_peers {server : CNetServer n} {clientId : Fin n}
    (h : (server.slots clientId).connection.state = .error) (origId : Fin n) (now : ℤ) :
    (server.setSlotTimedOut clientId origId now).peers =
      Function.update (Function.update server.peers clientId
        (some (server.slots origId).connection.peerAddr)) origId none := by
  rw [setSlotTimedOut]
  dsimp only
  rw [if_neg (not_not.2 h), peers_setSlot, peers_setSlot]
  rfl

lemma setSlotTimedOut_of_ne {server : CNetServer n} {clientId : Fin n}
    (h : (server.slots clientId).connection.state ≠ .error) (origId : Fin n) (now : ℤ) :
    server.setSlotTimedOut clientId origId now = server := by
  rw [setSlotTimedOut]
  exact if_pos h

/-- A hand-over keeps the peers apart if and only if no other live slot has the address it takes. -/
lemma setSlotTimedOut_unique_iff {server : CNetServer n} (h : SlotTable.Unique server.peers)
    (clientId origId : Fin n) (now : ℤ) :
    SlotTable.Unique (server.setSlotTimedOut clientId origId now).peers ↔
      server.HandOverFree clientId origId := by
  by_cases herror : (server.slots clientId).connection.state = .error
  swap
  · rw [setSlotTimedOut_of_ne herror]
    exact iff_of_true h fun h => absurd h herror
  rw [setSlotTimedOut_peers herror]
  set addr := (server.slots origId).connection.peerAddr with haddr
  have hother : ∀ {j}, j ≠ origId → j ≠ clientId → Function.update (Function.update server.peers clientId
      (some addr)) origId none j = server.peers j := by
    intro j horig hclient
    rw [Function.update_of_ne horig, Function.update_of_ne hclient]
  constructor
  · intro hunique _ hne j hj hlive hpeer
    have hself : Function.update (Function.update server.peers clientId (some addr)) origId none clientId =
        some addr := by
      rw [Function.update_of_ne hne, Function.update_self]
    have hjclient : j ≠ clientId := by
      rintro rfl
      exact (CSlot.isLive_iff.1 hlive).2 herror
    exact hjclient (hunique ((hother hj hjclient).trans (CSlot.peer_eq_some.2 ⟨hlive, hpeer⟩)) hself)
  · intro hfree i j b hi hj
    have hsource : ∀ {k}, Function.update (Function.update server.peers clientId (some addr)) origId none k =
        some b → k ≠ origId ∧ (k = clientId ∧ b = addr ∨ k ≠ clientId ∧ server.peers k = some b) := by
      intro k hk
      have hne : k ≠ origId := by
        rintro rfl
        rw [Function.update_self] at hk
        exact absurd hk (Option.some_ne_none b).symm
      refine ⟨hne, ?_⟩
      by_cases hclient : k = clientId
      · rw [Function.update_of_ne hne, hclient, Function.update_self] at hk
        exact .inl ⟨hclient, (Option.some.inj hk).symm⟩
      · rw [hother hne hclient] at hk
        exact .inr ⟨hclient, hk⟩
    have hclash : ∀ {k l}, k ≠ origId → k = clientId → l ≠ origId → server.peers l = some addr → False := by
      rintro k l hk rfl hl hpeer
      obtain ⟨hlive, hsame⟩ := CSlot.peer_eq_some.1 hpeer
      exact hfree herror hk l hl hlive hsame
    obtain ⟨hiorig, hi'⟩ := hsource hi
    obtain ⟨hjorig, hj'⟩ := hsource hj
    rcases hi' with ⟨hic, rfl⟩ | ⟨-, hi'⟩
    · rcases hj' with ⟨hjc, -⟩ | ⟨-, hj'⟩
      · exact hic.trans hjc.symm
      · exact (hclash hiorig hic hjorig hj').elim
    · rcases hj' with ⟨hjc, rfl⟩ | ⟨-, hj'⟩
      · exact (hclash hjorig hjc hiorig hi').elim
      · exact h hi' hj'

/-- An operation keeps the peers apart if and only if it meets the condition. -/
lemma step_unique_iff (hash : List UInt8 → SecurityToken) {server : CNetServer n}
    (h : SlotTable.Unique server.peers) (op : Op n) :
    SlotTable.Unique (server.step hash op).peers ↔ server.OpOk op := by
  cases op with
  | recv config queue responseToken =>
    exact iff_of_true (recv_unique hash config h queue responseToken) trivial
  | update config errorString now =>
    exact iff_of_true ((update_below config server errorString now).unique h) trivial
  | drop clientId reason now => exact iff_of_true ((drop_below server clientId reason now).unique h) trivial
  | sendChunk clientId vital flush data now =>
    exact iff_of_true ((sendChunk_below server clientId vital flush data now).unique h) trivial
  | setTimedOut clientId origId now => exact setSlotTimedOut_unique_iff h clientId origId now
  | setTimeoutProtected clientId =>
    exact iff_of_true ((setTimeoutProtected_below server clientId).unique h) trivial
  | setMaxClientsPerIp max => exact iff_of_true h trivial

lemma run_unique {hash : List UInt8 → SecurityToken} {server : CNetServer n} {ops : List (Op n)}
    (hok : RunOk hash server ops) (h : SlotTable.Unique server.peers) :
    SlotTable.Unique (server.run hash ops).peers := by
  induction ops generalizing server with
  | nil => exact h
  | cons op ops ih => exact ih hok.2 ((step_unique_iff hash h op).2 hok.1)

lemma init_unique (maxClientsPerIp : ℤ) : SlotTable.Unique (init maxClientsPerIp : CNetServer n).peers :=
  SlotTable.unique_of_free fun _ => rfl

/-- In every run in which a hand-over only takes an address that no other live slot has, no two live
slots have the same peer and `GetClientSlot` names the slot of an address; a hand-over that takes another
address breaks this. -/
theorem run_oneSlotPerPeer (hash : List UInt8 → SecurityToken) (maxClientsPerIp : ℤ) {ops : List (Op n)}
    (h : RunOk hash (init maxClientsPerIp) ops) :
    OneSlotPerPeer (run hash (init maxClientsPerIp) ops) ∧
      (∀ addr i, (run hash (init maxClientsPerIp) ops).getClientSlot addr = some i ↔
        ((run hash (init maxClientsPerIp) ops).slots i).isLive = true ∧
          ((run hash (init maxClientsPerIp) ops).slots i).connection.peerAddr = addr) ∧
      ∀ op, OneSlotPerPeer (run hash (init maxClientsPerIp) (ops ++ [op])) ↔
        OpOk (run hash (init maxClientsPerIp) ops) op := by
  have hunique := run_unique h (init_unique maxClientsPerIp)
  refine ⟨oneSlotPerPeer_iff.2 hunique, ?_, ?_⟩
  · intro addr i
    exact (getClientSlot_eq_some hunique).trans CSlot.peer_eq_some
  · intro op
    have hrun : run hash (init maxClientsPerIp) (ops ++ [op]) =
        (run hash (init maxClientsPerIp) ops).step hash op := by
      rw [run, List.foldl_append]
      rfl
    rw [hrun, oneSlotPerPeer_iff]
    exact step_unique_iff hash hunique op

/-- A server without a password and without the anti-spoof handshake. -/
def openConfig : NetServerConfig where
  svSixup := true
  svVanillaAntiSpoof := false
  password := []
  svVanConnPerSecond := 10
  svConnlimit := 5
  svConnlimitTime := 20
  connTimeout := 100
  connTimeoutProtection := 1000

/-- An address in a network without routes. -/
def testAddr (port : UInt16) : NETADDR :=
  ⟨nettypeIpv4, ⟨#[10, 0, 0, 1, 0, 0, 0, 0, 0, 0, 0, 0, 0, 0, 0, 0], rfl⟩, port⟩

/-- A client asks for a connection. -/
def connectOp (port : UInt16) (now : ℤ) : Op 3 :=
  .recv openConfig [⟨now, testAddr port, [0x10, 0, 0, 1], none⟩] netSecurityTokenUnknown

/-- Two clients with timeout codes time out, and the first one comes back from the same address. -/
def comeBack : List (Op 3) :=
  [connectOp 1 timeFreq, connectOp 2 timeFreq, .setTimeoutProtected 0, .setTimeoutProtected 1,
    .update openConfig (fun _ => []) (102 * timeFreq), connectOp 1 (103 * timeFreq)]

theorem comeBack_oneSlotPerPeer : OneSlotPerPeer (run (fun _ => 5) (init 4) comeBack) :=
  (run_oneSlotPerPeer (fun _ => 5) 4 (by simp [comeBack, connectOp, RunOk, OpOk])).1

/-- The slot of the second client takes over the first slot, which is in error: its address then has two
slots. -/
theorem comeBack_handOver :
    ¬ OneSlotPerPeer (run (fun _ => 5) (init 4) (comeBack ++ [.setTimedOut 1 0 (104 * timeFreq)])) := by
  intro h
  have hlive : ((run (fun _ => 5) (init 4) (comeBack ++ [.setTimedOut 1 0 (104 * timeFreq)])).slots 1).isLive =
      true := by decide +kernel
  have hlive' : ((run (fun _ => 5) (init 4) (comeBack ++ [.setTimedOut 1 0 (104 * timeFreq)])).slots 2).isLive =
      true := by decide +kernel
  have hpeer : ((run (fun _ => 5) (init 4)
      (comeBack ++ [.setTimedOut 1 0 (104 * timeFreq)])).slots 1).connection.peerAddr =
      ((run (fun _ => 5) (init 4)
        (comeBack ++ [.setTimedOut 1 0 (104 * timeFreq)])).slots 2).connection.peerAddr := by decide +kernel
  exact absurd (h 1 2 hlive hlive' hpeer) (by decide)

end CNetServer

end DDNet
