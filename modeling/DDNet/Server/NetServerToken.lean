/-
The anti-spoof handshakes of the server: an address gets a slot only while a datagram from it is received
that carries the token of the address, if what is read as a vanilla handshake lies in the datagram.
-/
import DDNet.Server.NetServerSlots

namespace DDNet

open Lib CNetPacketConstruct CNetBase

namespace CNetServer

variable {n : ℕ}

/-- The datagram carries a value that the server computed for its address. -/
def CarriesToken (hash : List UInt8 → SecurityToken) (datagram : Datagram) : Prop :=
  ∃ unpacked, unpackPacket datagram.data false true true = some unpacked ∧
    (unpacked.securityToken = some (getToken hash datagram.addr) ∨
      1 + securityTokenSize ≤ unpacked.packet.dataSize ∧
        toSecurityToken (unpacked.packet.chunkData.drop 1) = getToken hash datagram.addr ∨
      preConnMsg unpacked.packet.chunkData = some (netmsgInput, getVanillaToken hash datagram.addr))

/-- If the datagram is read as a vanilla handshake, what is read does not depend on the memory behind the
packet. -/
def ReadsItself (server : CNetServer n) (datagram : Datagram) : Prop :=
  ∀ unpacked, unpackPacket datagram.data false true true = some unpacked →
    hasFlag unpacked.packet.flags netPacketflagConnless = false → unpacked.sixup = false →
    hasFlag unpacked.packet.flags netPacketflagControl = false → server.getClientSlot datagram.addr = none →
    preConnMsg (unpacked.packet.chunkData ++ server.chunkMemory.drop unpacked.packet.chunkData.length) =
      preConnMsg unpacked.packet.chunkData

/-- `sv_vanilla_antispoof` is on and no password is set. -/
def Op.AntiSpoof : Op n → Prop
  | .recv config _ _ => isAntiSpoof config = true
  | _ => True

/-- The handshakes that are received read themselves, and the slot that is handed over is live. -/
def OpReads (hash : List UInt8 → SecurityToken) (server : CNetServer n) : Op n → Prop
  | .recv config queue responseToken =>
      ∀ x ∈ server.received hash config queue responseToken, ReadsItself x.1 x.2
  | .setTimedOut clientId origId _ =>
      (server.slots clientId).connection.state = .error → (server.slots origId).isLive = true
  | _ => True

/-- Every operation of a run meets the condition in the state in which it starts. -/
def RunReads (hash : List UInt8 → SecurityToken) : CNetServer n → List (Op n) → Prop
  | _, [] => True
  | server, op :: ops => server.OpReads hash op ∧ RunReads hash (server.step hash op) ops

/-- The datagrams that an operation receives. -/
def receivedBy (hash : List UInt8 → SecurityToken) (server : CNetServer n) : Op n → List Datagram
  | .recv config queue responseToken => (server.received hash config queue responseToken).map Prod.snd
  | _ => []

/-! ### One datagram -/

lemma getToken_ne_zero (hash : List UInt8 → SecurityToken) (addr : NETADDR) : getToken hash addr ≠ 0 := by
  rw [getToken]
  split_ifs with h
  · decide
  · rw [Bool.or_eq_true, decide_eq_true_iff, decide_eq_true_iff] at h
    exact fun hzero => h (.inr hzero)

/-- An address that is received from gets a slot only by a datagram that carries its token. -/
lemma Received.carriesToken {hash : List UInt8 → SecurityToken} {config : NetServerConfig}
    (hspoof : isAntiSpoof config = true) {server server' : CNetServer n} {datagram : Datagram}
    (h : Received hash config server server' datagram) (hreads : server.ReadsItself datagram) {addr : NETADDR}
    (hwebsocket : addr.type ≠ nettypeWebsocketIpv4) (hnone : ¬ SlotTable.Has server.peers addr)
    (hhas : SlotTable.Has server'.peers addr) : datagram.addr = addr ∧ CarriesToken hash datagram := by
  cases h with
  | below h => exact absurd (h.has hhas) hnone
  | @taken i unpacked hpeers hfree hnew hunpack hconn hshake =>
    rw [hpeers] at hhas
    obtain rfl : addr = datagram.addr := (SlotTable.has_take hhas).resolve_right hnone
    refine ⟨rfl, unpacked, hunpack, ?_⟩
    cases hshake with
    | direct hdirect => exact absurd (hspoof.symm.trans hdirect) (by decide)
    | websocket h => exact absurd h hwebsocket
    | vanilla hread hsixup hcontrol =>
      have hown := hreads unpacked hunpack hconn hsixup hcontrol (getClientSlot_eq_none.2 hnew)
      exact .inr (.inr (hown.symm.trans hread))
    | ddnet htoken hsize => exact .inr (.inl ⟨hsize, htoken⟩)
    | sixup htoken =>
      left
      cases hsome : unpacked.securityToken with
      | none =>
        rw [hsome] at htoken
        exact absurd htoken.symm (getToken_ne_zero hash datagram.addr)
      | some token =>
        rw [hsome] at htoken
        exact congrArg some htoken

/-! ### Runs -/

/-- `Recv` gives an address a slot only if it receives a datagram from it that carries its token. -/
lemma recv_carriesToken {hash : List UInt8 → SecurityToken} {config : NetServerConfig}
    (hspoof : isAntiSpoof config = true) {server : CNetServer n} {queue : List Datagram}
    {responseToken : SecurityToken}
    (hreads : ∀ x ∈ server.received hash config queue responseToken, ReadsItself x.1 x.2) {addr : NETADDR}
    (hwebsocket : addr.type ≠ nettypeWebsocketIpv4) (hnone : ¬ SlotTable.Has server.peers addr)
    (hhas : SlotTable.Has (server.recv hash config queue responseToken).1.peers addr) :
    ∃ x ∈ server.received hash config queue responseToken, x.2.addr = addr ∧ CarriesToken hash x.2 := by
  by_contra hnever
  refine absurd hhas (recv_keeps (p := fun server => ¬ SlotTable.Has server.peers addr) ?_ ?_ hnone)
  · intro server hnone hhas
    exact hnone ((fetchChunk_below server).has hhas)
  · intro x hx hnone responseToken hhas
    exact hnever ⟨x, hx, (recvDatagram_received hash config x.1 x.2 responseToken).carriesToken hspoof
      (hreads x hx) hwebsocket hnone hhas⟩

/-- So does every operation that meets the condition. -/
lemma step_carriesToken {hash : List UInt8 → SecurityToken} {server : CNetServer n} {op : Op n}
    (hspoof : op.AntiSpoof) (hreads : server.OpReads hash op) {addr : NETADDR}
    (hwebsocket : addr.type ≠ nettypeWebsocketIpv4) (hnone : ¬ SlotTable.Has server.peers addr)
    (hhas : SlotTable.Has (server.step hash op).peers addr) :
    ∃ datagram ∈ server.receivedBy hash op, datagram.addr = addr ∧ CarriesToken hash datagram := by
  cases op with
  | recv config queue responseToken =>
    obtain ⟨x, hx, haddr, htoken⟩ := recv_carriesToken hspoof hreads hwebsocket hnone hhas
    exact ⟨x.2, List.mem_map_of_mem hx, haddr, htoken⟩
  | update config errorString now =>
    exact absurd ((update_below config server errorString now).has hhas) hnone
  | drop clientId reason now => exact absurd ((drop_below server clientId reason now).has hhas) hnone
  | sendChunk clientId vital flush data now =>
    exact absurd ((sendChunk_below server clientId vital flush data now).has hhas) hnone
  | setTimedOut clientId origId now =>
    by_cases herror : (server.slots clientId).connection.state = .error
    · have horig : server.peers origId = some (server.slots origId).connection.peerAddr :=
        CSlot.peer_eq_some.2 ⟨hreads herror, rfl⟩
      have hmove : (server.step hash (.setTimedOut clientId origId now)).peers =
          SlotTable.move server.peers clientId origId := by
        rw [SlotTable.move, horig]
        exact setSlotTimedOut_peers herror origId now
      rw [hmove] at hhas
      exact absurd (SlotTable.has_move hhas) hnone
    · have hsame : server.step hash (.setTimedOut clientId origId now) = server :=
        setSlotTimedOut_of_ne herror origId now
      rw [hsame] at hhas
      exact absurd hhas hnone
  | setTimeoutProtected clientId => exact absurd ((setTimeoutProtected_below server clientId).has hhas) hnone
  | setMaxClientsPerIp max => exact absurd hhas hnone

lemma run_append (hash : List UInt8 → SecurityToken) (server : CNetServer n) (ops ops' : List (Op n)) :
    server.run hash (ops ++ ops') = (server.run hash ops).run hash ops' := List.foldl_append

lemma RunReads.of_append {hash : List UInt8 → SecurityToken} {server : CNetServer n} {ops ops' : List (Op n)}
    (h : RunReads hash server (ops ++ ops')) : RunReads hash (server.run hash ops) ops' := by
  induction ops generalizing server with
  | nil => exact h
  | cons op ops ih => exact ih h.2

/-- The address has a live slot. -/
def HasSlot (server : CNetServer n) (addr : NETADDR) : Prop :=
  ∃ i, (server.slots i).isLive = true ∧ (server.slots i).connection.peerAddr = addr

lemma hasSlot_iff {server : CNetServer n} {addr : NETADDR} :
    server.HasSlot addr ↔ SlotTable.Has server.peers addr :=
  exists_congr fun _ => CSlot.peer_eq_some.symm

/-- Without a datagram that carries its token, an address has no slot. -/
lemma not_hasSlot_of_no_token {hash : List UInt8 → SecurityToken} {server : CNetServer n} {addr : NETADDR}
    (hwebsocket : addr.type ≠ nettypeWebsocketIpv4) {ops : List (Op n)} (hspoof : ∀ op ∈ ops, op.AntiSpoof)
    (hreads : RunReads hash server ops) (hnone : ¬ server.HasSlot addr)
    (hnever : ∀ pre op post, ops = pre ++ op :: post →
      ∀ datagram ∈ (server.run hash pre).receivedBy hash op, datagram.addr = addr →
        ¬ CarriesToken hash datagram) : ¬ (server.run hash ops).HasSlot addr := by
  induction ops generalizing server with
  | nil => exact hnone
  | cons op ops ih =>
    obtain ⟨hop, hrest⟩ := hreads
    refine ih (fun op hop => hspoof op (List.mem_cons_of_mem _ hop)) hrest ?_ ?_
    · intro hhas
      obtain ⟨datagram, hmem, haddr, htoken⟩ := step_carriesToken (hspoof op List.mem_cons_self) hop hwebsocket
        (fun h => hnone (hasSlot_iff.2 h)) (hasSlot_iff.1 hhas)
      exact hnever [] op ops rfl datagram hmem haddr htoken
    · intro pre op' post hops datagram hmem haddr
      exact hnever (op :: pre) op' post (by rw [hops]; rfl) datagram hmem haddr

/-- With the anti-spoof handshake, in a run whose handshakes read themselves: an address gets a slot only
by an operation that receives a datagram from it that carries its token; and as long as no datagram that
is received from it does, it has none. -/
theorem run_carriesToken (hash : List UInt8 → SecurityToken) (maxClientsPerIp : ℤ) {addr : NETADDR}
    (hwebsocket : addr.type ≠ nettypeWebsocketIpv4) {ops : List (Op n)} (hspoof : ∀ op ∈ ops, op.AntiSpoof)
    (hreads : RunReads hash (init maxClientsPerIp) ops) :
    (∀ pre op post, ops = pre ++ op :: post → ¬ (run hash (init maxClientsPerIp) pre).HasSlot addr →
      (run hash (init maxClientsPerIp) (pre ++ [op])).HasSlot addr →
        ∃ datagram ∈ (run hash (init maxClientsPerIp) pre).receivedBy hash op,
          datagram.addr = addr ∧ CarriesToken hash datagram) ∧
      ((∀ pre op post, ops = pre ++ op :: post →
        ∀ datagram ∈ (run hash (init maxClientsPerIp) pre).receivedBy hash op, datagram.addr = addr →
          ¬ CarriesToken hash datagram) → ¬ (run hash (init maxClientsPerIp) ops).HasSlot addr) := by
  constructor
  · rintro pre op post rfl hnone hhas
    have hop : OpReads hash (run hash (init maxClientsPerIp) pre) op := hreads.of_append.1
    have hmem : op ∈ pre ++ op :: post := List.mem_append_right pre List.mem_cons_self
    rw [run_append] at hhas
    exact step_carriesToken (hspoof op hmem) hop hwebsocket (fun h => hnone (hasSlot_iff.2 h))
      (hasSlot_iff.1 hhas)
  · intro hnever
    refine not_hasSlot_of_no_token hwebsocket hspoof hreads ?_ hnever
    rintro ⟨i, hlive, -⟩
    exact Bool.false_ne_true hlive

/-- `Recv` receives datagrams that wait. -/
lemma mem_of_mem_received {hash : List UInt8 → SecurityToken} {config : NetServerConfig}
    {server : CNetServer n} {queue : List Datagram} {responseToken : SecurityToken}
    {x : CNetServer n × Datagram} (h : x ∈ server.received hash config queue responseToken) : x.2 ∈ queue := by
  induction queue generalizing server responseToken with
  | nil =>
    rw [received] at h
    rcases hchunk : server.fetchChunk with ⟨next, _ | chunk⟩ <;> rw [hchunk] at h <;>
      exact absurd h List.not_mem_nil
  | cons datagram queue ih =>
    rw [received] at h
    rcases hchunk : server.fetchChunk with ⟨next, _ | chunk⟩ <;> rw [hchunk] at h
    · dsimp only at h
      split_ifs at h
      · exact absurd h List.not_mem_nil
      rcases List.mem_cons.1 h with rfl | h
      · exact List.mem_cons_self
      · rcases hresult : next.recvDatagram hash config datagram responseToken with ⟨after, token, _ | chunk⟩ <;>
          rw [hresult] at h
        · exact List.mem_cons_of_mem _ (ih h)
        · exact absurd h List.not_mem_nil
    · exact absurd h List.not_mem_nil

/-- A server with the anti-spoof handshake. -/
def spoofConfig : NetServerConfig := { openConfig with svVanillaAntiSpoof := true }

/-- A datagram is received. -/
def recvOp (port : UInt16) (data : List UInt8) : Op 1 :=
  .recv spoofConfig [⟨100 * timeFreq, testAddr port, data, none⟩] netSecurityTokenUnknown

/-- A client answers the DDNet handshake with the token 7. -/
def acceptOp : Op 1 := recvOp 2 [0x10, 0, 0, 3, 0, 0, 0, 7]

theorem accept_carriesToken :
    ∃ datagram ∈ receivedBy (fun _ => 7) (init 4) acceptOp,
      datagram.addr = testAddr 2 ∧ CarriesToken (fun _ => 7) datagram := by
  refine (@run_carriesToken 1 (fun _ => 7) 4 (testAddr 2) (by decide) [acceptOp] ?_ ?_).1 [] acceptOp [] rfl ?_ ?_
  · intro op hop
    rw [List.mem_singleton.1 hop]
    rfl
  · refine ⟨fun x hx unpacked hunpack hconn hsixup hcontrol => ?_, trivial⟩
    have hdata : x.2.data = [0x10, 0, 0, 3, 0, 0, 0, 7] :=
      congrArg Datagram.data (List.mem_singleton.1 (mem_of_mem_received hx))
    rw [hdata] at hunpack
    obtain rfl := Option.some.inj hunpack
    exact absurd hcontrol (by decide)
  · rintro ⟨i, hlive, -⟩
    exact Bool.false_ne_true hlive
  · exact ⟨0, by decide +kernel, by decide +kernel⟩

/-- The server is full when a client returns its token, and the client leaves that has the slot. -/
def leftBehind : List (Op 1) := [acceptOp, recvOp 1 [0, 0, 1, 0, 2, 0x21, 7], .drop 0 none (100 * timeFreq)]

/-- A datagram without any data then gives the address of the client the slot: what is read as its
handshake is what the client's datagram has left in the memory. -/
theorem leftBehind_taken :
    ¬ (run (fun _ => 7) (init 4) leftBehind).HasSlot (testAddr 1) ∧
      (run (fun _ => 7) (init 4) (leftBehind ++ [recvOp 1 [0, 0, 0]])).HasSlot (testAddr 1) ∧
      ∀ datagram ∈ receivedBy (fun _ => 7) (run (fun _ => 7) (init 4) leftBehind) (recvOp 1 [0, 0, 0]),
        ¬ CarriesToken (fun _ => 7) datagram := by
  refine ⟨?_, ⟨0, by decide +kernel, by decide +kernel⟩, ?_⟩
  · rintro ⟨i, hlive, -⟩
    obtain rfl := Subsingleton.elim i 0
    have hoffline : ((run (fun _ => 7) (init 4) leftBehind).slots 0).isLive = false := by decide +kernel
    exact Bool.false_ne_true (hoffline.symm.trans hlive)
  · rintro datagram hmem ⟨unpacked, hunpack, hcarries⟩
    obtain ⟨x, hx, rfl⟩ := List.mem_map.1 hmem
    have hdata : x.2.data = [0, 0, 0] :=
      congrArg Datagram.data (List.mem_singleton.1 (mem_of_mem_received hx))
    rw [hdata] at hunpack
    obtain rfl := Option.some.inj hunpack
    rcases hcarries with htoken | ⟨hsize, -⟩ | hread
    · exact absurd htoken (by nofun)
    · exact absurd hsize (by decide)
    · exact absurd hread (by nofun)

end CNetServer

end DDNet
