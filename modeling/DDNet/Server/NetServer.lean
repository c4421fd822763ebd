/-
The server's side of the network (`CNetServer`, `engine/shared/network_server.cpp`).

The slots are indexed by `Fin n`, where `n` is `MaxClients()`.  The time, the variables of the
configuration, the texts of the errors and what the ban list says of an address are arguments of the
operations that read them.  The socket is the list of the datagrams that the server itself has sent.
-/
import DDNet.Base.NetAddr
import DDNet.Base.Str
import DDNet.Lib.SlotTable
import DDNet.Shared.HandOver
import DDNet.Shared.Packer

namespace DDNet

open Lib CHuffman CNetPacketConstruct CNetBase

/-! ### Data -/

/-- The variables of `g_Config` that the server reads. -/
structure NetServerConfig where
  svSixup : Bool
  svVanillaAntiSpoof : Bool
  password : List UInt8
  svVanConnPerSecond : ℤ
  svConnlimit : ℤ
  svConnlimitTime : ℤ
  connTimeout : ℤ
  connTimeoutProtection : ℤ

/-- `net_addr_comp_noport`. -/
def netAddrCompNoport (a b : NETADDR) : Bool := { a with port := 0 } = { b with port := 0 }

/-- What a connection needs of it. -/
def NetServerConfig.netEnv (config : NetServerConfig) : NetEnv NETADDR :=
  ⟨netAddrCompNoport, config.connTimeout, config.connTimeoutProtection⟩

/-- `CNetServer::CSlot`: the connection, with `m_TimeoutProtected` and `m_RemoteClosed`. -/
structure CSlot where
  connection : CNetConnection NETADDR
  timeoutProtected : Bool
  remoteClosed : Bool

/-- `CNetServer::CSpamConn`. -/
structure CSpamConn where
  addr : NETADDR
  time : ℤ
  conns : ℤ

/-- `NET_CONNLIMIT_IPS`. -/
def netConnlimitIps : ℕ := 16

/-- `NETADDR{}`. -/
def NETADDR.zero : NETADDR := ⟨0, Vector.replicate 16 0, 0⟩

/-- `CNetServer`. -/
structure CNetServer (n : ℕ) where
  slots : Fin n → CSlot
  maxClientsPerIp : ℤ
  vConnFirst : ℤ
  vConnNum : ℤ
  spamConns : List CSpamConn
  /-- `m_RecvUnpacker`, with the packet at its start. -/
  unpacker : CNetRecvUnpacker
  unpackerAddr : NETADDR
  unpackerClientId : Option (Fin n)
  /-- The memory of `m_RecvUnpacker.m_Data.m_aChunkData`, of which a packet overwrites the beginning. -/
  chunkMemory : List UInt8
  socket : List (NETADDR × List UInt8)

/-- A datagram that `net_udp_recv` returns, the time, and the text of the ban of its address. -/
structure Datagram where
  now : ℤ
  addr : NETADDR
  data : List UInt8
  banned : Option (List UInt8)

/-- A chunk that `Recv` hands out; `none` is the client id `-1`. -/
structure ReceivedChunk (n : ℕ) where
  clientId : Option (Fin n)
  address : NETADDR
  flags : ℕ
  data : List UInt8
  extraData : List UInt8

/-! ### Tokens -/

/-- `GetToken`, with the hash of the seed and an address, of which the port is omitted. -/
def getToken (hash : List UInt8 → SecurityToken) (addr : NETADDR) : SecurityToken :=
  let token := hash addr.bytes
  if token = netSecurityTokenUnknown || token = netSecurityTokenUnsupported then 1 else token

/-- `GetGlobalToken`. -/
def getGlobalToken (hash : List UInt8 → SecurityToken) : SecurityToken := getToken hash .zero

/-- `absolute`. -/
def absolute (i : BitVec 32) : BitVec 32 := if i.toInt < 0 then -i else i

/-- `GetVanillaToken`: vanilla token/gametick shouldn't be negative. -/
def getVanillaToken (hash : List UInt8 → SecurityToken) (addr : NETADDR) : BitVec 32 :=
  absolute (getToken hash addr).toBitVec

/-! ### Slots -/

namespace CSlot

/-- `Reset`. -/
def reset (slot : CSlot) : CSlot := ⟨slot.connection.reset, false, false⟩

/-- `Reset(true)`. -/
def resetRejoin (slot : CSlot) : CSlot :=
  { slot with
    remoteClosed := false
    connection := { slot.connection with
      sequence := 0, ack := 0, peerAck := 0, lastSendTime := 0, lastRecvTime := 0, connectAddrs := []
      unknownSeq := false, buffer := initBuffer, construct := .zero } }

/-- `Disconnect`. -/
def disconnect (slot : CSlot) (reason : Option (List UInt8)) (now : ℤ) : CSlot :=
  if slot.connection.state = .offline then slot
  else
    let connection := if !slot.remoteClosed && !slot.connection.timeoutSituation then
      slot.connection.sendControl netCtrlmsgClose (reason.elim [] (· ++ [0])) now else slot.connection
    { slot with connection := connection }.reset

/-- The update of one slot. -/
def update (config : NetServerConfig) (slot : CSlot) (errorString : List UInt8) (now : ℤ) : CSlot :=
  let slot := { slot with connection := slot.connection.update config.netEnv now }
  if slot.connection.state = .error && (!slot.timeoutProtected || !slot.connection.timeoutSituation) then
    slot.disconnect (some errorString) now
  else slot

/-- The packet closes the connection. -/
def isClosedBy (connection fed : CNetConnection NETADDR) : Bool :=
  connection.state ≠ .error && fed.state = .error

/-- `Feed`. -/
def feed (config : NetServerConfig) (slot : CSlot) (packet : CNetPacketConstruct) (addr : NETADDR)
    (securityToken responseToken : SecurityToken) (now : ℤ) : CSlot × CNetPacketConstruct × Bool :=
  let fed := slot.connection.feed config.netEnv packet addr securityToken responseToken now
  ({ slot with
      connection := fed.1
      remoteClosed := slot.remoteClosed || isClosedBy slot.connection fed.1 }, fed.2)

/-- The state is neither `NET_CONNSTATE_OFFLINE` nor `NET_CONNSTATE_ERROR`. -/
def isLive (slot : CSlot) : Bool := slot.connection.state ≠ .offline && slot.connection.state ≠ .error

/-- The peer of a slot that is live. -/
def peer (slot : CSlot) : Option NETADDR := if slot.isLive then some slot.connection.peerAddr else none

end CSlot

namespace CNetServer

variable {n : ℕ}

/-- The peers of the slots. -/
def peers (server : CNetServer n) : SlotTable (Fin n) NETADDR := fun i => (server.slots i).peer

/-- A slot is changed. -/
def setSlot (server : CNetServer n) (i : Fin n) (slot : CSlot) : CNetServer n :=
  { server with slots := Function.update server.slots i slot }

/-- A datagram is sent. -/
def send (server : CNetServer n) (addr : NETADDR) (datagram : List UInt8) : CNetServer n :=
  { server with socket := server.socket ++ [(addr, datagram)] }

/-- `SendControl`. -/
def sendControl (server : CNetServer n) (addr : NETADDR) (ctrlMsg : UInt8) (extra : List UInt8)
    (securityToken : SecurityToken) : CNetServer n :=
  server.send addr (CNetConnection.controlMsg 0 ctrlMsg extra securityToken false)

/-! ### Accepting a client -/

/-- `NumClientsWithAddr`. -/
def numClientsWithAddr (server : CNetServer n) (addr : NETADDR) : ℕ :=
  (List.finRange n).countP fun i =>
    let slot := server.slots i
    !(slot.connection.state = .offline || slot.connection.state = .error &&
        (!slot.timeoutProtected || !slot.connection.timeoutSituation)) &&
      netAddrCompNoport addr slot.connection.peerAddr

/-- The loop of `Connlimit` up to the address; `none` if it is not among the entries. -/
def connlimitLoop (config : NetServerConfig) (addr : NETADDR) (now : ℤ) :
    List CSpamConn → Option (List CSpamConn × Bool)
  | [] => none
  | conn :: conns =>
      if conn.addr = addr then
        if conn.time > now - timeFreq * config.svConnlimitTime then
          if conn.conns ≥ config.svConnlimit then some (conn :: conns, true)
          else some ({ conn with conns := conn.conns + 1 } :: conns, false)
        else some ({ conn with time := now, conns := 1 } :: conns, false)
      else (connlimitLoop config addr now conns).map fun (rest, limited) => (conn :: rest, limited)

/-- `Oldest`: the first of the entries with the least time. -/
def oldest (conns : List CSpamConn) : ℕ :=
  (List.range conns.length).foldl (fun oldest i =>
    if (conns.map (·.time)).getD i 0 < (conns.map (·.time)).getD oldest 0 then i else oldest) 0

/-- `Connlimit`. -/
def connlimit (config : NetServerConfig) (server : CNetServer n) (addr : NETADDR) (now : ℤ) :
    CNetServer n × Bool :=
  match connlimitLoop config addr now server.spamConns with
  | some (conns, limited) => ({ server with spamConns := conns }, limited)
  | none =>
      ({ server with spamConns := server.spamConns.set (oldest server.spamConns) ⟨addr, now, 1⟩ }, false)

/-- The answer to a client that is not accepted. -/
def refuse (server : CNetServer n) (addr : NETADDR) (msg : String) (securityToken : SecurityToken)
    (sixup : Bool) : CNetServer n :=
  server.send addr
    (CNetConnection.controlMsg 0 netCtrlmsgClose (ofChars msg.toList ++ [0]) securityToken sixup)

/-- A slot is initialised for a client. -/
def acceptSlot (slot : CSlot) (addr : NETADDR) (securityToken token : SecurityToken)
    (vanillaAuth sixup : Bool) (now : ℤ) : CSlot :=
  let connection := slot.connection.directInit addr securityToken token sixup now
  -- client sequence is unknown if the auth was done connection-less
  ⟨if vanillaAuth then { connection with unknownSeq := true, sequence := 6 } else connection, false, false⟩

/-- `TryAcceptClient`. -/
def tryAcceptClient (config : NetServerConfig) (server : CNetServer n) (addr : NETADDR)
    (securityToken : SecurityToken) (vanillaAuth sixup : Bool) (token : SecurityToken) (now : ℤ) :
    CNetServer n :=
  if sixup && !config.svSixup then
    server.refuse addr "0.7 connections are not accepted at this time" securityToken sixup
  else
    match server.connlimit config addr now with
    | (server, true) => server.refuse addr "Too many connections in a short time" securityToken sixup
    | (server, false) =>
        -- check for sv_max_clients_per_ip
        if server.numClientsWithAddr addr + 1 > server.maxClientsPerIp then
          server.refuse addr
            ("Only " ++ toString server.maxClientsPerIp ++ " players with the same IP are allowed")
            securityToken sixup
        else
          match (List.finRange n).find? fun i => (server.slots i).connection.state = .offline with
          | none => server.refuse addr "This server is full" securityToken sixup
          | some i =>
              server.setSlot i (acceptSlot (server.slots i) addr securityToken token vanillaAuth sixup now)

/-! ### The handshakes -/

/-- `g_DummyMapCrc`. -/
def dummyMapCrc : BitVec 32 := 0xD6909B17

/-- `g_aDummyMapData`. -/
def dummyMapData : List UInt8 := [
    0x44, 0x41, 0x54, 0x41, 0x04, 0x00, 0x00, 0x00, 0xFA, 0x00, 0x00, 0x00, 0xEC, 0x00, 0x00, 0x00, 0x02, 0x00,
    0x00, 0x00, 0x03, 0x00, 0x00, 0x00, 0x01, 0x00, 0x00, 0x00, 0xAC, 0x00, 0x00, 0x00, 0x0E, 0x00, 0x00, 0x00,
    0x04, 0x00, 0x00, 0x00, 0x00, 0x00, 0x00, 0x00, 0x01, 0x00, 0x00, 0x00, 0x05, 0x00, 0x00, 0x00, 0x01, 0x00,
    0x00, 0x00, 0x02, 0x00, 0x00, 0x00, 0x00, 0x00, 0x00, 0x00, 0x24, 0x00, 0x00, 0x00, 0x68, 0x00, 0x00, 0x00,
    0x00, 0x00, 0x00, 0x00, 0x10, 0x00, 0x00, 0x00, 0x00, 0x00, 0x04, 0x00, 0x1C, 0x00, 0x00, 0x00, 0x01, 0x00,
    0x00, 0x00, 0x00, 0x00, 0x00, 0x00, 0x00, 0x00, 0x00, 0x00, 0x00, 0x00, 0x00, 0x00, 0x00, 0x00, 0x00, 0x00,
    0x00, 0x00, 0x00, 0x00, 0x02, 0x00, 0x00, 0x00, 0x00, 0x00, 0x05, 0x00, 0x3C, 0x00, 0x00, 0x00, 0x00, 0x00,
    0x00, 0x00, 0x02, 0x00, 0x00, 0x00, 0x00, 0x00, 0x00, 0x00, 0x02, 0x00, 0x00, 0x00, 0x02, 0x00, 0x00, 0x00,
    0x02, 0x00, 0x00, 0x00, 0x01, 0x00, 0x00, 0x00, 0x00, 0x00, 0x00, 0x00, 0x00, 0x00, 0x00, 0x00, 0x00, 0x00,
    0x00, 0x00, 0x00, 0x00, 0x00, 0x00, 0xFF, 0xFF, 0xFF, 0xFF, 0x00, 0x00, 0x00, 0x00, 0xFF, 0xFF, 0xFF, 0xFF,
    0x00, 0x00, 0x00, 0x00, 0x01, 0x00, 0x05, 0x00, 0x3C, 0x00, 0x00, 0x00, 0x00, 0x00, 0x00, 0x00, 0x02, 0x00,
    0x00, 0x00, 0x00, 0x00, 0x00, 0x00, 0x02, 0x00, 0x00, 0x00, 0x02, 0x00, 0x00, 0x00, 0x02, 0x00, 0x00, 0x00,
    0x00, 0x00, 0x00, 0x00, 0x00, 0x00, 0x00, 0x00, 0x00, 0x00, 0x00, 0x00, 0x00, 0x00, 0x00, 0x00, 0xFF, 0x00,
    0x00, 0x00, 0xFF, 0xFF, 0xFF, 0xFF, 0x00, 0x00, 0x00, 0x00, 0xFF, 0xFF, 0xFF, 0xFF, 0x00, 0x00, 0x00, 0x00,
    0x78, 0x9C, 0x63, 0x64, 0x60, 0x60, 0x60, 0x44, 0xC2, 0x00, 0x00, 0x38, 0x00, 0x05]

/-- `SendMsgs`. -/
def sendMsgs (server : CNetServer n) (addr : NETADDR) (msgs : List CPacker) : CNetServer n :=
  let chunks := msgs.mapIdx fun i msg =>
    (⟨netChunkflagVital, msg.size, (i + 1 : ℕ)⟩ : CNetChunkHeader).pack 4 ++ msg.buffer
  server.send addr (CNetBase.sendPacket ⟨0, 0, msgs.length, chunks.flatten, []⟩
    netSecurityTokenUnsupported false false)

/-- `NETMSG_MAP_CHANGE`. -/
def netmsgMapChange : BitVec 32 := 2

/-- `NETMSG_MAP_DATA`. -/
def netmsgMapData : BitVec 32 := 3

/-- `NETMSG_CON_READY`. -/
def netmsgConReady : BitVec 32 := 4

/-- `NETMSG_SNAPEMPTY`. -/
def netmsgSnapempty : BitVec 32 := 6

/-- `NETMSG_INPUT`. -/
def netmsgInput : BitVec 32 := 16

/-- The name of a map, as a C string. -/
def mapName (flooding : Bool) : CStr :=
  if flooding then ⟨ofChars ['d', 'm', '1'], by simp [ofChars]⟩
  else ⟨ofChars ['d', 'u', 'm', 'm', 'y'], by simp [ofChars]⟩

/-- The messages of the vanilla compatible token handshake: map change, map data, con ready and three
empty snaps, whose tick is the token. -/
def handshakeMsgs (flooding : Bool) (securityToken : BitVec 32) : List CPacker :=
  let sysMsg (msg : BitVec 32) : CPacker := CPacker.reset.addInt (msg <<< 1 ||| 1)
  let mapChangeMsg := ((sysMsg netmsgMapChange).addString (mapName flooding) 0)
  let mapChangeMsg := if flooding then (mapChangeMsg.addInt 0xf2159e6e).addInt 5805
    else (mapChangeMsg.addInt dummyMapCrc).addInt (BitVec.ofNat 32 dummyMapData.length)
  let mapDataMsg := (sysMsg netmsgMapData).addInt 1
  let mapDataMsg := if flooding then (((mapDataMsg.addInt 0).addInt 0).addInt 0).addRaw []
    else (((mapDataMsg.addInt dummyMapCrc).addInt 0).addInt
      (BitVec.ofNat 32 dummyMapData.length)).addRaw dummyMapData
  let snapEmptyMsg := ((sysMsg netmsgSnapempty).addInt securityToken).addInt (securityToken + 1)
  [mapChangeMsg, mapDataMsg, sysMsg netmsgConReady, snapEmptyMsg, snapEmptyMsg, snapEmptyMsg]

/-- The detection of flooding. -/
def vanillaFlooding (config : NetServerConfig) (server : CNetServer n) (now : ℤ) : CNetServer n × Bool :=
  if config.svVanConnPerSecond ≠ 0 then
    let flooding : Bool := server.vConnNum > config.svVanConnPerSecond
    if now ≤ server.vConnFirst + timeFreq then ({ server with vConnNum := server.vConnNum + 1 }, flooding)
    else ({ server with vConnNum := 1, vConnFirst := now }, flooding)
  else (server, false)

/-- The anti-spoof handshake is on. -/
def isAntiSpoof (config : NetServerConfig) : Bool := config.svVanillaAntiSpoof && config.password = []

/-- What is read of a message that comes without a connection: the message and the int behind it. -/
def preConnMsg (chunkData : List UInt8) : Option (BitVec 32 × BitVec 32) :=
  (CNetChunkHeader.unpack 4 chunkData).map fun (h, data) =>
    let (msg, unpacker) := (CUnpacker.reset (data.take h.size)).getInt
    (msg.sshiftRight 1, unpacker.getInt.1)

/-- `OnPreConnMsg`: connection-less msg packet without token-support. -/
def onPreConnMsg (hash : List UInt8 → SecurityToken) (config : NetServerConfig) (server : CNetServer n)
    (addr : NETADDR) (packet : CNetPacketConstruct) (now : ℤ) : CNetServer n :=
  if hasFlag packet.flags netPacketflagControl && packet.chunkData.getD 0 0 = netCtrlmsgConnect then
    if isAntiSpoof config then
      let (server, flooding) := server.vanillaFlooding config now
      -- simulate accept
      let server := server.sendControl addr netCtrlmsgConnectaccept [] netSecurityTokenUnsupported
      server.sendMsgs addr (handshakeMsgs flooding (getVanillaToken hash addr))
    else
      -- accept client directly
      let server := server.sendControl addr netCtrlmsgConnectaccept [] netSecurityTokenUnsupported
      server.tryAcceptClient config addr netSecurityTokenUnsupported false false 0 now
  else if !hasFlag packet.flags netPacketflagControl && isAntiSpoof config then
    -- the memory that the header and the ints are read from goes on behind the packet
    match preConnMsg server.chunkMemory with
    | none => server
    | some (msg, securityToken) =>
        if msg = netmsgInput && securityToken = getVanillaToken hash addr then
          -- try to accept client skipping auth state
          server.tryAcceptClient config addr netSecurityTokenUnsupported true false 0 now
        else server
  else server

/-- `OnConnCtrlMsg`. -/
def onConnCtrlMsg (hash : List UInt8 → SecurityToken) (server : CNetServer n) (addr : NETADDR)
    (clientId : Fin n) (controlMsg : UInt8) (packet : CNetPacketConstruct) : CNetServer n :=
  if controlMsg = netCtrlmsgConnect then
    -- got connection attempt inside of valid session, the client probably wants to reconnect
    if CNetConnection.hasMagic packet then
      server.sendControl addr netCtrlmsgConnectaccept securityTokenMagic (getToken hash addr)
    else server
  else if controlMsg = netCtrlmsgAccept && packet.dataSize = 1 + securityTokenSize then
    if toSecurityToken (packet.chunkData.drop 1) = getToken hash addr then
      -- reset netconn and process rejoin
      server.setSlot clientId (server.slots clientId).resetRejoin
    else server
  else server

/-- `GetClientSlot`. -/
def getClientSlot (server : CNetServer n) (addr : NETADDR) : Option (Fin n) :=
  SlotTable.findLast (fun i => (server.slots i).isLive && (server.slots i).connection.peerAddr = addr)
    (List.finRange n)

/-- `OnTokenCtrlMsg`. -/
def onTokenCtrlMsg (hash : List UInt8 → SecurityToken) (config : NetServerConfig) (server : CNetServer n)
    (addr : NETADDR) (controlMsg : UInt8) (packet : CNetPacketConstruct) (now : ℤ) : CNetServer n :=
  if (server.getClientSlot addr).isSome then server
  else if addr.type = nettypeWebsocketIpv4 then
    -- websocket client doesn't send token
    let server := server.sendControl addr netCtrlmsgConnectaccept securityTokenMagic netSecurityTokenUnsupported
    server.tryAcceptClient config addr netSecurityTokenUnsupported false false 0 now
  else if controlMsg = netCtrlmsgConnect then
    -- response connection request with token
    server.sendControl addr netCtrlmsgConnectaccept securityTokenMagic (getToken hash addr)
  else if controlMsg = netCtrlmsgAccept then
    let token := toSecurityToken (packet.chunkData.drop 1)
    if token = getToken hash addr then
      server.tryAcceptClient config addr token false false 0 now
    else server
  else server

/-- `SendTokenSixup`. -/
def sendTokenSixup (hash : List UInt8 → SecurityToken) (server : CNetServer n) (addr : NETADDR)
    (token : SecurityToken) : CNetServer n :=
  let size := if token = netSecurityTokenUnknown then 512 else 4
  let buf := writeSecurityToken (getToken hash addr) ++ List.replicate 508 0
  server.send addr (CNetConnection.controlMsg 0 5 (buf.take size) token true)

/-- `OnSixupCtrlMsg`: the server, the response token, and the chunk that is handed out. -/
def onSixupCtrlMsg (hash : List UInt8 → SecurityToken) (config : NetServerConfig) (server : CNetServer n)
    (addr : NETADDR) (controlMsg : UInt8) (packet : CNetPacketConstruct)
    (responseToken token : SecurityToken) (now : ℤ) :
    CNetServer n × SecurityToken × Option (ReceivedChunk n) :=
  if packet.dataSize < 5 || (server.getClientSlot addr).isSome then (server, responseToken, none)
  else
    let responseToken := toSecurityToken (packet.chunkData.drop 1)
    if controlMsg = 5 then
      if packet.dataSize ≥ 512 then (server.sendTokenSixup hash addr responseToken, responseToken, none)
      else (server, responseToken, some ⟨none, addr, 0, [], []⟩)
    else if controlMsg = netCtrlmsgConnect then
      let myToken := getToken hash addr
      let server := server.send addr
        (CNetConnection.controlMsg 0 netCtrlmsgConnectaccept (uintBytes myToken) responseToken true)
      if token = myToken then
        (server.tryAcceptClient config addr responseToken false true token now, responseToken, none)
      else (server, responseToken, none)
    else (server, responseToken, none)

/-- `IsDDNetControlMsg`. -/
def isDDNetControlMsg (packet : CNetPacketConstruct) : Bool :=
  if !hasFlag packet.flags netPacketflagControl || packet.dataSize < 1 then false
  else if packet.chunkData.getD 0 0 = netCtrlmsgConnect && CNetConnection.hasMagic packet then true
  else packet.chunkData.getD 0 0 = netCtrlmsgAccept && packet.dataSize ≥ 1 + securityTokenSize

/-! ### Receiving -/

/-- The bytes that `UnpackPacket` puts into `m_aChunkData`, also when it fails. -/
def unpackWritten (buffer : List UInt8) (sixup : Bool) : List UInt8 :=
  match unpackPacket buffer sixup true true with
  | some unpacked => unpacked.packet.chunkData
  | none =>
      let sixup := sixup || hasFlag (buffer.getD 0 0 >>> 2) netPacketflagUnused
      let dataStart := if sixup then 7 else netPacketheadersize
      let flags := buffer.getD 0 0 >>> 2
      let flags := if sixup then flagsOfSixup flags else flags
      if dataStart ≤ buffer.length && buffer.length ≤ netMaxPacketsize &&
          !hasFlag (buffer.getD 0 0 >>> 2) netPacketflagConnless &&
          hasFlag flags netPacketflagCompression && !hasFlag flags netPacketflagControl then
        decompressWritten msHuffman netMaxPayload ⟨0, 0, buffer.drop dataStart⟩
      else []

/-- The beginning of the chunk memory is overwritten. -/
def overwrite (server : CNetServer n) (written : List UInt8) : CNetServer n :=
  { server with chunkMemory := written ++ server.chunkMemory.drop written.length }

/-- The next chunk of the packet that is unpacked. -/
def fetchChunk (server : CNetServer n) : CNetServer n × Option (ReceivedChunk n) :=
  match server.unpackerClientId with
  | none => (server, none)
  | some clientId =>
      let slot := server.slots clientId
      let (unpacker, connection, chunk) := server.unpacker.fetchChunk slot.connection
      ({ server.setSlot clientId { slot with connection := connection } with unpacker := unpacker },
        chunk.map fun chunk => ⟨some clientId, server.unpackerAddr, chunk.flags, chunk.data, []⟩)

/-- A packet of a client that has a slot. -/
def recvKnown (hash : List UInt8 → SecurityToken) (config : NetServerConfig) (server : CNetServer n)
    (clientId : Fin n) (packet : CNetPacketConstruct) (addr : NETADDR)
    (token responseToken : SecurityToken) (now : ℤ) : CNetServer n :=
  let server := if hasFlag packet.flags netPacketflagControl then
    server.onConnCtrlMsg hash addr clientId (packet.chunkData.getD 0 0) packet else server
  let (slot, packet, accepted) := (server.slots clientId).feed config packet addr token responseToken now
  let server := server.setSlot clientId slot
  if accepted && packet.dataSize ≠ 0 then
    { server with
      unpacker := .start packet, unpackerAddr := addr, unpackerClientId := some clientId }
  else server

/-- A packet of a client that wants to connect. -/
def recvUnknown (hash : List UInt8 → SecurityToken) (config : NetServerConfig) (server : CNetServer n)
    (unpacked : Unpacked) (addr : NETADDR) (responseToken : SecurityToken) (now : ℤ) :
    CNetServer n × SecurityToken × Option (ReceivedChunk n) :=
  let packet := unpacked.packet
  if unpacked.sixup then
    server.onSixupCtrlMsg hash config addr (packet.chunkData.getD 0 0) packet responseToken
      (unpacked.securityToken.getD 0) now
  else if isDDNetControlMsg packet then
    (server.onTokenCtrlMsg hash config addr (packet.chunkData.getD 0 0) packet now, responseToken, none)
  else (server.onPreConnMsg hash config addr packet now, responseToken, none)

/-- A packet that is not connectionless. -/
def recvConn (hash : List UInt8 → SecurityToken) (config : NetServerConfig) (server : CNetServer n)
    (unpacked : Unpacked) (datagram : Datagram) (responseToken : SecurityToken) :
    CNetServer n × SecurityToken × Option (ReceivedChunk n) :=
  -- drop invalid ctrl packets
  if hasFlag unpacked.packet.flags netPacketflagControl && unpacked.packet.dataSize = 0 then
    (server, responseToken, none)
  else
    -- normal packet, find matching slot
    match server.getClientSlot datagram.addr with
    | none => server.recvUnknown hash config unpacked datagram.addr responseToken datagram.now
    | some clientId =>
        if !unpacked.sixup && (server.slots clientId).connection.sixup then
          let server := server.overwrite (unpackWritten datagram.data true)
          match unpackPacket datagram.data true true false with
          | none => (server, responseToken, none)
          | some unpacked =>
              (server.recvKnown hash config clientId unpacked.packet datagram.addr
                (unpacked.securityToken.getD 0) responseToken datagram.now, responseToken, none)
        else
          (server.recvKnown hash config clientId unpacked.packet datagram.addr
            (unpacked.securityToken.getD 0) responseToken datagram.now, responseToken, none)

/-- One datagram in the loop of `Recv`: the server, the response token, and the chunk that is handed
out without a connection. -/
def recvDatagram (hash : List UInt8 → SecurityToken) (config : NetServerConfig) (server : CNetServer n)
    (datagram : Datagram) (responseToken : SecurityToken) :
    CNetServer n × SecurityToken × Option (ReceivedChunk n) :=
  match datagram.banned with
  | some text =>
      -- banned, reply with a message
      (server.sendControl datagram.addr netCtrlmsgClose (text ++ [0]) netSecurityTokenUnsupported,
        responseToken, none)
  | none =>
      let server := server.overwrite (unpackWritten datagram.data false)
      match unpackPacket datagram.data false true true with
      | none => (server, responseToken, none)
      | some unpacked =>
          let responseToken := unpacked.responseToken.getD responseToken
          let packet := unpacked.packet
          if hasFlag packet.flags netPacketflagConnless then
            if unpacked.sixup && unpacked.securityToken.getD 0 ≠ getToken hash datagram.addr &&
                unpacked.securityToken.getD 0 ≠ getGlobalToken hash then
              (server, responseToken, none)
            else (server, responseToken,
              some ⟨none, datagram.addr, packet.flags.toNat, packet.chunkData, packet.extraData⟩)
          else server.recvConn hash config unpacked datagram responseToken

/-- `Recv`, with the datagrams that wait: the server, the datagrams that are left, the response token, and
the chunk that is handed out. -/
def recv (hash : List UInt8 → SecurityToken) (config : NetServerConfig) (server : CNetServer n) :
    List Datagram → SecurityToken →
      CNetServer n × List Datagram × SecurityToken × Option (ReceivedChunk n)
  | queue, responseToken =>
      -- check for a chunk
      match server.fetchChunk with
      | (server, some chunk) => (server, queue, responseToken, some chunk)
      | (server, none) =>
          match queue with
          -- no more packets for now
          | [] => (server, [], responseToken, none)
          | datagram :: queue =>
              if datagram.data = [] then (server, queue, responseToken, none)
              else
                match server.recvDatagram hash config datagram responseToken with
                | (server, responseToken, some chunk) => (server, queue, responseToken, some chunk)
                | (server, responseToken, none) => recv hash config server queue responseToken

/-- The datagrams that `Recv` takes from the socket, each with the server as it finds it. -/
def received (hash : List UInt8 → SecurityToken) (config : NetServerConfig) (server : CNetServer n) :
    List Datagram → SecurityToken → List (CNetServer n × Datagram)
  | queue, responseToken =>
      match server.fetchChunk with
      | (_, some _) => []
      | (server, none) =>
          match queue with
          | [] => []
          | datagram :: queue =>
              if datagram.data = [] then []
              else
                (server, datagram) ::
                  match server.recvDatagram hash config datagram responseToken with
                  | (_, _, some _) => []
                  | (server, responseToken, none) => received hash config server queue responseToken

/-! ### The other operations -/

/-- `Open`. -/
def init (maxClientsPerIp : ℤ) : CNetServer n where
  slots _ := ⟨CNetConnection.init .zero, false, false⟩
  maxClientsPerIp := maxClientsPerIp
  vConnFirst := 0
  vConnNum := 0
  spamConns := List.replicate netConnlimitIps ⟨.zero, 0, 0⟩
  unpacker := ⟨false, .zero, 0⟩
  unpackerAddr := .zero
  unpackerClientId := none
  chunkMemory := List.replicate netMaxPayload 0
  socket := []

/-- `Drop`. -/
def drop (server : CNetServer n) (clientId : Fin n) (reason : Option (List UInt8)) (now : ℤ) : CNetServer n :=
  server.setSlot clientId ((server.slots clientId).disconnect reason now)

/-- `Update`, with the texts of the errors. -/
def update (config : NetServerConfig) (server : CNetServer n) (errorString : Fin n → List UInt8) (now : ℤ) :
    CNetServer n :=
  { server with slots := fun i => (server.slots i).update config (errorString i) now }

/-- `Send` of a chunk to a client. -/
def sendChunk (server : CNetServer n) (clientId : Fin n) (vital flush : Bool) (data : List UInt8)
    (now : ℤ) : CNetServer n :=
  if data.length ≥ netMaxPayload then server
  else
    let slot := server.slots clientId
    let queued := slot.connection.queueChunk (if vital then netChunkflagVital else 0) data now
    let connection := if queued.2 && flush then (queued.1.flush now).1 else queued.1
    server.setSlot clientId { slot with connection := connection }

/-- `SetTimedOut`, on the slots. -/
def setSlotTimedOut (server : CNetServer n) (clientId origId : Fin n) (now : ℤ) : CNetServer n :=
  let slot := server.slots clientId
  if slot.connection.state ≠ .error then server
  else
    let orig := (server.slots origId).connection
    let server := server.setSlot clientId { slot with
      remoteClosed := false
      connection := slot.connection.setTimedOut orig.peerAddr orig.sequence orig.ack orig.securityToken
        orig.buffer orig.sixup now }
    server.setSlot origId (server.slots origId).reset

/-- `SetTimeoutProtected`. -/
def setTimeoutProtected (server : CNetServer n) (clientId : Fin n) : CNetServer n :=
  server.setSlot clientId { server.slots clientId with timeoutProtected := true }

/-- `NET_MAX_CLIENTS`. -/
def netMaxClients : ℤ := 64

/-- `SetMaxClientsPerIp`. -/
def setMaxClientsPerIp (server : CNetServer n) (max : ℤ) : CNetServer n :=
  { server with maxClientsPerIp := if max < 1 then 1 else if max > netMaxClients then netMaxClients else max }

/-! ### Runs -/

/-- An operation of the server. -/
inductive Op (n : ℕ) where
  | recv (config : NetServerConfig) (queue : List Datagram) (responseToken : SecurityToken)
  | update (config : NetServerConfig) (errorString : Fin n → List UInt8) (now : ℤ)
  | drop (clientId : Fin n) (reason : Option (List UInt8)) (now : ℤ)
  | sendChunk (clientId : Fin n) (vital flush : Bool) (data : List UInt8) (now : ℤ)
  | setTimedOut (clientId origId : Fin n) (now : ℤ)
  | setTimeoutProtected (clientId : Fin n)
  | setMaxClientsPerIp (max : ℤ)

/-- An operation. -/
def step (hash : List UInt8 → SecurityToken) (server : CNetServer n) : Op n → CNetServer n
  | .recv config queue responseToken => (server.recv hash config queue responseToken).1
  | .update config errorString now => server.update config errorString now
  | .drop clientId reason now => server.drop clientId reason now
  | .sendChunk clientId vital flush data now => server.sendChunk clientId vital flush data now
  | .setTimedOut clientId origId now => server.setSlotTimedOut clientId origId now
  | .setTimeoutProtected clientId => server.setTimeoutProtected clientId
  | .setMaxClientsPerIp max => server.setMaxClientsPerIp max

/-- A run. -/
def run (hash : List UInt8 → SecurityToken) (server : CNetServer n) (ops : List (Op n)) : CNetServer n :=
  ops.foldl (step hash) server

end CNetServer

end DDNet
