/-
A network connection (`CNetConnection`, `engine/shared/network_conn.cpp`) and the unpacker of
received packets (`CNetRecvUnpacker`, `network.cpp`).

An operation of the connection is a function on its state.  The socket is the list of the
datagrams that have been sent through it.  The time is an argument of every operation that
reads it; the clock stands still within one call, as the cached `time_get` does.  Addresses are
of an arbitrary type.  Only fields that decide what the connection sends or accepts are kept:
the error text, the statistics and the printed address are left out.
-/
import DDNet.Shared.PacketWire
import DDNet.Shared.RingBuffer

namespace DDNet

open Lib CNetPacketConstruct

/-- The states of a connection. -/
inductive NetConnState where
  | offline
  | token
  | connect
  | pending
  | online
  | error
deriving DecidableEq

/-- `CNetChunkResend`. -/
structure CNetChunkResend where
  flags : ℕ
  data : List UInt8
  sequence : ℕ
  lastSendTime : ℤ
  firstSendTime : ℤ
deriving DecidableEq

/-- `sizeof(CNetChunkResend)`. -/
def chunkResendSize : ℕ := 40

/-- `time_freq`. -/
def timeFreq : ℤ := 1000000000

/-- `SECURITY_TOKEN_MAGIC`. -/
def securityTokenMagic : List UInt8 := [0x54, 0x4b, 0x45, 0x4e]

/-- What a connection needs from around it. -/
structure NetEnv (Addr : Type*) where
  /-- `net_addr_comp_noport(a, b) == 0`. -/
  sameNoPort : Addr → Addr → Bool
  /-- `g_Config.m_ConnTimeout`. -/
  connTimeout : ℤ
  /-- `g_Config.m_ConnTimeoutProtection`. -/
  connTimeoutProtection : ℤ

/-- `CNetConnection`. -/
structure CNetConnection (Addr : Type*) where
  sequence : ℕ
  ack : ℕ
  peerAck : ℕ
  state : NetConnState
  securityToken : SecurityToken
  token : SecurityToken
  sixup : Bool
  unknownSeq : Bool
  timeoutSituation : Bool
  buffer : CRingBufferBase CNetChunkResend
  construct : CNetPacketConstruct
  lastUpdateTime : ℤ
  lastRecvTime : ℤ
  lastSendTime : ℤ
  connectAddrs : List Addr
  peerAddr : Addr
  /-- `m_Socket`: the datagrams sent so far, with their destinations. -/
  socket : List (Addr × List UInt8)

/-- A construct after `mem_zero`. -/
def CNetPacketConstruct.zero : CNetPacketConstruct := ⟨0, 0, 0, [], []⟩

/-- `CStaticRingBuffer<CNetChunkResend, NET_CONN_BUFFERSIZE>::Init`. -/
def initBuffer : CRingBufferBase CNetChunkResend := CRingBufferBase.init netConnBuffersize false

namespace CNetConnection

variable {Addr : Type*}

/-! ### Sending -/

/-- The `Split` of the chunk headers. -/
def split (conn : CNetConnection Addr) : ℕ := if conn.sixup then 6 else 4

/-- A datagram is handed to the socket. -/
def send (conn : CNetConnection Addr) (addr : Addr) (datagram : List UInt8) : CNetConnection Addr :=
  { conn with socket := conn.socket ++ [(addr, datagram)] }

/-- `Flush`: the connection, and the number of chunks sent. -/
def flush (conn : CNetConnection Addr) (now : ℤ) : CNetConnection Addr × ℕ :=
  let numChunks := conn.construct.numChunks
  if numChunks = 0 && conn.construct.flags = 0 then (conn, 0)
  else
    -- send of the packets
    let construct := { conn.construct with ack := conn.ack }
    let conn := conn.send conn.peerAddr
      (CNetBase.sendPacket construct conn.securityToken conn.sixup false)
    -- clear construct so we can start building a new package
    ({ conn with lastSendTime := now, construct := .zero }, numChunks)

/-- The chunk is packed behind the others of the packet. -/
def packChunk (conn : CNetConnection Addr) (header : CNetChunkHeader) (data : List UInt8) :
    CNetConnection Addr :=
  { conn with construct := { conn.construct with
      numChunks := conn.construct.numChunks + 1
      chunkData := conn.construct.chunkData ++ (header.pack conn.split ++ data) } }

/-- Check if we have space for the chunk, if not, flush the connection. -/
def makeRoom (conn : CNetConnection Addr) (size : ℕ) (now : ℤ) : CNetConnection Addr :=
  if conn.construct.dataSize + size + netMaxChunkheadersize > netMaxPayload - securityTokenSize then
    (conn.flush now).1
  else conn

/-- Save the chunk if we need to resend; `false` if the buffer has no room for it. -/
def saveChunk (conn : CNetConnection Addr) (flags : ℕ) (data : List UInt8) (sequence : ℕ) (now : ℤ) :
    CNetConnection Addr × Bool :=
  let allocated := conn.buffer.allocate (chunkResendSize + data.length) ⟨flags, data, sequence, now, now⟩
  ({ conn with buffer := allocated.1 }, allocated.2)

/-- The flags of a chunk that is saved when it is queued. -/
def isSaved (flags : ℕ) : Bool := flags &&& netChunkflagVital ≠ 0 && flags &&& netChunkflagResend = 0

/-- `QueueChunkEx`; `false` is its result `-1`. -/
def queueChunkEx (conn : CNetConnection Addr) (flags : ℕ) (data : List UInt8) (sequence : ℕ) (now : ℤ) :
    CNetConnection Addr × Bool :=
  if conn.state = .offline || conn.state = .error then (conn, false)
  else
    let conn := (conn.makeRoom data.length now).packChunk ⟨flags, data.length, sequence⟩ data
    if isSaved flags then conn.saveChunk flags data sequence now else (conn, true)

/-- `QueueChunk`. -/
def queueChunk (conn : CNetConnection Addr) (flags : ℕ) (data : List UInt8) (now : ℤ) :
    CNetConnection Addr × Bool :=
  let conn := if flags &&& netChunkflagVital ≠ 0
    then { conn with sequence := (conn.sequence + 1) % netMaxSequence } else conn
  conn.queueChunkEx flags data conn.sequence now

/-- `SignalResend`. -/
def signalResend (conn : CNetConnection Addr) : CNetConnection Addr :=
  { conn with construct := { conn.construct with flags := conn.construct.flags ||| netPacketflagResend } }

/-- The chunk of `ResendChunk` is queued again. -/
def resendChunk (conn : CNetConnection Addr) (chunk : CNetChunkResend) (now : ℤ) : CNetConnection Addr :=
  (conn.queueChunkEx (chunk.flags ||| netChunkflagResend) chunk.data chunk.sequence now).1

/-- `Resend`: the loop over the buffer, which `ResendChunk` does not change apart from the
time of the last sending. -/
def resend (conn : CNetConnection Addr) (now : ℤ) : CNetConnection Addr :=
  let conn := conn.buffer.values.foldl (fun conn chunk => conn.resendChunk chunk now) conn
  { conn with buffer := conn.buffer.mapValues fun chunk => { chunk with lastSendTime := now } }

/-- `CNetBase::SendControlMsg`: the datagram. -/
def controlMsg (ack : ℕ) (ctrlMsg : UInt8) (extra : List UInt8) (securityToken : SecurityToken)
    (sixup : Bool) : List UInt8 :=
  CNetBase.sendPacket ⟨netPacketflagControl, ack, 0, ctrlMsg :: extra, []⟩ securityToken sixup true

/-- `SendControl`. -/
def sendControl (conn : CNetConnection Addr) (ctrlMsg : UInt8) (extra : List UInt8) (now : ℤ) :
    CNetConnection Addr :=
  ({ conn with lastSendTime := now }).send conn.peerAddr
    (controlMsg conn.ack ctrlMsg extra conn.securityToken conn.sixup)

/-- `SendControlWithToken7`; the rest of the request buffer, which the source does not
initialise, is zero here. -/
def sendControlWithToken7 (conn : CNetConnection Addr) (ctrlMsg : UInt8) (responseToken : SecurityToken)
    (now : ℤ) : CNetConnection Addr :=
  ({ conn with lastSendTime := now }).send conn.peerAddr
    (controlMsg 0 ctrlMsg (writeSecurityToken conn.token ++ List.replicate 508 0) responseToken true)

/-- `SendConnect`. -/
def sendConnect (conn : CNetConnection Addr) (now : ℤ) : CNetConnection Addr :=
  let datagram := controlMsg conn.ack netCtrlmsgConnect securityTokenMagic conn.securityToken conn.sixup
  { conn with
    lastSendTime := now
    socket := conn.socket ++ conn.connectAddrs.map fun addr => (addr, datagram) }

/-! ### Receiving -/

/-- The loop of `AckChunks`; `fuel` bounds the number of blocks. -/
def ackChunksLoop : ℕ → CRingBufferBase CNetChunkResend → ℕ → CRingBufferBase CNetChunkResend
  | 0, buffer, _ => buffer
  | fuel + 1, buffer, ack =>
      match buffer.first.bind fun i => (buffer.item i).value with
      | none => buffer
      | some chunk =>
          if isSeqInBackroom chunk.sequence ack then ackChunksLoop fuel buffer.popFirst.1 ack
          else buffer

/-- `AckChunks`. -/
def ackChunks (conn : CNetConnection Addr) (ack : ℕ) : CNetConnection Addr :=
  { conn with buffer := ackChunksLoop conn.buffer.items.length conn.buffer ack }

/-- `Reset`. -/
def reset (conn : CNetConnection Addr) : CNetConnection Addr :=
  { conn with
    sequence := 0, ack := 0, peerAck := 0
    timeoutSituation := false, state := .offline, token := 0xffffffff
    securityToken := netSecurityTokenUnknown, sixup := false
    lastSendTime := 0, lastRecvTime := 0, connectAddrs := []
    unknownSeq := false, buffer := initBuffer, construct := .zero }

/-- `Init`.  The source leaves the address of the peer as it is. -/
def init (addr : Addr) : CNetConnection Addr :=
  { sequence := 0, ack := 0, peerAck := 0, state := .offline
    securityToken := netSecurityTokenUnknown, token := 0xffffffff, sixup := false
    unknownSeq := false, timeoutSituation := false, buffer := initBuffer, construct := .zero
    lastUpdateTime := 0, lastRecvTime := 0, lastSendTime := 0
    connectAddrs := [], peerAddr := addr, socket := [] }

/-- `DirectInit`. -/
def directInit (conn : CNetConnection Addr) (addr : Addr) (securityToken token : SecurityToken)
    (sixup : Bool) (now : ℤ) : CNetConnection Addr :=
  { conn.reset with
    state := .online, peerAddr := addr
    lastSendTime := now, lastRecvTime := now, lastUpdateTime := now
    securityToken := securityToken, token := token, sixup := sixup }

/-- The token check at the start of `Feed`: the packet without its token, and whether the
token is right. -/
def stripToken (conn : CNetConnection Addr) (packet : CNetPacketConstruct) : CNetPacketConstruct × Bool :=
  if !conn.sixup && conn.state ≠ .offline && conn.securityToken ≠ netSecurityTokenUnknown &&
      conn.securityToken ≠ netSecurityTokenUnsupported then
    -- supposed to have a valid token in this packet, check it
    if packet.dataSize < securityTokenSize then (packet, false)
    else
      let size := packet.dataSize - securityTokenSize
      ({ packet with chunkData := packet.chunkData.take size },
        conn.securityToken = toSecurityToken (packet.chunkData.drop size))
  else (packet, true)

/-- Check if actual ack value is valid (own sequence..latest peer ack). -/
def ackValid (sequence peerAck ack : ℕ) : Bool :=
  if sequence ≥ peerAck then !(ack < peerAck || ack > sequence)
  else !(ack < peerAck && ack > sequence)

/-- `SECURITY_TOKEN_MAGIC` and a token follow the control byte. -/
def hasMagic (packet : CNetPacketConstruct) : Bool :=
  1 + securityTokenMagic.length + securityTokenSize ≤ packet.dataSize &&
    (packet.chunkData.drop 1).take securityTokenMagic.length = securityTokenMagic

/-- The end of `Feed`. -/
def feedAck (conn : CNetConnection Addr) (ack : ℕ) (now : ℤ) : CNetConnection Addr :=
  if conn.state = .online then ({ conn with lastRecvTime := now }).ackChunks ack else conn

variable [DecidableEq Addr] (env : NetEnv Addr)

/-- The control messages of `Feed`; `false` is its result 0. -/
def feedControl (conn : CNetConnection Addr) (packet : CNetPacketConstruct) (addr : Addr)
    (responseToken : SecurityToken) (now : ℤ) : CNetConnection Addr × Bool :=
  let ctrlMsg := packet.chunkData.getD 0 0
  if ctrlMsg = netCtrlmsgClose then
    let isPeer : Bool := if conn.state ≠ .connect then conn.peerAddr = addr
      else conn.connectAddrs.contains addr
    (if isPeer then { conn with state := .error } else conn, false)
  else if ctrlMsg = netCtrlmsgToken then
    (if conn.state = .token then
      let conn := { conn with lastRecvTime := now, state := .connect, securityToken := responseToken }
      conn.sendControlWithToken7 netCtrlmsgConnect conn.securityToken now
    else conn, true)
  else
    match conn.state with
    | .offline =>
        if ctrlMsg = netCtrlmsgConnect then
          if env.sameNoPort conn.peerAddr addr && now - conn.lastUpdateTime < timeFreq * 3 then
            (conn, false)
          else
            -- send response and init connection
            let conn := { conn.reset with
              state := .pending, peerAddr := addr
              lastSendTime := now, lastRecvTime := now, lastUpdateTime := now
              securityToken := netSecurityTokenUnsupported }
            (conn.sendControl netCtrlmsgConnectaccept securityTokenMagic now, true)
        else (conn, true)
    | .connect =>
        -- connection made
        if ctrlMsg = netCtrlmsgConnectaccept then
          let conn := { conn with peerAddr := addr }
          let conn := if conn.securityToken = netSecurityTokenUnknown && hasMagic packet then
              { conn with securityToken :=
                  toSecurityToken (packet.chunkData.drop (1 + securityTokenMagic.length)) }
            else if !conn.sixup then { conn with securityToken := netSecurityTokenUnsupported }
            else conn
          let conn := if !conn.sixup then conn.sendControl netCtrlmsgAccept [] now else conn
          ({ conn with lastRecvTime := now, state := .online }, true)
        else (conn, true)
    | _ => (conn, true)

/-- `Feed` behind its checks: the ack, the resend request and the control message of a packet
that is accepted. -/
def feedAccepted (conn : CNetConnection Addr) (packet : CNetPacketConstruct) (addr : Addr)
    (responseToken : SecurityToken) (now : ℤ) : CNetConnection Addr × Bool :=
  let conn := { conn with peerAck := packet.ack }
  -- check if resend is requested
  let conn := if hasFlag packet.flags netPacketflagResend then conn.resend now else conn
  if hasFlag packet.flags netPacketflagControl then
    match conn.feedControl env packet addr responseToken now with
    | (conn, false) => (conn, false)
    | (conn, true) => (conn.feedAck packet.ack now, true)
  else
    let conn := if conn.state = .pending then
      { conn with lastRecvTime := now, state := .online } else conn
    (conn.feedAck packet.ack now, true)

/-- `Feed`: the connection, the packet without its token, and the result. -/
def feed (conn : CNetConnection Addr) (packet : CNetPacketConstruct) (addr : Addr)
    (securityToken responseToken : SecurityToken) (now : ℤ) :
    CNetConnection Addr × CNetPacketConstruct × Bool :=
  -- Disregard packets from the wrong address, unless we don't know our peer yet.
  if conn.state ≠ .offline && conn.state ≠ .connect && addr ≠ conn.peerAddr then (conn, packet, false)
  else
    match conn.stripToken packet with
    | (packet, false) => (conn, packet, false)
    | (packet, true) =>
        if conn.sixup && securityToken ≠ conn.token then (conn, packet, false)
        else if !ackValid conn.sequence conn.peerAck packet.ack then (conn, packet, false)
        else
          let fed := conn.feedAccepted env packet addr responseToken now
          (fed.1, packet, fed.2)

/-! ### Update -/

omit [DecidableEq Addr] in
/-- The part of `Update` that looks at the oldest chunk of the buffer. -/
def updateResend (conn : CNetConnection Addr) (now : ℤ) : CNetConnection Addr :=
  match conn.buffer.first.bind fun i => (conn.buffer.item i).value with
  | none => conn
  | some chunk =>
      -- check if we have some really old stuff laying around and abort if not acked
      if now - chunk.firstSendTime > timeFreq * env.connTimeout then
        { conn with state := .error, timeoutSituation := true }
      -- resend packet if we haven't got it acked in 1 second
      else if now - chunk.lastSendTime > timeFreq then
        let conn := conn.resendChunk chunk now
        { conn with buffer := conn.buffer.mapFirst fun chunk => { chunk with lastSendTime := now } }
      else conn

omit [DecidableEq Addr] in
/-- The part of `Update` that sends something if nothing has happened for some time. -/
def updateSend (conn : CNetConnection Addr) (now : ℤ) : CNetConnection Addr :=
  match conn.state with
  | .online =>
      -- flush connection after 500ms if needed
      let conn := if now - conn.lastSendTime > timeFreq / 2 then (conn.flush now).1 else conn
      if now - conn.lastSendTime > timeFreq then conn.sendControl netCtrlmsgKeepalive [] now else conn
  | .connect =>
      if now - conn.lastSendTime > timeFreq / 2 then conn.sendConnect now else conn
  | .pending =>
      if now - conn.lastSendTime > timeFreq / 2 then
        conn.sendControl netCtrlmsgConnectaccept securityTokenMagic now
      else conn
  | _ => conn

omit [DecidableEq Addr] in
/-- `Update`. -/
def update (conn : CNetConnection Addr) (now : ℤ) : CNetConnection Addr :=
  let conn := if conn.state = .error && conn.timeoutSituation &&
      now - conn.lastRecvTime > timeFreq * env.connTimeoutProtection then
    { conn with timeoutSituation := false } else conn
  if conn.state = .offline || conn.state = .error then conn
  else
    let conn := { conn with timeoutSituation := false }
    -- check for timeout
    let conn := if conn.state ≠ .connect && now - conn.lastRecvTime > timeFreq * env.connTimeout then
      { conn with state := .error, timeoutSituation := true } else conn
    (conn.updateResend env now).updateSend now

end CNetConnection

/-! ### The unpacker -/

/-- `CNetChunk`: the chunk that `FetchChunk` hands out. -/
structure CNetChunk where
  flags : ℕ
  data : List UInt8
deriving DecidableEq

/-- `CNetRecvUnpacker`. -/
structure CNetRecvUnpacker where
  valid : Bool
  data : CNetPacketConstruct
  currentChunk : ℕ

namespace CNetRecvUnpacker

variable {Addr : Type*}

/-- `Clear`. -/
def clear (unpacker : CNetRecvUnpacker) : CNetRecvUnpacker := { unpacker with valid := false }

/-- `Start`, with the packet that was unpacked into `m_Data`. -/
def start (packet : CNetPacketConstruct) : CNetRecvUnpacker := ⟨true, packet, 0⟩

/-- The data behind the first `n` chunks; `none` if there are not that many headers. -/
def skipChunks (split : ℕ) : ℕ → List UInt8 → Option (List UInt8)
  | 0, data => some data
  | n + 1, data =>
      match CNetChunkHeader.unpack split data with
      | none => none
      | some (header, rest) => skipChunks split n (rest.drop header.size)

/-- Handle sequence stuff: the connection, and whether the chunk is handed out. -/
def handleSequence (conn : CNetConnection Addr) (header : CNetChunkHeader) : CNetConnection Addr × Bool :=
  if CNetChunkHeader.isVital header.flags then
    -- anti spoof: ignore unknown sequence
    if header.sequence = ((conn.ack + 1) % netMaxSequence : ℕ) || conn.unknownSeq then
      -- in sequence
      ({ conn with unknownSeq := false, ack := header.sequence.toNat }, true)
    -- old packet that we already got
    else if isSeqInBackroom header.sequence conn.ack then (conn, false)
    -- out of sequence, request resend
    else (conn.signalResend, false)
  else (conn, true)

/-- `FetchChunk`.  A header that would lie behind the data ends the packet; the source reads
what is left in the buffer there. -/
def fetchChunk (unpacker : CNetRecvUnpacker) (conn : CNetConnection Addr) :
    CNetRecvUnpacker × CNetConnection Addr × Option CNetChunk :=
  -- check for old data to unpack
  if _ : unpacker.valid = false ∨ unpacker.data.numChunks ≤ unpacker.currentChunk then
    (unpacker.clear, conn, none)
  else
    match (skipChunks conn.split unpacker.currentChunk unpacker.data.chunkData).bind
        (CNetChunkHeader.unpack conn.split) with
    | none => (unpacker.clear, conn, none)
    | some (header, data) =>
        if header.size > data.length then (unpacker.clear, conn, none)
        else
          match handleSequence conn header with
          | (conn, true) =>
              ({ unpacker with currentChunk := unpacker.currentChunk + 1 }, conn,
                some ⟨header.flags, data.take header.size⟩)
          | (conn, false) => fetchChunk { unpacker with currentChunk := unpacker.currentChunk + 1 } conn
termination_by unpacker.data.numChunks - unpacker.currentChunk
decreasing_by omega

end CNetRecvUnpacker

end DDNet
