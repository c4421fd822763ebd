/-
The registry of the master server (`mastersrv/src/main.rs`).

`Servers` maps the address of a game server to what is known about the address, and the secret of a
game server to its addresses and its info.  A game server registers each of its addresses with a
request of its own; all requests of one server carry its secret.  A panic (`unwrap` of `None`, a
failed `assert!`, an index that is not there) is `none`.
-/
import Mathlib.Order.Lex
import Mathlib.Data.Prod.Lex
import Mathlib.Data.List.Sort
import Mathlib.Tactic.Linarith

namespace DDNet.Mastersrv

/-! ### Addresses (`addr.rs`) -/

inductive Protocol
  | v5 | v6 | v7
  deriving DecidableEq, Hashable

inductive IpAddr
  | v4 (octets : BitVec 32)
  | v6 (octets : BitVec 128)
  deriving DecidableEq, Hashable

structure Addr where
  ip : IpAddr
  port : UInt16
  protocol : Protocol
  deriving Hashable

def Protocol.rank : Protocol → ℕ
  | .v5 => 0
  | .v6 => 1
  | .v7 => 2

def IpAddr.rank : IpAddr → ℕ ×ₗ ℕ
  | .v4 octets => toLex (0, octets.toNat)
  | .v6 octets => toLex (1, octets.toNat)

/-- The fields in the order in which `derive(Ord)` compares them. -/
def Addr.rank (addr : Addr) : (ℕ ×ₗ ℕ) ×ₗ ℕ ×ₗ ℕ :=
  toLex (addr.ip.rank, toLex (addr.port.toNat, addr.protocol.rank))

lemma Protocol.rank_injective : Function.Injective Protocol.rank := by
  rintro (_ | _ | _) (_ | _ | _) h <;> first | rfl | exact absurd h (by decide)

lemma IpAddr.rank_injective : Function.Injective IpAddr.rank := by
  rintro (x | x) (y | y) h <;> simp only [IpAddr.rank, toLex_inj, Prod.mk.injEq] at h
  · rw [BitVec.eq_of_toNat_eq h.2]
  · omega
  · omega
  · rw [BitVec.eq_of_toNat_eq h.2]

lemma Addr.rank_injective : Function.Injective Addr.rank := by
  rintro ⟨ip, port, protocol⟩ ⟨ip', port', protocol'⟩ h
  simp only [Addr.rank, toLex_inj, Prod.mk.injEq] at h
  obtain ⟨hip, hport, hprotocol⟩ := h
  rw [IpAddr.rank_injective hip, UInt16.toNat_inj.mp hport, Protocol.rank_injective hprotocol]

instance : LinearOrder Addr := LinearOrder.lift' Addr.rank Addr.rank_injective

/-- The address in a register request: the server adds the IP address the request came from. -/
structure RegisterAddr where
  port : UInt16
  protocol : Protocol
  deriving DecidableEq

def RegisterAddr.withIp (address : RegisterAddr) (ip : IpAddr) : Addr := ⟨ip, address.port, address.protocol⟩

/-! ### The registry -/

/-- Time in milliseconds since the epoch of the timekeeper. -/
abbrev Timestamp := ℤ

/-- At most 64 bytes of text. -/
abbrev ShortString := String

/-- The text of a JSON value. -/
abbrev RawValue := String

inductive EntryKind
  | backcompat | mastersrv
  deriving DecidableEq

def EntryKind.rank : EntryKind → ℕ
  | .backcompat => 0
  | .mastersrv => 1

structure AddrInfo where
  kind : EntryKind
  pingTime : Timestamp
  location : Option String
  secret : ShortString
  deriving DecidableEq

structure Server where
  addresses : List Addr
  infoSerial : ℤ
  info : RawValue

structure Servers where
  addresses : Std.HashMap Addr AddrInfo
  servers : Std.HashMap ShortString Server

inductive AddResult
  | added | refreshed | needInfo | obsolete
  deriving DecidableEq

inductive RemoveResult
  | removed | notFound
  deriving DecidableEq

/-- What one registry writes to disk and another one merges. -/
structure DumpServer where
  infoSerial : ℤ
  info : RawValue

structure Dump where
  now : Timestamp
  addresses : Std.TreeMap Addr AddrInfo
  servers : Std.TreeMap ShortString DumpServer

namespace Dump

def new (now : Timestamp) (servers : Mastersrv.Servers) : Dump where
  now
  addresses := Std.TreeMap.ofList servers.addresses.toList
  servers := Std.TreeMap.ofList
    (servers.servers.toList.map fun (secret, server) => (secret, DumpServer.mk server.infoSerial server.info))

/-- `fixup_timestamps`: move all times to the epoch of the reader. -/
def fixupTimestamps (dump : Dump) (newNow : Timestamp) : Dump where
  now := newNow
  addresses := dump.addresses.map fun _ aInfo => { aInfo with pingTime := newNow + (aInfo.pingTime - dump.now) }
  servers := dump.servers

end Dump

/-- Take the address out of the list of the server with this secret, and the server out of the
registry when that was its last address. -/
def retainOthers (servers : Std.HashMap ShortString Server) (addr : Addr) (secret : ShortString) :
    Option (Std.HashMap ShortString Server) :=
  match servers[secret]? with
  | none => none
  | some server =>
    let addresses := server.addresses.filter (· ≠ addr)
    if addresses = [] then some (servers.erase secret)
    else some (servers.insert secret { server with addresses })

/-- The second half of `add`, on the entry of the secret: what stands there afterwards. -/
def enterEntry (entry : Option Server) (addr : Addr) (infoSerial : ℤ) (info : Option RawValue) (insertAddr : Bool) :
    Option Server :=
  match entry with
  | none =>
    match insertAddr, info with
    | true, some info => some ⟨[addr], infoSerial, info⟩
    | _, _ => none
  | some server =>
    let addresses := if insertAddr then (server.addresses ++ [addr]).mergeSort (· ≤ ·) else server.addresses
    if infoSerial > server.infoSerial then info.map fun info => ⟨addresses, infoSerial, info⟩
    else some { server with addresses }

def enterServer (servers : Std.HashMap ShortString Server) (addr : Addr) (secret : ShortString) (infoSerial : ℤ)
    (info : Option RawValue) (insertAddr : Bool) : Option (Std.HashMap ShortString Server) :=
  (enterEntry servers[secret]? addr infoSerial info insertAddr).map (servers.insert secret)

namespace Servers

def new : Servers := ⟨∅, ∅⟩

/-- Does `add` need the info: is the server unknown, or is the known info older? -/
def needInfo (s : Servers) (secret : ShortString) (infoSerial : ℤ) : Bool :=
  match s.servers[secret]? with
  | some entry => infoSerial > entry.infoSerial
  | none => true

def add (s : Servers) (addr : Addr) (aInfo : AddrInfo) (infoSerial : ℤ) (info : Option RawValue) :
    Option (AddResult × Servers) :=
  if s.needInfo aInfo.secret infoSerial && info.isNone then some (.needInfo, s)
  else
    match s.addresses[addr]? with
    | none => do
      let servers ← enterServer s.servers addr aInfo.secret infoSerial info true
      return (.added, ⟨s.addresses.insert addr aInfo, servers⟩)
    | some old =>
      -- Don't replace masterserver entries with stuff from backcompat.
      if aInfo.kind.rank < old.kind.rank then some (.obsolete, s)
      -- Don't replace address info with older one.
      else if aInfo.pingTime < old.pingTime then some (.obsolete, s)
      else if old.secret ≠ aInfo.secret then do
        let rest ← retainOthers s.servers addr old.secret
        let servers ← enterServer rest addr aInfo.secret infoSerial info true
        return (.added, ⟨s.addresses.insert addr aInfo, servers⟩)
      else do
        let servers ← enterServer s.servers addr aInfo.secret infoSerial info false
        return (.refreshed, ⟨s.addresses.insert addr aInfo, servers⟩)

def remove (s : Servers) (addr : Addr) (secret : ShortString) : Option (RemoveResult × Servers) :=
  match s.addresses[addr]? with
  | none => some (.notFound, s)
  | some aInfo =>
    if secret = aInfo.secret then do
      let servers ← retainOthers s.servers addr secret
      return (.removed, ⟨s.addresses.erase addr, servers⟩)
    else some (.notFound, s)

/-- One round of the second loop of `prune_before`. -/
def pruneAddr (s : Servers) (addr : Addr) : Option Servers := do
  let aInfo ← s.addresses[addr]?
  let servers ← retainOthers s.servers addr aInfo.secret
  return ⟨s.addresses.erase addr, servers⟩

/-- The addresses that `prune_before` collects, in the order of the hash map. -/
def timedOut (s : Servers) (time : Timestamp) : List (Addr × AddrInfo) :=
  s.addresses.toList.filter fun entry => entry.2.pingTime < time

def pruneBefore (s : Servers) (time : Timestamp) : Option Servers :=
  ((s.timedOut time).map (·.1)).foldlM pruneAddr s

/-- One round of the loop of `merge`. -/
def mergeAddr (other : Dump) (s : Servers) (entry : Addr × AddrInfo) : Option Servers := do
  let server ← other.servers[entry.2.secret]?
  let (_, s') ← s.add entry.1 entry.2 server.infoSerial (some server.info)
  return s'

def merge (s : Servers) (other : Dump) : Option Servers :=
  other.addresses.toList.foldlM (mergeAddr other) s

end Servers

/-! ### Register requests -/

/-- A register request; `Value` is the type of the parsed JSON values. -/
structure Register (Value : Type) where
  address : RegisterAddr
  secret : ShortString
  connlessRequestToken : Option ShortString
  challengeSecret : ShortString
  challengeToken : Option ShortString
  infoSerial : ℤ
  info : Option Value

structure Challenge where
  current : ShortString
  prev : ShortString

def Challenge.isValid (c : Challenge) (challenge : ShortString) : Bool :=
  challenge = c.current || challenge = c.prev

/-- What a request is handled with: the challenges, the locations and the clock, and what the JSON
and hex libraries do with its fields. -/
structure Shared (Value : Type) where
  challengeForAddr : Addr → Challenge
  lookup : IpAddr → Option String
  now : Timestamp
  decodeToSlice : ShortString → Except String (List UInt8)
  /-- The normalized text of a value, if the value is an object. -/
  rawObject : Value → Option RawValue

inductive RegisterResponse
  | success | needChallenge | needInfo
  deriving DecidableEq

structure RegisterError where
  isUnsupportedMediaType : Bool
  message : String
  deriving DecidableEq

/-- The packet of `send_challenge`. -/
def challengePacket (connlessRequestToken7 : Option (List UInt8)) (challengeSecret challenge : ShortString) :
    List UInt8 :=
  (match connlessRequestToken7 with
    | some t => 0x21 :: t ++ List.replicate 8 0xff
    | none => List.replicate 10 0xff)
  ++ "chal".toUTF8.toList ++ challengeSecret.toUTF8.toList ++ [0] ++ challenge.toUTF8.toList ++ [0]

/-- What comes of a request: the answer, the registry afterwards and the packet sent to the server. -/
structure RegisterOutcome where
  result : Except RegisterError RegisterResponse
  servers : Servers
  sent : Option (Addr × List UInt8)

variable {Value : Type}

def connlessToken (shared : Shared Value) (register : Register Value) : Except RegisterError (Option (List UInt8)) :=
  match register.address.protocol with
  | .v5 => .ok none
  | .v6 => .ok none
  | .v7 =>
    match register.connlessRequestToken with
    | none => .error ⟨false, "registering with tw-0.7+udp:// requires header Connless-Token"⟩
    | some tokenHex =>
      match shared.decodeToSlice tokenHex with
      | .ok token => .ok (some token)
      | .error e => .error ⟨false, "invalid hex in Connless-Request-Token: " ++ e⟩

def rawInfo (shared : Shared Value) (register : Register Value) : Except RegisterError (Option RawValue) :=
  match register.info with
  | none => .ok none
  | some i =>
    match shared.rawObject i with
    | some raw => .ok (some raw)
    | none => .error ⟨false, "register info must be an object"⟩

/-- The entry a request makes for its address. -/
def registerInfo (shared : Shared Value) (addr : Addr) (register : Register Value) : AddrInfo where
  kind := .mastersrv
  pingTime := shared.now
  location := shared.lookup addr.ip
  secret := register.secret

/-- The branch of `handle_register` for a correct challenge. -/
def enterRegister (s : Servers) (shared : Shared Value) (addr : Addr) (register : Register Value) :
    Option (Except RegisterError RegisterResponse × Servers) :=
  match rawInfo shared register with
  | .error e => some (.error e, s)
  | .ok raw => do
    let (addResult, s') ← s.add addr (registerInfo shared addr register) register.infoSerial raw
    return (.ok (if addResult = .needInfo then .needInfo else .success), s')

def correctChallenge (challenge : Challenge) (register : Register Value) : Bool :=
  (register.challengeToken.map challenge.isValid).getD false

def shouldSendChallenge (challenge : Challenge) (register : Register Value) : Bool :=
  (register.challengeToken.map fun ct => decide (ct ≠ challenge.current)).getD true

def handleRegister (s : Servers) (shared : Shared Value) (remoteAddr : IpAddr) (register : Register Value) :
    Option RegisterOutcome :=
  match connlessToken shared register with
  | .error e => some ⟨.error e, s, none⟩
  | .ok connlessRequestToken7 => do
    let addr := register.address.withIp remoteAddr
    let challenge := shared.challengeForAddr addr
    let (result, s') ←
      if correctChallenge challenge register then enterRegister s shared addr register
      else some (.ok .needChallenge, s)
    match result with
    | .error e => return ⟨.error e, s', none⟩
    | .ok response =>
      let packet := challengePacket connlessRequestToken7 register.challengeSecret challenge.current
      return ⟨.ok response, s', if shouldSendChallenge challenge register then some (addr, packet) else none⟩

/-! ### Sequences of calls -/

/-- What can be asked of the registry. -/
inductive Call (Value : Type)
  | add (addr : Addr) (aInfo : AddrInfo) (infoSerial : ℤ) (info : Option RawValue)
  | remove (addr : Addr) (secret : ShortString)
  | pruneBefore (time : Timestamp)
  | merge (other : Dump)
  | register (shared : Shared Value) (remoteAddr : IpAddr) (request : Register Value)

def Servers.exec (s : Servers) : Call Value → Option Servers
  | .add addr aInfo infoSerial info => (s.add addr aInfo infoSerial info).map (·.2)
  | .remove addr secret => (s.remove addr secret).map (·.2)
  | .pruneBefore time => s.pruneBefore time
  | .merge other => s.merge other
  | .register shared remoteAddr request => (handleRegister s shared remoteAddr request).map (·.servers)

def Servers.run (s : Servers) (calls : List (Call Value)) : Option Servers := calls.foldlM Servers.exec s

end DDNet.Mastersrv
