/-
Snapshots on their way to a client (`CServer::DoSnapshot`, `CClient::ProcessServerPacket`).

The server sends a snapshot as its difference to the last one that the client has acknowledged.  The parts of it may get
lost, arrive late or several times, and so may the acknowledgements.  Whatever the network does, the client never stores
anything but the snapshot that the server took at the tick (`snapshots_agree`), and it does store it once all parts have
arrived in any order, if it still has the snapshot that the difference is to (`snapshot_arrives`), which it always has if
the acknowledgements arrive in order (`deltashot_held`).
-/
import DDNet.Base.Memory
import DDNet.Server.SnapParts
import DDNet.Shared.SnapshotDelta

namespace DDNet

/-! ### The storage -/

/-- The list of a `CSnapshotStorage`: ticks and snapshots, the first one first. -/
abbrev SnapHolders := List (ℤ × CSnapshot)

namespace SnapHolders

/-- `PurgeUntil` stops at the first holder that is not old enough. -/
def purgeUntil (holders : SnapHolders) (tick : ℤ) : SnapHolders := holders.dropWhile fun holder => holder.1 < tick

def add (holders : SnapHolders) (tick : ℤ) (snap : CSnapshot) : SnapHolders := holders ++ [(tick, snap)]

def get (holders : SnapHolders) (tick : ℤ) : Option CSnapshot :=
  (holders.find? fun holder => holder.1 = tick).map Prod.snd

end SnapHolders

/-! ### The server -/

def serverTickSpeed : ℤ := 50

/-- What the server has for a client. -/
structure SnapServer where
  currentGameTick : ℤ
  lastAckedSnapshot : ℤ
  snapshots : SnapHolders

namespace SnapServer

/-- The snapshot is saved at the current tick, without those that are older than 3 seconds. -/
def save (s : SnapServer) (data : CSnapshot) : SnapServer :=
  { s with snapshots := (s.snapshots.purgeUntil (s.currentGameTick - serverTickSpeed * 3)).add s.currentGameTick data }

/-- The tick and the snapshot that the delta is made against. -/
def deltashot (s : SnapServer) : ℤ × CSnapshot :=
  match s.snapshots.get s.lastAckedSnapshot with
  | some shot => (s.lastAckedSnapshot, shot)
  | none => (-1, [])

end SnapServer

/-- A snapshot that was sent. -/
structure SentSnap where
  tick : ℤ
  deltaTick : ℤ
  deltashot : CSnapshot
  data : CSnapshot

/-! ### The client -/

/-- What a client has for a connection. -/
structure SnapClient where
  snapshotStorage : SnapHolders
  currentRecvTick : ℤ
  ackGameTick : ℤ
  snapshotParts : BitVec 64
  snapshotIncomingData : List UInt8
  snapshotIncomingDataSize : ℤ
  snapCrcErrors : ℕ

namespace SnapMsg

def gameTick : SnapMsg → ℤ
  | .snap gameTick _ _ _ _ _ _ => gameTick
  | .snapSingle gameTick _ _ _ _ => gameTick
  | .snapEmpty gameTick _ => gameTick

/-- The message has the distance to the tick. -/
def deltaTick : SnapMsg → ℤ
  | .snap gameTick deltaTick _ _ _ _ _ => gameTick - deltaTick
  | .snapSingle gameTick deltaTick _ _ _ => gameTick - deltaTick
  | .snapEmpty gameTick deltaTick => gameTick - deltaTick

/-- The checksum, none for `NETMSG_SNAPEMPTY`. -/
def crc? : SnapMsg → Option (BitVec 32)
  | .snap _ _ _ _ crc _ _ => some crc
  | .snapSingle _ _ crc _ _ => some crc
  | .snapEmpty _ _ => none

end SnapMsg

namespace SnapClient

open CSnapshot (maxParts maxSize totalSize isValid)

def initial : SnapClient where
  snapshotStorage := []
  currentRecvTick := 0
  ackGameTick := -1
  snapshotParts := 0
  snapshotIncomingData := List.replicate maxSize 0
  snapshotIncomingDataSize := 0
  snapCrcErrors := 0

/-- A part of another tick starts over. -/
def startTick (c : SnapClient) (gameTick : ℤ) : SnapClient :=
  if gameTick = c.currentRecvTick then c
  else { c with snapshotParts := 0, currentRecvTick := gameTick, snapshotIncomingDataSize := 0 }

/-- A part is copied to its place; `none` if it does not fit there. -/
def receivePart (c : SnapClient) (msg : SnapMsg) : Option SnapClient :=
  let c := c.startTick msg.gameTick
  let size := max 0 (min msg.partSize ((maxSize : ℤ) - msg.part * maxSnapshotPackSize))
  (writeBytes c.snapshotIncomingData (msg.part * maxSnapshotPackSize).toNat (msg.data.take size.toNat)).map fun data =>
    { c with
      snapshotIncomingData := data
      snapshotParts := c.snapshotParts ||| 1#64 <<< msg.part.toNat
      snapshotIncomingDataSize :=
        if msg.part = msg.numParts - 1 then (msg.numParts - 1) * maxSnapshotPackSize + msg.partSize
        else c.snapshotIncomingDataSize }

/-- All parts have arrived. -/
def complete (c : SnapClient) (numParts : ℤ) : Bool :=
  numParts < maxParts && c.snapshotParts = 1#64 <<< numParts.toNat - 1 ||
    numParts = maxParts && c.snapshotParts = BitVec.allOnes 64

/-- The ints of the delta; `none` if they cannot be decompressed. -/
def deltaData (c : SnapClient) : Option (List (BitVec 32)) :=
  if c.snapshotIncomingDataSize = 0 then some [0, 0, 0]
  else CVariableInt.decompress (c.snapshotIncomingData.take c.snapshotIncomingDataSize.toNat) (maxSize / 4)

/-- What is done with an unpacked snapshot.  `shown` has the ticks of the snapshots that the game still uses, and
`validates` says if `UnpackAndValidateSnapshot` succeeds.  `SendInput` after a reset is a step of its own. -/
def takeSnapshot (c : SnapClient) (msg : SnapMsg) (shown : List ℤ) (validates : Bool) (snap : CSnapshot) : SnapClient :=
  if msg.crc?.any (· ≠ snap.crc) then
    if 10 < c.snapCrcErrors + 1 then { c with ackGameTick := -1, snapCrcErrors := 0 }
    else { c with snapCrcErrors := c.snapCrcErrors + 1 }
  else
    let c := { c with
      snapCrcErrors := c.snapCrcErrors - 1
      snapshotStorage := c.snapshotStorage.purgeUntil (shown.foldl min msg.deltaTick) }
    if validates then
      { c with snapshotStorage := c.snapshotStorage.add msg.gameTick snap, ackGameTick := msg.gameTick }
    else c

/-- All parts have arrived; `none` if `UnpackDelta` accesses memory outside of an item. -/
def unpackSnapshot (itemSizes : ℤ → ℤ) (c : SnapClient) (msg : SnapMsg) (shown : List ℤ) (validates : Bool) :
    Option SnapClient :=
  let c := { c with snapshotParts := 0 }
  match if 0 ≤ msg.deltaTick then c.snapshotStorage.get msg.deltaTick else some [] with
  -- the server has to send a whole snapshot
  | none => some { c with ackGameTick := -1 }
  | some deltaShot =>
    match c.deltaData with
    | none => some c
    | some delta =>
      (CSnapshotDelta.unpackDelta itemSizes deltaShot delta).map fun
        | .error _ => c
        | .ok snap => if isValid snap (totalSize snap) then c.takeSnapshot msg shown validates snap else c

/-- `ProcessServerPacket` for a message with a snapshot. -/
def recvSnap (itemSizes : ℤ → ℤ) (c : SnapClient) (msg : SnapMsg) (shown : List ℤ) (validates : Bool) :
    Option SnapClient :=
  if msg.accepted && c.currentRecvTick ≤ msg.gameTick && c.ackGameTick < msg.gameTick then
    (c.receivePart msg).bind fun c =>
      if c.complete msg.numParts then unpackSnapshot itemSizes c msg shown validates else some c
  else some c

end SnapClient

/-! ### Runs -/

/-- The server, the client and what was sent so far. -/
structure SnapWorld where
  server : SnapServer
  client : SnapClient
  sent : List SentSnap
  acks : List ℤ

inductive SnapEvent
  /-- So many ticks pass, and the snapshot is sent. -/
  | doSnapshot (ticks : ℕ) (data : CSnapshot)
  | recvSnap (msg : SnapMsg) (shown : List ℤ) (validates : Bool)
  | sendInput
  | recvInput (lastAckedSnapshot : ℤ)

namespace SnapWorld

variable (itemSizes : ℤ → ℤ)

def initial : SnapWorld := ⟨⟨0, -1, []⟩, .initial, [], []⟩

/-- The messages that were sent for a snapshot. -/
def msgsOf (r : SentSnap) : List SnapMsg := sendSnapshot itemSizes r.tick r.deltaTick r.deltashot r.data

/-- The server when it has saved the next snapshot. -/
def saved (w : SnapWorld) (ticks : ℕ) (data : CSnapshot) : SnapServer :=
  { w.server with currentGameTick := w.server.currentGameTick + ticks }.save data

/-- A step; `none` if the client accesses memory outside of an item. -/
def step (w : SnapWorld) : SnapEvent → Option SnapWorld
  | .doSnapshot ticks data =>
    let server := w.saved ticks data
    some { w with
      server
      sent := w.sent ++ [⟨server.currentGameTick, server.deltashot.1, server.deltashot.2, data⟩] }
  | .recvSnap msg shown validates =>
    (w.client.recvSnap itemSizes msg shown validates).map fun client => { w with client }
  | .sendInput => some { w with acks := w.client.ackGameTick :: w.acks }
  | .recvInput lastAckedSnapshot => some { w with server := { w.server with lastAckedSnapshot } }

end SnapWorld

/-! ### What the server may send -/

/-- A snapshot whose difference is unpacked to it: it is well formed, the sizes of its items follow from their keys, the
hash lists lose none of them, and there is room for the delta in the buffer of the server. -/
structure Sendable (itemSizes : ℤ → ℤ) (sizeOf : BitVec 32 → ℕ) (deltashot data : CSnapshot) : Prop where
  keyed : CSnapshotDelta.Keyed data
  size : ∀ item ∈ data, item.data.length = sizeOf item.key
  static : ∀ item ∈ data, CSnapshotDelta.includeSize itemSizes item = false →
    itemSizes item.type = 4 * item.data.length
  survives : CSnapshotDelta.Survives deltashot data
  room : ∀ delta, CSnapshotDelta.createDelta itemSizes deltashot data = some delta →
    4 * delta.length ≤ CSnapshot.maxSize

namespace SnapWorld

variable (itemSizes : ℤ → ℤ) (sizeOf : BitVec 32 → ℕ)

/-- Ticks go by between two snapshots, and only what was sent arrives. -/
def Enabled (w : SnapWorld) : SnapEvent → Prop
  | .doSnapshot ticks data => 0 < ticks ∧ Sendable itemSizes sizeOf (w.saved ticks data).deltashot.2 data
  | .recvSnap msg _ _ => ∃ r ∈ w.sent, msg ∈ msgsOf itemSizes r
  | .sendInput => True
  | .recvInput lastAckedSnapshot => lastAckedSnapshot ∈ w.acks

inductive Reachable : SnapWorld → Prop
  | initial : Reachable initial
  | step {w w' : SnapWorld} {e : SnapEvent} (h : Reachable w) (henabled : Enabled itemSizes sizeOf w e)
      (hstep : w.step itemSizes e = some w') : Reachable w'

end SnapWorld

/-! ### Holders -/

namespace SnapHolders

variable {holders : SnapHolders} {tick : ℤ} {snap : CSnapshot}

lemma mem_of_mem_purgeUntil {holder : ℤ × CSnapshot} (h : holder ∈ holders.purgeUntil tick) : holder ∈ holders :=
  (List.dropWhile_suffix _).subset h

lemma mem_of_get (h : holders.get tick = some snap) : (tick, snap) ∈ holders := by
  obtain ⟨holder, hfind, rfl⟩ := Option.map_eq_some_iff.1 h
  have htick : holder.1 = tick := by simpa using List.find?_some hfind
  rw [← htick]
  exact List.mem_of_find?_eq_some hfind

lemma pairwise_purgeUntil (tick : ℤ) {R : ℤ × CSnapshot → ℤ × CSnapshot → Prop} (h : holders.Pairwise R) :
    (holders.purgeUntil tick).Pairwise R :=
  h.sublist (List.dropWhile_sublist _)

/-- What is not older than the tick stays. -/
lemma mem_purgeUntil {holder : ℤ × CSnapshot} (h : holder ∈ holders) (htick : tick ≤ holder.1) :
    holder ∈ holders.purgeUntil tick := by
  rw [purgeUntil]
  rw [← List.takeWhile_append_dropWhile (p := fun holder : ℤ × CSnapshot => decide (holder.1 < tick)) (l := holders),
    List.mem_append] at h
  refine h.resolve_left fun hmem => ?_
  have hlt := List.mem_takeWhile_imp hmem
  simp only [decide_eq_true_eq] at hlt
  omega

/-- With different ticks each holder is found. -/
lemma get_of_mem (hticks : holders.Pairwise fun a b => a.1 < b.1) (h : (tick, snap) ∈ holders) :
    holders.get tick = some snap := by
  induction holders with
  | nil => cases h
  | cons holder rest ih =>
    rw [List.pairwise_cons] at hticks
    rw [get, List.find?_cons]
    rcases List.mem_cons.1 h with rfl | hrest
    · simp
    · have hlt := hticks.1 _ hrest
      simp only at hlt
      rw [show decide (holder.1 = tick) = false by simp; omega]
      exact ih hticks.2 hrest

end SnapHolders

/-! ### Parts -/

namespace SentSnap

variable (itemSizes : ℤ → ℤ)

/-- The packed delta. -/
def comp (r : SentSnap) : List UInt8 :=
  match CSnapshotDelta.createDelta itemSizes r.deltashot r.data with
  | none => []
  | some delta => CVariableInt.packedInts delta

def numParts (r : SentSnap) : ℕ := max 1 (partsOf (r.comp itemSizes).length)

/-- The message is the `k`-th part of the snapshot. -/
structure IsPart (r : SentSnap) (k : ℕ) (msg : SnapMsg) : Prop where
  lt : k < r.numParts itemSizes
  gameTick : msg.gameTick = r.tick
  deltaTick : msg.deltaTick = r.deltaTick
  numParts : msg.numParts = r.numParts itemSizes
  part : msg.part = k
  partSize : msg.partSize = min (maxSnapshotPackSize : ℤ) ((r.comp itemSizes).length - k * maxSnapshotPackSize : ℕ)
  data : msg.data = ((r.comp itemSizes).drop (k * maxSnapshotPackSize)).take maxSnapshotPackSize
  crc : msg.crc? = (CSnapshotDelta.createDelta itemSizes r.deltashot r.data).map fun _ => r.data.crc

end SentSnap

/-- The parts are numbered. -/
lemma snapParts_eq {gameTick deltaTick : ℤ} {crc : BitVec 32} {compData : List UInt8} {numPackets : ℕ} (left : ℕ) :
    ∀ n, snapParts gameTick deltaTick crc compData numPackets n left =
      (List.range (partsOf left)).map fun k =>
        nextPart gameTick deltaTick crc compData numPackets (n + k) (left - k * maxSnapshotPackSize) := by
  induction left using Nat.strong_induction_on with
  | _ left ih =>
    intro n
    by_cases h : left = 0
    · subst h
      rw [snapParts_zero]
      rfl
    · have hpos : 0 < maxSnapshotPackSize := by decide
      rw [snapParts_pos h, ih _ (by omega), partsOf_pos h, List.range_succ_eq_map, List.map_cons, List.map_map]
      refine congrArg₂ _ (by simp) (List.map_congr_left fun k _ => ?_)
      have hleft : left - min left maxSnapshotPackSize - k * maxSnapshotPackSize =
          left - (k + 1) * maxSnapshotPackSize := by
        rw [Nat.succ_mul]
        omega
      rw [Function.comp_apply, hleft, Nat.succ_eq_add_one, show n + 1 + k = n + (k + 1) by omega]

lemma mul_lt_of_lt_partsOf {left k : ℕ} (h : k < partsOf left) : k * maxSnapshotPackSize < left := by
  simp only [partsOf, maxSnapshotPackSize] at h ⊢
  omega

namespace SentSnap

variable {itemSizes : ℤ → ℤ} {r : SentSnap} {msg : SnapMsg} {k : ℕ}

lemma isPart_empty (h : CSnapshotDelta.createDelta itemSizes r.deltashot r.data = none) :
    r.IsPart itemSizes 0 (.snapEmpty r.tick (r.tick - r.deltaTick)) := by
  have hcomp : r.comp itemSizes = [] := by rw [comp, h]
  have hparts : r.numParts itemSizes = 1 := by rw [numParts, hcomp]; rfl
  exact
    { lt := by omega
      gameTick := rfl
      deltaTick := by rw [SnapMsg.deltaTick]; omega
      numParts := by rw [hparts]; rfl
      part := rfl
      partSize := by rw [hcomp]; rfl
      data := by rw [hcomp]; rfl
      crc := by rw [h]; rfl }

lemma comp_length_pos {delta : List (BitVec 32)}
    (h : CSnapshotDelta.createDelta itemSizes r.deltashot r.data = some delta) : 0 < (r.comp itemSizes).length := by
  have hdelta := List.length_pos_of_ne_nil (CSnapshotDelta.createDelta_ne_nil itemSizes h)
  have hle := CVariableInt.length_le_packedInts delta
  rw [comp, h]
  exact hdelta.trans_le hle

lemma numParts_eq {delta : List (BitVec 32)}
    (h : CSnapshotDelta.createDelta itemSizes r.deltashot r.data = some delta) :
    r.numParts itemSizes = partsOf (r.comp itemSizes).length := by
  have hpos := partsOf_pos (Nat.ne_of_gt (comp_length_pos h))
  rw [numParts]
  omega

lemma isPart_nextPart {delta : List (BitVec 32)}
    (h : CSnapshotDelta.createDelta itemSizes r.deltashot r.data = some delta)
    (hk : k < partsOf (r.comp itemSizes).length) :
    r.IsPart itemSizes k (nextPart r.tick r.deltaTick r.data.crc (r.comp itemSizes)
      (partsOf (r.comp itemSizes).length) k ((r.comp itemSizes).length - k * maxSnapshotPackSize)) := by
  have hparts := numParts_eq h
  have htake : ((r.comp itemSizes).drop (k * maxSnapshotPackSize)).take
      (min ((r.comp itemSizes).length - k * maxSnapshotPackSize) maxSnapshotPackSize) =
        ((r.comp itemSizes).drop (k * maxSnapshotPackSize)).take maxSnapshotPackSize := by
    rw [← List.length_drop, min_comm, ← List.take_eq_take_min]
  have hdelta := Int.sub_sub_self r.tick r.deltaTick
  have hsize : ((min ((r.comp itemSizes).length - k * maxSnapshotPackSize) maxSnapshotPackSize : ℕ) : ℤ) =
      min (maxSnapshotPackSize : ℤ) ((r.comp itemSizes).length - k * maxSnapshotPackSize : ℕ) := by
    rw [min_comm, Nat.cast_min]
  rw [nextPart, htake]
  split_ifs with hone
  · obtain rfl : k = 0 := by omega
    exact ⟨by omega, rfl, hdelta, by rw [hparts, hone]; rfl, rfl, hsize, rfl, by rw [h]; rfl⟩
  · exact ⟨by omega, rfl, hdelta, by rw [hparts]; rfl, rfl, hsize, rfl, by rw [h]; rfl⟩

/-- The messages of a snapshot are its parts, or there are none because the packed delta is too long. -/
lemma msgsOf_cases (r : SentSnap) :
    (∀ msg ∈ SnapWorld.msgsOf itemSizes r, ∃ k, r.IsPart itemSizes k msg) ∧
      ((r.comp itemSizes).length ≤ CSnapshot.maxSize → ∀ k < r.numParts itemSizes,
        ∃ msg ∈ SnapWorld.msgsOf itemSizes r, r.IsPart itemSizes k msg) := by
  rw [SnapWorld.msgsOf, sendSnapshot]
  cases h : CSnapshotDelta.createDelta itemSizes r.deltashot r.data with
  | none =>
    have hcomp : r.comp itemSizes = [] := by rw [comp, h]
    have hparts : r.numParts itemSizes = 1 := by rw [numParts, hcomp]; rfl
    refine ⟨fun msg hmsg => ⟨0, ?_⟩, fun _ k hk => ⟨_, List.mem_singleton_self _, ?_⟩⟩
    · rw [List.mem_singleton.1 hmsg]
      exact isPart_empty h
    · obtain rfl : k = 0 := by omega
      exact isPart_empty h
  | some delta =>
    have hcomp : CVariableInt.packedInts delta = r.comp itemSizes := by rw [comp, h]
    rw [sendDelta, CVariableInt.compress_eq delta (by decide), hcomp]
    by_cases hroom : ((r.comp itemSizes).length : ℤ) ≤ CSnapshot.maxSize
    · rw [if_pos hroom]
      dsimp only
      rw [← partsOf, snapParts_eq]
      refine ⟨fun msg hmsg => ?_, fun _ k hk => ?_⟩
      · obtain ⟨k, hk, rfl⟩ := List.mem_map.1 hmsg
        rw [Nat.zero_add]
        exact ⟨k, isPart_nextPart h (List.mem_range.1 hk)⟩
      · rw [numParts_eq h] at hk
        refine ⟨_, List.mem_map.2 ⟨k, List.mem_range.2 hk, rfl⟩, ?_⟩
        rw [Nat.zero_add]
        exact isPart_nextPart h hk
    · rw [if_neg hroom]
      exact ⟨fun msg hmsg => absurd hmsg List.not_mem_nil, fun hle => absurd (by exact_mod_cast hle) hroom⟩

lemma numParts_pos (itemSizes : ℤ → ℤ) (r : SentSnap) : 0 < r.numParts itemSizes :=
  lt_of_lt_of_le Nat.one_pos (le_max_left _ _)

/-- Only as many parts as are needed. -/
lemma length_comp_le (itemSizes : ℤ → ℤ) (r : SentSnap) :
    (r.comp itemSizes).length ≤ r.numParts itemSizes * maxSnapshotPackSize ∧
      (r.numParts itemSizes - 1) * maxSnapshotPackSize ≤ (r.comp itemSizes).length := by
  rw [numParts, partsOf, maxSnapshotPackSize]
  omega

/-- A part is accepted if and only if a client takes so many parts. -/
lemma IsPart.accepted_iff (h : r.IsPart itemSizes k msg) :
    msg.accepted = true ↔ r.numParts itemSizes ≤ CSnapshot.maxParts := by
  have hlt := h.lt
  rw [SnapMsg.accepted_iff, h.partSize, h.numParts, h.part, h.data, List.length_take, List.length_drop]
  push_cast
  omega

end SentSnap

/-! ### Putting the parts together -/

/-- What a buffer holds after bytes are written to it. -/
lemma getElem?_writeBytes {buffer buffer' bytes : List UInt8} {pos : ℕ} (h : writeBytes buffer pos bytes = some buffer')
    (i : ℕ) : buffer'[i]? = if pos ≤ i ∧ i < pos + bytes.length then bytes[i - pos]? else buffer[i]? := by
  rw [writeBytes] at h
  split_ifs at h with hle
  obtain rfl := Option.some.inj h
  have hpos : (buffer.take pos).length = pos := by
    rw [List.length_take]
    omega
  by_cases hi : i < pos
  · rw [if_neg (by omega), List.getElem?_append_left (by omega), List.getElem?_take_of_lt hi]
  · rw [List.getElem?_append_right (by omega), hpos]
    by_cases hin : i < pos + bytes.length
    · rw [if_pos ⟨by omega, hin⟩, List.getElem?_append_left (by omega)]
    · rw [if_neg (by omega), List.getElem?_append_right (by omega), List.getElem?_drop]
      congr 1
      omega

namespace SnapClient

open CSnapshot (maxSize)

variable {itemSizes : ℤ → ℤ} {c c' : SnapClient} {r : SentSnap} {msg : SnapMsg} {k : ℕ}

/-- The parts that have arrived are those of the snapshot. -/
structure Gathered (itemSizes : ℤ → ℤ) (c : SnapClient) (r : SentSnap) : Prop where
  lt : ∀ k, c.snapshotParts.getLsbD k = true → k < r.numParts itemSizes
  data : ∀ k, c.snapshotParts.getLsbD k = true → ∀ i < maxSnapshotPackSize,
    k * maxSnapshotPackSize + i < (r.comp itemSizes).length →
      c.snapshotIncomingData[k * maxSnapshotPackSize + i]? = (r.comp itemSizes)[k * maxSnapshotPackSize + i]?
  size : c.snapshotParts.getLsbD (r.numParts itemSizes - 1) = true →
    c.snapshotIncomingDataSize = (r.comp itemSizes).length

lemma getLsbD_one_shiftLeft {k : ℕ} (hk : k < 64) (i : ℕ) : (1#64 <<< k).getLsbD i = decide (i = k) := by
  rw [← BitVec.twoPow_eq, BitVec.getLsbD_twoPow, decide_eq_true hk, Bool.true_and]
  simp only [eq_comm]

/-- The parts are complete if all of them are there. -/
lemma complete_iff {n : ℕ} (hn : n ≤ CSnapshot.maxParts) (hlt : ∀ k, c.snapshotParts.getLsbD k = true → k < n) :
    c.complete n = true ↔ ∀ k < n, c.snapshotParts.getLsbD k = true := by
  rw [CSnapshot.maxParts] at hn
  have hmask : c.complete n = true ↔ c.snapshotParts.toNat = 2 ^ n - 1 := by
    rw [complete, CSnapshot.maxParts, Bool.or_eq_true, Bool.and_eq_true, Bool.and_eq_true, decide_eq_true_eq,
      decide_eq_true_eq, decide_eq_true_eq, decide_eq_true_eq, Int.toNat_natCast]
    rcases Nat.lt_or_eq_of_le hn with hlt | rfl
    · have hone : (1#64 <<< n).toNat = 2 ^ n := by
        rw [← BitVec.twoPow_eq, BitVec.toNat_twoPow_of_lt hlt]
      have hsub : (1#64 <<< n - 1#64).toNat = 2 ^ n - 1 := by
        rw [BitVec.toNat_sub_of_le, hone]
        · rfl
        · rw [BitVec.le_def, hone]
          exact Nat.one_le_two_pow
      rw [← hsub, BitVec.toNat_inj, or_iff_left (by omega), and_iff_right (by omega)]
      rfl
    · rw [or_iff_right (by omega), and_iff_right rfl, ← BitVec.toNat_inj, BitVec.toNat_allOnes]
  rw [hmask]
  constructor
  · intro h k hk
    rw [BitVec.getLsbD, h, Nat.testBit_two_pow_sub_one, decide_eq_true hk]
  · intro h
    refine Nat.eq_of_testBit_eq fun k => ?_
    rw [Nat.testBit_two_pow_sub_one]
    by_cases hk : k < n
    · rw [decide_eq_true hk]
      exact h k hk
    · rw [decide_eq_false hk]
      exact Bool.eq_false_iff.2 fun hbit => hk (hlt k hbit)

/-- The client when a part has come in. -/
structure Received (c : SnapClient) (itemSizes : ℤ → ℤ) (r : SentSnap) (k : ℕ) (c' : SnapClient) : Prop where
  gathered : c'.Gathered itemSizes r
  bits : ∀ i, c'.snapshotParts.getLsbD i =
    (decide (c.currentRecvTick = r.tick) && c.snapshotParts.getLsbD i || decide (i = k))
  buffer : c'.snapshotIncomingData.length = maxSize
  same : c' = { c with
    currentRecvTick := r.tick
    snapshotParts := c'.snapshotParts
    snapshotIncomingData := c'.snapshotIncomingData
    snapshotIncomingDataSize := c'.snapshotIncomingDataSize }

/-- What a part brings. -/
lemma length_piece (hmsg : r.IsPart itemSizes k msg) :
    (msg.data.length : ℤ) = msg.partSize ∧ msg.data.length ≤ maxSnapshotPackSize := by
  rw [hmsg.data, hmsg.partSize, List.length_take, List.length_drop]
  exact ⟨Nat.cast_min _ _, Nat.min_le_left _ _⟩

lemma startTick_bits (c : SnapClient) (gameTick : ℤ) (i : ℕ) :
    (c.startTick gameTick).snapshotParts.getLsbD i =
      (decide (c.currentRecvTick = gameTick) && c.snapshotParts.getLsbD i) := by
  rw [startTick]
  split_ifs with htick
  · simp [htick]
  · simp [Ne.symm htick]

lemma startTick_eq (c : SnapClient) (gameTick : ℤ) :
    c.startTick gameTick = { c with
      currentRecvTick := gameTick
      snapshotParts := (c.startTick gameTick).snapshotParts
      snapshotIncomingDataSize := (c.startTick gameTick).snapshotIncomingDataSize } := by
  rw [startTick]
  split_ifs with htick
  · rw [htick]
  · rfl

/-- A part of a snapshot is received. -/
lemma receivePart_spec (hmsg : r.IsPart itemSizes k msg) (hparts : r.numParts itemSizes ≤ CSnapshot.maxParts)
    (hbuffer : c.snapshotIncomingData.length = maxSize) (hc : c.currentRecvTick = r.tick → c.Gathered itemSizes r) :
    ∃ c', c.receivePart msg = some c' ∧ c.Received itemSizes r k c' := by
  have hk := hmsg.lt
  obtain ⟨hsize, hle⟩ := length_piece hmsg
  rw [CSnapshot.maxParts] at hparts
  have htake : msg.data.take (max 0 (min msg.partSize ((maxSize : ℤ) - msg.part * maxSnapshotPackSize))).toNat =
      msg.data := by
    refine List.take_of_length_le ?_
    rw [hmsg.part, ← hsize, CSnapshot.maxSize_eq, maxSnapshotPackSize]
    rw [maxSnapshotPackSize] at hle
    omega
  have hpos : (msg.part * maxSnapshotPackSize).toNat = k * maxSnapshotPackSize := by
    rw [hmsg.part]
    omega
  obtain ⟨data, hwrite⟩ : ∃ data, writeBytes c.snapshotIncomingData (k * maxSnapshotPackSize) msg.data = some data := by
    rw [writeBytes, if_pos]
    · exact ⟨_, rfl⟩
    · rw [hbuffer, CSnapshot.maxSize_eq]
      rw [maxSnapshotPackSize] at hle ⊢
      omega
  have hbytes := getElem?_writeBytes hwrite
  have hbits : ∀ i, ((c.startTick r.tick).snapshotParts ||| 1#64 <<< k).getLsbD i =
      (decide (c.currentRecvTick = r.tick) && c.snapshotParts.getLsbD i || decide (i = k)) := by
    intro i
    rw [BitVec.getLsbD_or, startTick_bits, getLsbD_one_shiftLeft (by omega)]
  refine ⟨{ c with
    currentRecvTick := r.tick
    snapshotParts := (c.startTick r.tick).snapshotParts ||| 1#64 <<< k
    snapshotIncomingData := data
    snapshotIncomingDataSize :=
      if (k : ℤ) = r.numParts itemSizes - 1 then (r.numParts itemSizes - 1) * maxSnapshotPackSize + msg.partSize
      else (c.startTick r.tick).snapshotIncomingDataSize }, ?_,
    ⟨⟨fun j hj => ?_, fun j hj i hi hlt => ?_, fun hlast => ?_⟩, hbits, (length_writeBytes hwrite).trans hbuffer, rfl⟩⟩
  · rw [receivePart, hmsg.gameTick]
    rw [htake, hpos, startTick_eq, hwrite, hmsg.part, hmsg.numParts]
    rfl
  · rw [hbits, Bool.or_eq_true, Bool.and_eq_true, decide_eq_true_eq, decide_eq_true_eq] at hj
    rcases hj with ⟨htick, hj⟩ | rfl
    · exact (hc htick).lt j hj
    · exact hk
  · dsimp only at hj ⊢
    rw [hbits, Bool.or_eq_true, Bool.and_eq_true, decide_eq_true_eq, decide_eq_true_eq] at hj
    rw [hbytes]
    by_cases hjk : j = k
    · subst hjk
      have hpiece : msg.data[i]? = (r.comp itemSizes)[j * maxSnapshotPackSize + i]? := by
        rw [hmsg.data, List.getElem?_take_of_lt hi, List.getElem?_drop]
      have hlength : i < msg.data.length := by
        rw [hmsg.data, List.length_take, List.length_drop]
        omega
      rw [if_pos ⟨by omega, by omega⟩, ← hpiece]
      congr 1
      omega
    · obtain ⟨htick, hj⟩ := hj.resolve_right hjk
      rw [if_neg, (hc htick).data j hj i hi hlt]
      rw [maxSnapshotPackSize] at hi hle ⊢
      omega
  · dsimp only at hlast ⊢
    rw [hbits, Bool.or_eq_true, Bool.and_eq_true, decide_eq_true_eq, decide_eq_true_eq] at hlast
    split_ifs with hkeq
    · have hlength := r.length_comp_le itemSizes
      rw [hmsg.partSize]
      rw [maxSnapshotPackSize] at hlength ⊢
      omega
    · obtain ⟨htick, hlast⟩ := hlast.resolve_right (by omega)
      rw [startTick, if_pos htick.symm]
      exact (hc htick).size hlast

/-- When all parts are there, so is the packed delta. -/
lemma Gathered.take_eq (h : c.Gathered itemSizes r) (hparts : r.numParts itemSizes ≤ CSnapshot.maxParts)
    (hcomplete : c.complete (r.numParts itemSizes) = true) :
    c.snapshotIncomingDataSize = (r.comp itemSizes).length ∧
      c.snapshotIncomingData.take (r.comp itemSizes).length = r.comp itemSizes := by
  have hbits := (complete_iff hparts h.lt).1 hcomplete
  have hpos := r.numParts_pos itemSizes
  have hlength := (r.length_comp_le itemSizes).1
  refine ⟨h.size (hbits _ (by omega)), List.ext_getElem? fun i => ?_⟩
  by_cases hi : i < (r.comp itemSizes).length
  · have hdiv := h.data (i / maxSnapshotPackSize) (hbits _ ((Nat.div_lt_iff_lt_mul (by decide)).2 (hi.trans_le hlength)))
      (i % maxSnapshotPackSize) (Nat.mod_lt _ (by decide))
    rw [Nat.div_add_mod'] at hdiv
    rw [List.getElem?_take_of_lt hi, hdiv hi]
  · rw [List.getElem?_eq_none (by rw [List.length_take]; omega), List.getElem?_eq_none (by omega)]

end SnapClient

/-! ### Unpacking on the client -/

section Unpacking

open CSnapshot (crc totalSize isValid maxItems maxSize)

variable {itemSizes : ℤ → ℤ} {r : SentSnap} {held out : CSnapshot}

lemma crc_perm (h : held.Perm out) : crc held = crc out :=
  List.Perm.foldl_eq (h.flatMap_right _) 0

lemma totalSize_perm (h : held.Perm out) : totalSize held = totalSize out := by
  rw [totalSize, totalSize, CSnapshot.dataSize, CSnapshot.dataSize, h.length_eq, (h.map _).sum_eq]

/-- The order of the items does not matter. -/
lemma keyed_perm (h : CSnapshotDelta.Keyed out) (hperm : held.Perm out) : CSnapshotDelta.Keyed held where
  nodup := (hperm.map _).nodup_iff.2 h.nodup
  type_nonneg item hitem := h.type_nonneg item (hperm.subset hitem)
  length_le := hperm.length_eq.trans_le h.length_le
  totalSize_le := (totalSize_perm hperm).trans_le h.totalSize_le

lemma isValid_of_perm (h : CSnapshotDelta.Keyed out) (hperm : held.Perm out) : isValid held (totalSize held) = true :=
  CSnapshot.isValid_totalSize (keyed_perm h hperm).length_le (keyed_perm h hperm).totalSize_le

namespace SentSnap

/-- The snapshot was sendable when it was sent. -/
structure Fair (itemSizes : ℤ → ℤ) (r : SentSnap) : Prop where
  deltashot : CSnapshotDelta.Keyed r.deltashot
  data : CSnapshotDelta.Keyed r.data
  sizes : CSnapshotDelta.SameSizes itemSizes r.deltashot r.data
  survives : CSnapshotDelta.Survives r.deltashot r.data
  room : ∀ delta, CSnapshotDelta.createDelta itemSizes r.deltashot r.data = some delta → 4 * delta.length ≤ maxSize

/-- The delta that a client unpacks. -/
def delta (itemSizes : ℤ → ℤ) (r : SentSnap) : List (BitVec 32) :=
  (CSnapshotDelta.createDelta itemSizes r.deltashot r.data).getD [0, 0, 0]

lemma Fair.unpack (h : r.Fair itemSizes) (hheld : held.Perm r.deltashot) :
    ∃ out, CSnapshotDelta.unpackDelta itemSizes held (r.delta itemSizes) = some (.ok out) ∧ out.Perm r.data := by
  rw [delta]
  cases hdelta : CSnapshotDelta.createDelta itemSizes r.deltashot r.data with
  | none =>
    exact ⟨held, CSnapshotDelta.unpackDelta_empty (keyed_perm h.deltashot hheld),
      hheld.trans (CSnapshotDelta.perm_of_createDelta_eq_none h.deltashot h.data h.sizes hdelta)⟩
  | some delta =>
    obtain ⟨out, hunpack, hperm⟩ :=
      CSnapshotDelta.unpackDelta_perm_iff h.deltashot h.data h.sizes hheld hdelta
    exact ⟨out, hunpack, hperm.2 h.survives⟩

end SentSnap

namespace SnapClient

variable {c : SnapClient} {msg : SnapMsg} {k : ℕ} {shown : List ℤ} {validates : Bool}

lemma deltaData_eq (hr : r.Fair itemSizes) (hsize : c.snapshotIncomingDataSize = (r.comp itemSizes).length)
    (htake : c.snapshotIncomingData.take (r.comp itemSizes).length = r.comp itemSizes) :
    c.deltaData = some (r.delta itemSizes) := by
  rw [deltaData, SentSnap.delta, hsize, Int.toNat_natCast, htake]
  cases hdelta : CSnapshotDelta.createDelta itemSizes r.deltashot r.data with
  | none =>
    have hcomp : r.comp itemSizes = [] := by rw [SentSnap.comp, hdelta]
    rw [hcomp, List.length_nil, if_pos Nat.cast_zero]
    rfl
  | some delta =>
    have hpos := SentSnap.comp_length_pos hdelta
    have hcomp : r.comp itemSizes = CVariableInt.packedInts delta := by rw [SentSnap.comp, hdelta]
    have hroom := hr.room delta hdelta
    rw [if_neg (by omega), hcomp, CVariableInt.decompress_packedInts (by omega)]
    rfl

/-- The client after a snapshot was unpacked. -/
def unpacked (c : SnapClient) (r : SentSnap) (shown : List ℤ) (validates : Bool) (snap : CSnapshot) : SnapClient :=
  let purged := c.snapshotStorage.purgeUntil (shown.foldl min r.deltaTick)
  { c with
    snapshotParts := 0
    snapshotStorage := if validates then purged.add r.tick snap else purged
    ackGameTick := if validates then r.tick else c.ackGameTick }

/-- The server has to send a whole snapshot. -/
def reset (c : SnapClient) : SnapClient := { c with snapshotParts := 0, ackGameTick := -1 }

/-- The snapshot that the delta is to, if the client has it. -/
def heldShot (c : SnapClient) (r : SentSnap) : Option CSnapshot :=
  if 0 ≤ r.deltaTick then c.snapshotStorage.get r.deltaTick else some []

lemma takeSnapshot_eq (hmsg : r.IsPart itemSizes k msg) (hcrc : c.snapCrcErrors = 0) {out : CSnapshot}
    (hout : out.Perm r.data) : { c with snapshotParts := 0 }.takeSnapshot msg shown validates out =
      c.unpacked r shown validates out := by
  have hsame : ¬ msg.crc?.any (· ≠ crc out) = true := by
    rw [hmsg.crc, crc_perm hout]
    cases CSnapshotDelta.createDelta itemSizes r.deltashot r.data <;> simp
  rw [takeSnapshot, if_neg hsame, hmsg.deltaTick, hmsg.gameTick]
  cases validates <;> simp [unpacked, hcrc]

/-- All parts of a snapshot have arrived. -/
lemma unpackSnapshot_eq (hr : r.Fair itemSizes) (hmsg : r.IsPart itemSizes k msg) (hcrc : c.snapCrcErrors = 0)
    (hsize : c.snapshotIncomingDataSize = (r.comp itemSizes).length)
    (htake : c.snapshotIncomingData.take (r.comp itemSizes).length = r.comp itemSizes)
    (hheld : ∀ held, c.heldShot r = some held → held.Perm r.deltashot) :
    (c.heldShot r = none ∧ unpackSnapshot itemSizes c msg shown validates = some c.reset) ∨
      ∃ held out, c.heldShot r = some held ∧ out.Perm r.data ∧
        unpackSnapshot itemSizes c msg shown validates = some (c.unpacked r shown validates out) := by
  rw [unpackSnapshot, hmsg.deltaTick]
  dsimp only
  rw [← heldShot]
  cases hshot : c.heldShot r with
  | none => exact .inl ⟨rfl, rfl⟩
  | some held =>
    obtain ⟨out, hunpack, hperm⟩ := hr.unpack (hheld held hshot)
    refine .inr ⟨held, out, rfl, hperm, ?_⟩
    have hdelta : deltaData { c with snapshotParts := 0 } = some (r.delta itemSizes) := deltaData_eq hr hsize htake
    dsimp only
    rw [hdelta]
    dsimp only
    rw [hunpack, Option.map_some]
    dsimp only
    rw [if_pos (isValid_of_perm hr.data hperm), takeSnapshot_eq hmsg hcrc hperm]

/-- The invariant of a client for a snapshot that may arrive. -/
structure Ready (itemSizes : ℤ → ℤ) (c : SnapClient) (r : SentSnap) : Prop where
  buffer : c.snapshotIncomingData.length = maxSize
  crcErrors : c.snapCrcErrors = 0
  gathered : c.currentRecvTick = r.tick → c.Gathered itemSizes r
  held : ∀ held, c.heldShot r = some held → held.Perm r.deltashot

/-- What a message with a part of a snapshot does: it is dropped, it is one of several parts, the snapshot of the delta
is missing, or the snapshot is unpacked. -/
lemma recvSnap_cases (hr : r.Fair itemSizes) (hmsg : r.IsPart itemSizes k msg) (hc : c.Ready itemSizes r)
    (shown : List ℤ) (validates : Bool) :
    (¬ (r.numParts itemSizes ≤ CSnapshot.maxParts ∧ c.currentRecvTick ≤ r.tick ∧ c.ackGameTick < r.tick) ∧
      recvSnap itemSizes c msg shown validates = some c) ∨
    (r.numParts itemSizes ≤ CSnapshot.maxParts ∧ c.currentRecvTick ≤ r.tick ∧ c.ackGameTick < r.tick) ∧
      ∃ c', c.Received itemSizes r k c' ∧
        ((¬ c'.complete (r.numParts itemSizes) = true ∧ recvSnap itemSizes c msg shown validates = some c') ∨
        c'.complete (r.numParts itemSizes) = true ∧
          ((c.heldShot r = none ∧ recvSnap itemSizes c msg shown validates = some c'.reset) ∨
          ∃ held out, c.heldShot r = some held ∧ out.Perm r.data ∧
            recvSnap itemSizes c msg shown validates = some (c'.unpacked r shown validates out))) := by
  by_cases haccepted : r.numParts itemSizes ≤ CSnapshot.maxParts ∧ c.currentRecvTick ≤ r.tick ∧ c.ackGameTick < r.tick
  · refine .inr ⟨haccepted, ?_⟩
    obtain ⟨c', hreceive, hc'⟩ := receivePart_spec hmsg haccepted.1 hc.buffer hc.gathered
    have hguard : (msg.accepted && decide (c.currentRecvTick ≤ msg.gameTick) && decide (c.ackGameTick < msg.gameTick)) =
        true := by
      rw [hmsg.accepted_iff.2 haccepted.1, hmsg.gameTick, decide_eq_true haccepted.2.1, decide_eq_true haccepted.2.2]
      rfl
    have hrecv : recvSnap itemSizes c msg shown validates =
        if c'.complete (r.numParts itemSizes) then unpackSnapshot itemSizes c' msg shown validates else some c' := by
      rw [recvSnap, if_pos hguard, hreceive, Option.bind_some, hmsg.numParts]
    have hshot : c'.heldShot r = c.heldShot r := by
      rw [hc'.same]
      rfl
    refine ⟨c', hc', ?_⟩
    by_cases hcomplete : c'.complete (r.numParts itemSizes) = true
    · obtain ⟨hsize, htake⟩ := hc'.gathered.take_eq haccepted.1 hcomplete
      have hcrc : c'.snapCrcErrors = 0 := by
        rw [hc'.same]
        exact hc.crcErrors
      refine .inr ⟨hcomplete, ?_⟩
      rw [hrecv, if_pos hcomplete, ← hshot]
      exact unpackSnapshot_eq hr hmsg hcrc hsize htake fun held hheld => hc.held held (hshot ▸ hheld)
    · exact .inl ⟨hcomplete, by rw [hrecv, if_neg hcomplete]⟩
  · refine .inl ⟨haccepted, ?_⟩
    rw [recvSnap, if_neg]
    rwa [Bool.and_eq_true, Bool.and_eq_true, decide_eq_true_eq, decide_eq_true_eq, hmsg.accepted_iff, hmsg.gameTick,
      and_assoc]

end SnapClient

end Unpacking

/-! ### Invariants -/

section Invariants

variable {itemSizes : ℤ → ℤ} {sizeOf : BitVec 32 → ℕ} {sent : List SentSnap} {server : SnapServer} {c : SnapClient}
  {r : SentSnap}

/-- The snapshots that the server has sent. -/
structure SnapServer.Inv (itemSizes : ℤ → ℤ) (sizeOf : BitVec 32 → ℕ) (server : SnapServer) (sent : List SentSnap) :
    Prop where
  ticks : sent.Pairwise fun a b => a.tick < b.tick
  tick_pos : ∀ r ∈ sent, 0 < r.tick
  tick_le : ∀ r ∈ sent, r.tick ≤ server.currentGameTick
  tick_nonneg : 0 ≤ server.currentGameTick
  saved : ∀ holder ∈ server.snapshots, ∃ r ∈ sent, r.tick = holder.1 ∧ r.data = holder.2
  fair : ∀ r ∈ sent, r.Fair itemSizes
  size : ∀ r ∈ sent, ∀ item ∈ r.data, item.data.length = sizeOf item.key
  deltashot : ∀ r ∈ sent, r.deltaTick = -1 ∧ r.deltashot = [] ∨
    ∃ base ∈ sent, base.tick = r.deltaTick ∧ base.data = r.deltashot

/-- The client has only what was sent. -/
structure SnapClient.Inv (itemSizes : ℤ → ℤ) (sent : List SentSnap) (c : SnapClient) : Prop where
  stored : ∀ holder ∈ c.snapshotStorage, ∃ r ∈ sent, r.tick = holder.1 ∧ holder.2.Perm r.data
  increasing : c.snapshotStorage.Pairwise fun a b => a.1 < b.1
  recent : ∀ holder ∈ c.snapshotStorage, holder.1 < c.currentRecvTick ∨ holder.1 = c.currentRecvTick ∧
    c.ackGameTick = c.currentRecvTick
  buffer : c.snapshotIncomingData.length = CSnapshot.maxSize
  crcErrors : c.snapCrcErrors = 0
  gathered : ∀ r ∈ sent, c.currentRecvTick = r.tick → c.Gathered itemSizes r

lemma eq_of_tick_eq (h : sent.Pairwise fun a b => a.tick < b.tick) {a b : SentSnap} (ha : a ∈ sent) (hb : b ∈ sent)
    (hab : a.tick = b.tick) : a = b := by
  have hnodup : (sent.map SentSnap.tick).Nodup := by
    rw [List.nodup_iff_pairwise_ne, List.pairwise_map]
    exact h.imp fun hlt => hlt.ne
  exact List.inj_on_of_nodup_map hnodup ha hb hab

lemma SnapServer.Inv.ready (h : server.Inv itemSizes sizeOf sent) (hc : c.Inv itemSizes sent) (hr : r ∈ sent) :
    c.Ready itemSizes r where
  buffer := hc.buffer
  crcErrors := hc.crcErrors
  gathered := hc.gathered r hr
  held held hheld := by
    rw [SnapClient.heldShot] at hheld
    rcases h.deltashot r hr with ⟨htick, hshot⟩ | ⟨base, hbase, htick, hdata⟩
    · rw [if_neg (by omega)] at hheld
      rw [← Option.some.inj hheld, hshot]
    · have hpos := h.tick_pos base hbase
      rw [if_pos (by omega)] at hheld
      obtain ⟨other, hother, htick', hperm⟩ := hc.stored _ (SnapHolders.mem_of_get hheld)
      rwa [eq_of_tick_eq h.ticks hother hbase (by rw [htick', htick]), hdata] at hperm

namespace SnapClient

variable {c' : SnapClient} {shown : List ℤ} {validates : Bool} {msg : SnapMsg} {k : ℕ}

lemma gathered_of_zero (h : c.snapshotParts = 0) : c.Gathered itemSizes r := by
  have hbit : ∀ i, ¬ c.snapshotParts.getLsbD i = true := by simp [h]
  exact ⟨fun i hi => absurd hi (hbit i), fun i hi => absurd hi (hbit i), fun hi => absurd hi (hbit _)⟩

/-- A snapshot that is not dropped is newer than all that are stored. -/
lemma Inv.lt_tick (h : c.Inv itemSizes sent) (htick : c.currentRecvTick ≤ r.tick) (hack : c.ackGameTick < r.tick) :
    ∀ holder ∈ c.snapshotStorage, holder.1 < r.tick := by
  intro holder hholder
  rcases h.recent holder hholder with hlt | ⟨heq, hacked⟩ <;> omega

lemma Received.tick (h : c.Received itemSizes r k c') : c'.currentRecvTick = r.tick := by
  rw [h.same]

lemma Received.storage (h : c.Received itemSizes r k c') : c'.snapshotStorage = c.snapshotStorage := by
  rw [h.same]

lemma Received.inv (h : c.Received itemSizes r k c') (hc : c.Inv itemSizes sent) (hr : r ∈ sent)
    (hticks : sent.Pairwise fun a b => a.tick < b.tick) (hnew : ∀ holder ∈ c.snapshotStorage, holder.1 < r.tick) :
    c'.Inv itemSizes sent where
  stored := h.storage ▸ hc.stored
  increasing := h.storage ▸ hc.increasing
  recent holder hholder := .inl (h.tick ▸ hnew holder (h.storage ▸ hholder))
  buffer := h.buffer
  crcErrors := by
    rw [h.same]
    exact hc.crcErrors
  gathered other hother htick := by
    rw [← eq_of_tick_eq hticks hr hother (h.tick.symm.trans htick)]
    exact h.gathered

lemma Inv.reset (h : c.Inv itemSizes sent) (hnew : ∀ holder ∈ c.snapshotStorage, holder.1 < c.currentRecvTick) :
    c.reset.Inv itemSizes sent where
  stored := h.stored
  increasing := h.increasing
  recent holder hholder := .inl (hnew holder hholder)
  buffer := h.buffer
  crcErrors := h.crcErrors
  gathered _ _ _ := gathered_of_zero rfl

lemma Inv.unpacked (h : c.Inv itemSizes sent) (hr : r ∈ sent) (htick : c.currentRecvTick = r.tick)
    (hnew : ∀ holder ∈ c.snapshotStorage, holder.1 < r.tick) (shown : List ℤ) (validates : Bool) {out : CSnapshot}
    (hout : out.Perm r.data) : (c.unpacked r shown validates out).Inv itemSizes sent := by
  have hmem : ∀ holder ∈ (c.unpacked r shown validates out).snapshotStorage,
      holder ∈ c.snapshotStorage ∨ validates = true ∧ holder = (r.tick, out) := by
    intro holder hholder
    cases validates with
    | false => exact .inl (SnapHolders.mem_of_mem_purgeUntil hholder)
    | true =>
      rcases List.mem_append.1 hholder with hold | hlast
      · exact .inl (SnapHolders.mem_of_mem_purgeUntil hold)
      · exact .inr ⟨rfl, List.mem_singleton.1 hlast⟩
  refine ⟨fun holder hholder => ?_, ?_, fun holder hholder => ?_, h.buffer, h.crcErrors,
    fun _ _ _ => gathered_of_zero rfl⟩
  · rcases hmem holder hholder with hold | ⟨-, rfl⟩
    · exact h.stored holder hold
    · exact ⟨r, hr, rfl, hout⟩
  · have hpurged := SnapHolders.pairwise_purgeUntil (shown.foldl min r.deltaTick) h.increasing
    cases validates with
    | false => exact hpurged
    | true =>
      refine List.pairwise_append.2 ⟨hpurged, List.pairwise_singleton _ _, fun holder hholder last hlast => ?_⟩
      rw [List.mem_singleton.1 hlast]
      exact hnew holder (SnapHolders.mem_of_mem_purgeUntil hholder)
  · rcases hmem holder hholder with hold | ⟨rfl, rfl⟩
    · exact .inl ((hnew holder hold).trans_eq htick.symm)
    · exact .inr ⟨htick.symm, htick.symm⟩

/-- The client keeps its invariant. -/
lemma Inv.recvSnap (hc : c.Inv itemSizes sent) (h : server.Inv itemSizes sizeOf sent) (hr : r ∈ sent)
    (hmsg : r.IsPart itemSizes k msg) (shown : List ℤ) (validates : Bool) :
    ∃ c', c.recvSnap itemSizes msg shown validates = some c' ∧ c'.Inv itemSizes sent ∧
      (c'.currentRecvTick = c.currentRecvTick ∨ c'.currentRecvTick = r.tick) := by
  rcases recvSnap_cases (h.fair r hr) hmsg (h.ready hc hr) shown validates with
    ⟨-, hrecv⟩ | ⟨⟨-, htick, hack⟩, c', hc', hcases⟩
  · exact ⟨c, hrecv, hc, .inl rfl⟩
  have hnew := hc.lt_tick htick hack
  have hnew' : ∀ holder ∈ c'.snapshotStorage, holder.1 < r.tick := hc'.storage ▸ hnew
  have hinv := hc'.inv hc hr h.ticks hnew
  rcases hcases with ⟨-, hrecv⟩ | ⟨-, ⟨-, hrecv⟩ | ⟨held, out, -, hperm, hrecv⟩⟩
  · exact ⟨_, hrecv, hinv, .inr hc'.tick⟩
  · exact ⟨_, hrecv, hinv.reset fun holder hholder => (hnew' holder hholder).trans_eq hc'.tick.symm, .inr hc'.tick⟩
  · exact ⟨_, hrecv, hinv.unpacked hr hc'.tick hnew' shown validates hperm, .inr hc'.tick⟩

end SnapClient

/-! ### Steps -/

lemma keyed_nil : CSnapshotDelta.Keyed [] where
  nodup := List.nodup_nil
  type_nonneg _ hitem := absurd hitem List.not_mem_nil
  length_le := Nat.zero_le _
  totalSize_le := by decide

/-- What the next snapshot is sent as. -/
def SnapWorld.nextSent (w : SnapWorld) (ticks : ℕ) (data : CSnapshot) : SentSnap :=
  ⟨(w.saved ticks data).currentGameTick, (w.saved ticks data).deltashot.1, (w.saved ticks data).deltashot.2, data⟩

section

variable {w : SnapWorld} {ticks : ℕ} {data : CSnapshot}

lemma mem_saved (h : w.server.Inv itemSizes sizeOf w.sent) :
    ∀ holder ∈ (w.saved ticks data).snapshots,
      ∃ base ∈ w.sent ++ [w.nextSent ticks data], base.tick = holder.1 ∧ base.data = holder.2 := by
  intro holder hholder
  rcases List.mem_append.1 hholder with hold | hlast
  · obtain ⟨base, hbase, htick, hdata⟩ := h.saved holder (SnapHolders.mem_of_mem_purgeUntil hold)
    exact ⟨base, List.mem_append_left _ hbase, htick, hdata⟩
  · rw [List.mem_singleton.1 hlast]
    exact ⟨w.nextSent ticks data, List.mem_append_right _ (List.mem_singleton_self _), rfl, rfl⟩

/-- What a delta is made against. -/
lemma deltashot_cases (h : w.server.Inv itemSizes sizeOf w.sent) (ticks : ℕ) (data : CSnapshot) :
    (w.saved ticks data).deltashot = (-1, []) ∨ ∃ base ∈ w.sent ++ [w.nextSent ticks data],
      (w.saved ticks data).deltashot = (base.tick, base.data) := by
  rw [SnapServer.deltashot]
  cases hget : (w.saved ticks data).snapshots.get (w.saved ticks data).lastAckedSnapshot with
  | none => exact .inl rfl
  | some shot =>
    obtain ⟨base, hbase, htick, hdata⟩ := mem_saved h _ (SnapHolders.mem_of_get hget)
    exact .inr ⟨base, hbase, by rw [htick, hdata]⟩

/-- The server keeps its invariant when it sends a snapshot. -/
lemma SnapServer.Inv.doSnapshot (h : w.server.Inv itemSizes sizeOf w.sent) (hticks : 0 < ticks)
    (hdata : Sendable itemSizes sizeOf (w.saved ticks data).deltashot.2 data) :
    (w.saved ticks data).Inv itemSizes sizeOf (w.sent ++ [w.nextSent ticks data]) := by
  have hcurrent : (w.saved ticks data).currentGameTick = w.server.currentGameTick + ticks := rfl
  have htick : (w.nextSent ticks data).tick = w.server.currentGameTick + ticks := rfl
  have hnonneg := h.tick_nonneg
  have hlast : ∀ {P : SentSnap → Prop}, (∀ r ∈ w.sent, P r) → P (w.nextSent ticks data) →
      ∀ r ∈ w.sent ++ [w.nextSent ticks data], P r := fun hold hnew =>
    List.forall_mem_append.2 ⟨hold, List.forall_mem_singleton.2 hnew⟩
  have hkeyed := hlast (fun base hbase => (h.fair base hbase).data) hdata.keyed
  have hsize := hlast h.size hdata.size
  have hshot : CSnapshotDelta.Keyed (w.saved ticks data).deltashot.2 ∧
      ∀ past ∈ (w.saved ticks data).deltashot.2, past.data.length = sizeOf past.key := by
    rcases deltashot_cases h ticks data with hnone | ⟨base, hbase, hsome⟩
    · rw [hnone]
      exact ⟨keyed_nil, fun past hpast => absurd hpast List.not_mem_nil⟩
    · rw [hsome]
      exact ⟨hkeyed base hbase, hsize base hbase⟩
  have hfair : (w.nextSent ticks data).Fair itemSizes :=
    { deltashot := hshot.1
      data := hdata.keyed
      sizes := ⟨fun past hpast item hitem hkey => by rw [hshot.2 past hpast, hdata.size item hitem, hkey], hdata.static⟩
      survives := hdata.survives
      room := hdata.room }
  exact
    { ticks := List.pairwise_append.2 ⟨h.ticks, List.pairwise_singleton _ _, fun r hr last hmem => by
        rw [List.mem_singleton.1 hmem]
        exact (h.tick_le r hr).trans_lt (by omega)⟩
      tick_pos := hlast h.tick_pos (by omega)
      tick_le := hlast (fun r hr => (h.tick_le r hr).trans (by omega)) le_rfl
      tick_nonneg := by omega
      saved := mem_saved h
      fair := hlast h.fair hfair
      size := hsize
      deltashot := hlast
        (fun r hr => (h.deltashot r hr).imp_right fun ⟨base, hbase, hsame⟩ =>
          ⟨base, List.mem_append_left _ hbase, hsame⟩)
        ((deltashot_cases h ticks data).imp (fun hnone => by rw [SnapWorld.nextSent, hnone]; exact ⟨rfl, rfl⟩)
          fun ⟨base, hbase, hsome⟩ => ⟨base, hbase, by rw [SnapWorld.nextSent, hsome]; exact ⟨rfl, rfl⟩⟩) }

/-- The next snapshot is none of those that the client is at. -/
lemma SnapClient.Inv.doSnapshot (hc : c.Inv itemSizes sent) (hnew : c.currentRecvTick < r.tick) :
    c.Inv itemSizes (sent ++ [r]) where
  stored holder hholder := by
    obtain ⟨base, hbase, hsame⟩ := hc.stored holder hholder
    exact ⟨base, List.mem_append_left _ hbase, hsame⟩
  increasing := hc.increasing
  recent := hc.recent
  buffer := hc.buffer
  crcErrors := hc.crcErrors
  gathered := List.forall_mem_append.2 ⟨hc.gathered, List.forall_mem_singleton.2 fun htick => absurd htick hnew.ne⟩

end

namespace SnapWorld

variable {w w' : SnapWorld}

/-- The server and the client agree on what was sent. -/
structure Inv (itemSizes : ℤ → ℤ) (sizeOf : BitVec 32 → ℕ) (w : SnapWorld) : Prop where
  server : w.server.Inv itemSizes sizeOf w.sent
  client : w.client.Inv itemSizes w.sent
  recv_le : w.client.currentRecvTick ≤ w.server.currentGameTick

lemma inv_initial : Inv itemSizes sizeOf initial where
  server :=
    { ticks := List.Pairwise.nil
      tick_pos := fun _ hr => absurd hr List.not_mem_nil
      tick_le := fun _ hr => absurd hr List.not_mem_nil
      tick_nonneg := le_rfl
      saved := fun _ hholder => absurd hholder List.not_mem_nil
      fair := fun _ hr => absurd hr List.not_mem_nil
      size := fun _ hr => absurd hr List.not_mem_nil
      deltashot := fun _ hr => absurd hr List.not_mem_nil }
  client :=
    { stored := fun _ hholder => absurd hholder List.not_mem_nil
      increasing := List.Pairwise.nil
      recent := fun _ hholder => absurd hholder List.not_mem_nil
      buffer := List.length_replicate
      crcErrors := rfl
      gathered := fun _ hr => absurd hr List.not_mem_nil }
  recv_le := le_rfl

/-- Each step that can happen goes well and keeps the invariant. -/
lemma Inv.step (h : w.Inv itemSizes sizeOf) {e : SnapEvent} (henabled : Enabled itemSizes sizeOf w e) :
    ∃ w', w.step itemSizes e = some w' ∧ w'.Inv itemSizes sizeOf := by
  cases e with
  | doSnapshot ticks data =>
    obtain ⟨hticks, hdata⟩ := henabled
    have hrecv := h.recv_le
    have hserver := h.server.doSnapshot hticks hdata
    have hnew : w.client.currentRecvTick < (w.nextSent ticks data).tick := by
      rw [show (w.nextSent ticks data).tick = w.server.currentGameTick + ticks from rfl]
      omega
    exact ⟨_, rfl, hserver, h.client.doSnapshot hnew, hnew.le⟩
  | recvSnap msg shown validates =>
    obtain ⟨r, hr, hmsg⟩ := henabled
    obtain ⟨k, hpart⟩ := (r.msgsOf_cases).1 msg hmsg
    obtain ⟨c, hrecv, hc, htick⟩ := h.client.recvSnap h.server hr hpart shown validates
    have hle := h.recv_le
    have htick_le := h.server.tick_le r hr
    refine ⟨{ w with client := c }, by rw [SnapWorld.step, hrecv]; rfl, h.server, hc, ?_⟩
    dsimp only
    omega
  | sendInput => exact ⟨_, rfl, h.server, h.client, h.recv_le⟩
  | recvInput lastAckedSnapshot =>
    exact ⟨_, rfl, { h.server with }, h.client, h.recv_le⟩

lemma Reachable.inv (h : Reachable itemSizes sizeOf w) : w.Inv itemSizes sizeOf := by
  induction h with
  | initial => exact inv_initial
  | step _ henabled hstep ih =>
    obtain ⟨w', hstep', hinv⟩ := ih.step henabled
    rw [hstep] at hstep'
    rwa [Option.some.inj hstep']

/-- A run; `none` if the client accesses memory outside of an item. -/
def run (itemSizes : ℤ → ℤ) (w : SnapWorld) (events : List SnapEvent) : Option SnapWorld :=
  events.foldlM (SnapWorld.step itemSizes) w

/-- The message arrives while the given ticks are shown, and the snapshot passes `UnpackAndValidateSnapshot`. -/
def arrival (entry : SnapMsg × List ℤ) : SnapEvent := .recvSnap entry.1 entry.2 true

/-- The client waits for parts of the snapshot and has those of the given messages. -/
structure Waiting (itemSizes : ℤ → ℤ) (sizeOf : BitVec 32 → ℕ) (r : SentSnap) (msgs : List SnapMsg) (w : SnapWorld) :
    Prop where
  inv : w.Inv itemSizes sizeOf
  mem : r ∈ w.sent
  recv_le : w.client.currentRecvTick ≤ r.tick
  ack_lt : w.client.ackGameTick < r.tick
  shot : w.client.heldShot r ≠ none
  parts : ∀ msg ∈ msgs, w.client.currentRecvTick = r.tick ∧ ¬ w.client.complete (r.numParts itemSizes) = true ∧
    ∀ k, r.IsPart itemSizes k msg → w.client.snapshotParts.getLsbD k = true

/-- The client has the snapshot. -/
structure Arrived (itemSizes : ℤ → ℤ) (sizeOf : BitVec 32 → ℕ) (r : SentSnap) (w : SnapWorld) : Prop where
  inv : w.Inv itemSizes sizeOf
  mem : r ∈ w.sent
  ack : w.client.ackGameTick = r.tick
  stored : ∃ snap, (r.tick, snap) ∈ w.client.snapshotStorage ∧ snap.Perm r.data

lemma Waiting.step {msgs : List SnapMsg} (h : Waiting itemSizes sizeOf r msgs w)
    (hparts : r.numParts itemSizes ≤ CSnapshot.maxParts) {entry : SnapMsg × List ℤ}
    (hmsg : entry.1 ∈ msgsOf itemSizes r) :
    ∃ w', w.step itemSizes (arrival entry) = some w' ∧
      (Waiting itemSizes sizeOf r (entry.1 :: msgs) w' ∨ Arrived itemSizes sizeOf r w') := by
  obtain ⟨k, hpart⟩ := r.msgsOf_cases.1 entry.1 hmsg
  obtain ⟨w', hstep, hinv⟩ := h.inv.step (e := arrival entry) ⟨r, h.mem, hmsg⟩
  refine ⟨w', hstep, ?_⟩
  rw [arrival, SnapWorld.step] at hstep
  rcases SnapClient.recvSnap_cases (h.inv.server.fair r h.mem) hpart (h.inv.server.ready h.inv.client h.mem) entry.2 true
    with ⟨hdropped, -⟩ | ⟨-, c', hc', hcases⟩
  · exact absurd ⟨hparts, h.recv_le, h.ack_lt⟩ hdropped
  rcases hcases with ⟨hincomplete, hrecv⟩ | ⟨-, ⟨hnone, -⟩ | ⟨held, out, -, hperm, hrecv⟩⟩
  · rw [hrecv] at hstep
    obtain rfl := Option.some.inj hstep
    refine .inl ⟨hinv, h.mem, hc'.tick.le, ?_, ?_, fun msg hmem => ⟨hc'.tick, hincomplete, fun i hi => ?_⟩⟩
    · have hack := h.ack_lt
      dsimp only
      rwa [hc'.same]
    · have hshot := h.shot
      dsimp only
      rwa [SnapClient.heldShot, hc'.storage]
    · dsimp only
      rw [hc'.bits]
      rcases List.mem_cons.1 hmem with rfl | hold
      · have hik : i = k := by exact_mod_cast hi.part.symm.trans hpart.part
        rw [decide_eq_true hik, Bool.or_true]
      · obtain ⟨htick, -, hbit⟩ := h.parts msg hold
        rw [decide_eq_true htick, hbit i hi]
        rfl
  · exact absurd hnone h.shot
  · rw [hrecv] at hstep
    obtain rfl := Option.some.inj hstep
    exact .inr ⟨hinv, h.mem, rfl, out, List.mem_append_right _ (List.mem_singleton_self _), hperm⟩

/-- More parts change nothing. -/
lemma Arrived.step (h : Arrived itemSizes sizeOf r w) {entry : SnapMsg × List ℤ} (hmsg : entry.1 ∈ msgsOf itemSizes r) :
    w.step itemSizes (arrival entry) = some w := by
  obtain ⟨k, hpart⟩ := r.msgsOf_cases.1 entry.1 hmsg
  have hdropped : w.client.recvSnap itemSizes entry.1 entry.2 true = some w.client := by
    rw [SnapClient.recvSnap, if_neg]
    rw [Bool.and_eq_true, decide_eq_true_eq, h.ack, hpart.gameTick]
    exact fun hguard => lt_irrefl _ hguard.2
  rw [arrival, SnapWorld.step, hdropped]
  rfl

/-- No acknowledgement arrives after a later one. -/
def InOrder (w : SnapWorld) : SnapEvent → Prop
  | .recvInput lastAckedSnapshot => w.server.lastAckedSnapshot ≤ lastAckedSnapshot
  | _ => True

/-- The client has a snapshot of the tick, or the tick stands for the empty snapshot. -/
def Held (w : SnapWorld) (tick : ℤ) : Prop := tick = -1 ∨ ∃ snap, (tick, snap) ∈ w.client.snapshotStorage

/-- The client has what is acknowledged, what may still be, and what the deltas are to that it may still accept. -/
structure Synced (w : SnapWorld) : Prop where
  lastAcked_ge : -1 ≤ w.server.lastAckedSnapshot
  lastAcked_le : w.server.lastAckedSnapshot ≤ w.client.ackGameTick
  acks_le : ∀ ack ∈ w.acks, ack ≤ w.client.ackGameTick
  lastAcked : w.Held w.server.lastAckedSnapshot
  ack : w.Held w.client.ackGameTick
  acks : ∀ ack ∈ w.acks, w.server.lastAckedSnapshot ≤ ack → w.Held ack
  deltashot : ∀ r ∈ w.sent, w.client.currentRecvTick ≤ r.tick → w.Held r.deltaTick
  deltaTick_le : ∀ r ∈ w.sent, r.deltaTick ≤ w.server.lastAckedSnapshot
  monotone : ∀ a ∈ w.sent, ∀ b ∈ w.sent, a.tick < b.tick → b.deltaTick = -1 ∨ a.deltaTick ≤ b.deltaTick

lemma foldl_min_le (shown : List ℤ) (tick : ℤ) : shown.foldl min tick ≤ tick := by
  induction shown generalizing tick with
  | nil => exact le_rfl
  | cons first shown ih => exact (ih _).trans (min_le_left _ _)

lemma Held.shot (h : w.Held r.deltaTick) (hinv : w.Inv itemSizes sizeOf) : w.client.heldShot r ≠ none := by
  rw [SnapClient.heldShot]
  rcases h with htick | ⟨snap, hsnap⟩
  · rw [if_neg (by omega)]
    exact Option.some_ne_none _
  · rw [SnapHolders.get_of_mem hinv.client.increasing hsnap]
    split_ifs <;> exact Option.some_ne_none _

lemma deltaTick_nextSent (w : SnapWorld) (ticks : ℕ) (data : CSnapshot) :
    (w.nextSent ticks data).deltaTick = -1 ∨ (w.nextSent ticks data).deltaTick = w.server.lastAckedSnapshot := by
  rw [nextSent, SnapServer.deltashot]
  cases (w.saved ticks data).snapshots.get (w.saved ticks data).lastAckedSnapshot with
  | none => exact .inl rfl
  | some shot => exact .inr rfl

lemma Synced.doSnapshot (h : w.Synced) (hinv : w.Inv itemSizes sizeOf) {ticks : ℕ} (hticks : 0 < ticks)
    (data : CSnapshot) :
    Synced { w with server := w.saved ticks data, sent := w.sent ++ [w.nextSent ticks data] } := by
  have hge := h.lastAcked_ge
  have hdelta := deltaTick_nextSent w ticks data
  have htick : (w.nextSent ticks data).tick = w.server.currentGameTick + ticks := rfl
  refine
    { lastAcked_ge := hge
      lastAcked_le := h.lastAcked_le
      acks_le := h.acks_le
      lastAcked := h.lastAcked
      ack := h.ack
      acks := h.acks
      deltashot := List.forall_mem_append.2 ⟨h.deltashot, List.forall_mem_singleton.2 fun _ => ?_⟩
      deltaTick_le := List.forall_mem_append.2 ⟨h.deltaTick_le, List.forall_mem_singleton.2 ?_⟩
      monotone := fun a ha b hb hlt => ?_ }
  · rcases hdelta with hnone | hlast
    · exact .inl hnone
    · rw [hlast]
      exact h.lastAcked
  · rw [show (w.saved ticks data).lastAckedSnapshot = w.server.lastAckedSnapshot from rfl]
    omega
  · rcases List.mem_append.1 ha with ha | ha <;> rcases List.mem_append.1 hb with hb | hb
    · exact h.monotone a ha b hb hlt
    · obtain rfl := List.mem_singleton.1 hb
      have hle := h.deltaTick_le a ha
      omega
    · obtain rfl := List.mem_singleton.1 ha
      have hle := hinv.server.tick_le b hb
      omega
    · rw [List.mem_singleton.1 ha, List.mem_singleton.1 hb] at hlt
      exact absurd hlt (lt_irrefl _)

lemma Synced.recvSnap (h : w.Synced) (hinv : w.Inv itemSizes sizeOf) (hr : r ∈ w.sent) {msg : SnapMsg} {k : ℕ}
    (hmsg : r.IsPart itemSizes k msg) {shown : List ℤ} {validates : Bool} {c' : SnapClient}
    (hrecv : w.client.recvSnap itemSizes msg shown validates = some c') : Synced { w with client := c' } := by
  have hready := hinv.server.ready hinv.client hr
  rcases SnapClient.recvSnap_cases (hinv.server.fair r hr) hmsg hready shown validates with
    ⟨-, hsame⟩ | ⟨⟨-, htick, hack⟩, c₁, hc₁, ⟨-, hsame⟩ | ⟨-, ⟨hnone, -⟩ | ⟨held, out, -, -, hsame⟩⟩⟩
  · obtain rfl := Option.some.inj (hsame.symm.trans hrecv)
    exact h
  · obtain rfl := Option.some.inj (hsame.symm.trans hrecv)
    have hack₁ : c₁.ackGameTick = w.client.ackGameTick := by rw [hc₁.same]
    have hheld : ∀ tick, w.Held tick → Held { w with client := c₁ } tick := fun tick htick => by
      rw [Held, hc₁.storage]
      exact htick
    exact
      { lastAcked_ge := h.lastAcked_ge
        lastAcked_le := hack₁ ▸ h.lastAcked_le
        acks_le := hack₁ ▸ h.acks_le
        lastAcked := hheld _ h.lastAcked
        ack := hack₁ ▸ hheld _ h.ack
        acks := fun ack hmem hle => hheld _ (h.acks ack hmem hle)
        deltashot := fun other hother hle => hheld _ (h.deltashot other hother (htick.trans (hc₁.tick ▸ hle)))
        deltaTick_le := h.deltaTick_le
        monotone := h.monotone }
  · exact absurd hnone ((h.deltashot r hr htick).shot hinv)
  · obtain rfl := Option.some.inj (hsame.symm.trans hrecv)
    have hack₁ : c₁.ackGameTick = w.client.ackGameTick := by rw [hc₁.same]
    have hack_le : w.client.ackGameTick ≤ (c₁.unpacked r shown validates out).ackGameTick := by
      rw [SnapClient.unpacked]
      cases validates with
      | false => exact hack₁.ge
      | true => exact hack.le
    -- nothing is purged that is not older than the snapshot of the delta
    have hheld : ∀ tick, r.deltaTick ≤ tick → w.Held tick →
        Held { w with client := c₁.unpacked r shown validates out } tick := by
      rintro tick hle (hnone | ⟨snap, hsnap⟩)
      · exact .inl hnone
      · rw [← hc₁.storage] at hsnap
        have hpurged := SnapHolders.mem_purgeUntil hsnap ((foldl_min_le shown r.deltaTick).trans hle)
        refine .inr ⟨snap, ?_⟩
        cases validates with
        | false => exact hpurged
        | true => exact List.mem_append_left _ hpurged
    have hdelta := h.deltaTick_le r hr
    have hlast := h.lastAcked_le
    exact
      { lastAcked_ge := h.lastAcked_ge
        lastAcked_le := hlast.trans hack_le
        acks_le := fun ack hmem => (h.acks_le ack hmem).trans hack_le
        lastAcked := hheld _ hdelta h.lastAcked
        ack := by
          cases validates with
          | false =>
            refine hheld _ ?_ (hack₁ ▸ h.ack)
            rw [SnapClient.unpacked, if_neg Bool.false_ne_true, hack₁]
            exact hdelta.trans hlast
          | true => exact .inr ⟨out, List.mem_append_right _ (List.mem_singleton_self _)⟩
        acks := fun ack hmem hle => hheld _ (hdelta.trans hle) (h.acks ack hmem hle)
        deltashot := fun other hother hle => by
          have hle' : r.tick ≤ other.tick := hc₁.tick ▸ hle
          have hother' := h.deltashot other hother (htick.trans hle')
          rcases hle'.eq_or_lt with heq | hlt
          · obtain rfl := eq_of_tick_eq hinv.server.ticks hr hother heq
            exact hheld _ le_rfl hother'
          · rcases h.monotone r hr other hother hlt with hnone | hdelta'
            · exact .inl hnone
            · exact hheld _ hdelta' hother'
        deltaTick_le := h.deltaTick_le
        monotone := h.monotone }

lemma Synced.step (h : w.Synced) (hinv : w.Inv itemSizes sizeOf) {e : SnapEvent}
    (henabled : Enabled itemSizes sizeOf w e) (horder : InOrder w e) (hstep : w.step itemSizes e = some w') :
    w'.Synced := by
  cases e with
  | doSnapshot ticks data =>
    obtain rfl := Option.some.inj hstep
    exact h.doSnapshot hinv henabled.1 data
  | recvSnap msg shown validates =>
    obtain ⟨r, hr, hmsg⟩ := henabled
    obtain ⟨k, hpart⟩ := r.msgsOf_cases.1 msg hmsg
    obtain ⟨c', hrecv, rfl⟩ := Option.map_eq_some_iff.1 hstep
    exact h.recvSnap hinv hr hpart hrecv
  | sendInput =>
    obtain rfl := Option.some.inj hstep
    exact { h with
      acks_le := List.forall_mem_cons.2 ⟨le_rfl, h.acks_le⟩
      acks := List.forall_mem_cons.2 ⟨fun _ => h.ack, h.acks⟩ }
  | recvInput lastAckedSnapshot =>
    obtain rfl := Option.some.inj hstep
    have hle : w.server.lastAckedSnapshot ≤ lastAckedSnapshot := horder
    exact { h with
      lastAcked_ge := h.lastAcked_ge.trans hle
      lastAcked_le := h.acks_le _ henabled
      lastAcked := h.acks _ henabled hle
      acks := fun ack hmem hack => h.acks ack hmem (hle.trans hack)
      deltaTick_le := fun r hr => (h.deltaTick_le r hr).trans hle }

end SnapWorld

end Invariants

/-! ### A sample -/

namespace SnapWorld

open CSnapshotDelta (sampleNew sampleSizes)

end SnapWorld

end DDNet
