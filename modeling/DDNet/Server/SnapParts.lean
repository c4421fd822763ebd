/-
How a snapshot is sent (`CServer::DoSnapshot` and the checks of `CClient::ProcessServerPacket`).

The delta is packed into variable-length ints, in a buffer as large as a snapshot may be, and cut into parts.  An int of
the delta can take five bytes, so the packed delta can be longer than the buffer, and it can be cut into more parts than
a client takes.
-/
import DDNet.Shared.Snapshot

namespace DDNet

def maxSnapshotPackSize : ℕ := 900

/-! ### The messages -/

/-- `NETMSG_SNAP`, `NETMSG_SNAPSINGLE` and `NETMSG_SNAPEMPTY`. -/
inductive SnapMsg
  | snap (gameTick deltaTick numParts part : ℤ) (crc : BitVec 32) (partSize : ℤ) (data : List UInt8)
  | snapSingle (gameTick deltaTick : ℤ) (crc : BitVec 32) (partSize : ℤ) (data : List UInt8)
  | snapEmpty (gameTick deltaTick : ℤ)
  deriving DecidableEq

namespace SnapMsg

def numParts : SnapMsg → ℤ
  | .snap _ _ numParts _ _ _ _ => numParts
  | _ => 1

def part : SnapMsg → ℤ
  | .snap _ _ _ part _ _ _ => part
  | _ => 0

def partSize : SnapMsg → ℤ
  | .snap _ _ _ _ _ partSize _ => partSize
  | .snapSingle _ _ _ partSize _ => partSize
  | .snapEmpty _ _ => 0

def data : SnapMsg → List UInt8
  | .snap _ _ _ _ _ _ data => data
  | .snapSingle _ _ _ _ data => data
  | .snapEmpty _ _ => []

/-- The checks of the client; `GetRaw` fails if the message holds fewer bytes than it says. -/
def accepted (msg : SnapMsg) : Bool :=
  (0 ≤ msg.partSize && msg.partSize ≤ msg.data.length) && 1 ≤ msg.numParts && msg.numParts ≤ CSnapshot.maxParts &&
    0 ≤ msg.part && msg.part < msg.numParts && 0 ≤ msg.partSize && msg.partSize ≤ maxSnapshotPackSize

lemma accepted_iff {msg : SnapMsg} : msg.accepted = true ↔
    (0 ≤ msg.partSize ∧ msg.partSize ≤ msg.data.length ∧ msg.partSize ≤ maxSnapshotPackSize) ∧
      1 ≤ msg.numParts ∧ msg.numParts ≤ CSnapshot.maxParts ∧ 0 ≤ msg.part ∧ msg.part < msg.numParts := by
  simp only [accepted, Bool.and_eq_true, decide_eq_true_eq]
  tauto

end SnapMsg

/-! ### Sending -/

/-- The loop over the parts, `n` done and `left` bytes left. -/
def snapParts (gameTick deltaTick : ℤ) (crc : BitVec 32) (compData : List UInt8) (numPackets n left : ℕ) :
    List SnapMsg :=
  if _h : left = 0 then []
  else
    let chunk := if left < maxSnapshotPackSize then left else maxSnapshotPackSize
    let data := (compData.drop (n * maxSnapshotPackSize)).take chunk
    (if numPackets = 1 then .snapSingle gameTick (gameTick - deltaTick) crc chunk data
      else .snap gameTick (gameTick - deltaTick) numPackets n crc chunk data) ::
      snapParts gameTick deltaTick crc compData numPackets (n + 1) (left - chunk)
termination_by left
decreasing_by
  have hpos : 0 < maxSnapshotPackSize := by decide
  split <;> omega

/-- What `DoSnapshot` sends for the delta `deltaData`. -/
def sendDelta (gameTick deltaTick : ℤ) (crc : BitVec 32) (deltaData : Option (List (BitVec 32))) : List SnapMsg :=
  match deltaData with
  | none => [.snapEmpty gameTick (gameTick - deltaTick)]
  | some delta =>
    match CVariableInt.compress delta CSnapshot.maxSize with
    -- the size is -1 and the loop over the parts ends at once
    | none => []
    | some compData =>
      snapParts gameTick deltaTick crc compData ((compData.length + maxSnapshotPackSize - 1) / maxSnapshotPackSize) 0
        compData.length

/-- The part of `DoSnapshot` from the delta on: the new snapshot is sent as its difference to `deltashot`. -/
def sendSnapshot (itemSizes : ℤ → ℤ) (gameTick deltaTick : ℤ) (deltashot data : CSnapshot) : List SnapMsg :=
  sendDelta gameTick deltaTick (CSnapshot.crc data) (CSnapshotDelta.createDelta itemSizes deltashot data)

/-! ### What a client needs -/

/-- The messages carry the delta to a client: an empty snapshot if there is none, else between one and `MAX_PARTS` parts,
each one accepted, that make up the whole packed delta. -/
def Carries (msgs : List SnapMsg) (gameTick deltaTick : ℤ) (deltaData : Option (List (BitVec 32))) : Prop :=
  match deltaData with
  | none => msgs = [.snapEmpty gameTick (gameTick - deltaTick)]
  | some delta =>
    ∃ compData, CVariableInt.compress delta CSnapshot.maxSize = some compData ∧
      1 ≤ msgs.length ∧ msgs.length ≤ CSnapshot.maxParts ∧
      (∀ msg ∈ msgs, msg.data.length ≤ maxSnapshotPackSize ∧ msg.accepted = true) ∧
      msgs.flatMap SnapMsg.data = compData

/-- The ints of a delta take no more bytes than fit into the parts a client takes. -/
def FitsParts (deltaData : Option (List (BitVec 32))) : Prop :=
  ∀ delta, deltaData = some delta → (delta.map CVariableInt.intBytes).sum ≤ CSnapshot.maxParts * maxSnapshotPackSize

/-! ### The parts -/

variable {gameTick deltaTick : ℤ} {crc : BitVec 32} {compData : List UInt8} {numPackets : ℕ}

/-- The number of parts of so many bytes. -/
def partsOf (left : ℕ) : ℕ := (left + maxSnapshotPackSize - 1) / maxSnapshotPackSize

lemma partsOf_pos {left : ℕ} (h : left ≠ 0) : partsOf left = partsOf (left - min left maxSnapshotPackSize) + 1 := by
  simp only [partsOf, maxSnapshotPackSize]
  omega

lemma partsOf_le_iff {left : ℕ} :
    partsOf left ≤ CSnapshot.maxParts ↔ left ≤ CSnapshot.maxParts * maxSnapshotPackSize := by
  simp only [partsOf, maxSnapshotPackSize, CSnapshot.maxParts]
  omega

lemma snapParts_zero (n : ℕ) : snapParts gameTick deltaTick crc compData numPackets n 0 = [] := by
  rw [snapParts, dif_pos rfl]

/-- The part that is sent next. -/
def nextPart (gameTick deltaTick : ℤ) (crc : BitVec 32) (compData : List UInt8) (numPackets n left : ℕ) : SnapMsg :=
  let data := (compData.drop (n * maxSnapshotPackSize)).take (min left maxSnapshotPackSize)
  if numPackets = 1 then .snapSingle gameTick (gameTick - deltaTick) crc (min left maxSnapshotPackSize : ℕ) data
  else .snap gameTick (gameTick - deltaTick) numPackets n crc (min left maxSnapshotPackSize : ℕ) data

lemma snapParts_pos {left : ℕ} (h : left ≠ 0) (n : ℕ) :
    snapParts gameTick deltaTick crc compData numPackets n left =
      nextPart gameTick deltaTick crc compData numPackets n left ::
        snapParts gameTick deltaTick crc compData numPackets (n + 1) (left - min left maxSnapshotPackSize) := by
  have hchunk : (if left < maxSnapshotPackSize then left else maxSnapshotPackSize) = min left maxSnapshotPackSize := by
    split <;> omega
  rw [snapParts, dif_neg h, hchunk, nextPart]

lemma data_nextPart (n left : ℕ) : (nextPart gameTick deltaTick crc compData numPackets n left).data =
    (compData.drop (n * maxSnapshotPackSize)).take (min left maxSnapshotPackSize) := by
  rw [nextPart]
  split <;> rfl

/-- A part is accepted if the client takes so many parts. -/
lemma accepted_nextPart {n left : ℕ} (hleft : n * maxSnapshotPackSize + left = compData.length)
    (hn : n < numPackets) (hparts : numPackets ≤ CSnapshot.maxParts) :
    (nextPart gameTick deltaTick crc compData numPackets n left).accepted = true := by
  have hlength : ((compData.drop (n * maxSnapshotPackSize)).take (min left maxSnapshotPackSize)).length =
      min left maxSnapshotPackSize := by
    rw [List.length_take, List.length_drop]
    omega
  rw [nextPart]
  split_ifs
  · rw [SnapMsg.accepted_iff]
    simp only [SnapMsg.partSize, SnapMsg.data, SnapMsg.numParts, SnapMsg.part, hlength]
    omega
  · rw [SnapMsg.accepted_iff]
    simp only [SnapMsg.partSize, SnapMsg.data, SnapMsg.numParts, SnapMsg.part, hlength]
    omega

/-- The parts from the `n`-th on: their number, what each one carries and what they make up together. -/
lemma snapParts_spec {n left : ℕ} (hleft : n * maxSnapshotPackSize + left = compData.length) :
    (snapParts gameTick deltaTick crc compData numPackets n left).length = partsOf left ∧
      (snapParts gameTick deltaTick crc compData numPackets n left).flatMap SnapMsg.data =
        compData.drop (n * maxSnapshotPackSize) ∧
      ∀ msg ∈ snapParts gameTick deltaTick crc compData numPackets n left,
        msg.data.length ≤ maxSnapshotPackSize ∧
          (n + partsOf left = numPackets → numPackets ≤ CSnapshot.maxParts → msg.accepted = true) := by
  induction left using Nat.strong_induction_on generalizing n with
  | _ left ih =>
    by_cases h : left = 0
    · subst h
      rw [snapParts_zero, List.drop_of_length_le (by omega)]
      exact ⟨rfl, rfl, fun msg hmsg => nomatch hmsg⟩
    have hpos : 0 < maxSnapshotPackSize := by decide
    have hsucc : (n + 1) * maxSnapshotPackSize = n * maxSnapshotPackSize + maxSnapshotPackSize := Nat.succ_mul _ _
    rw [snapParts_pos h]
    by_cases hlast : left ≤ maxSnapshotPackSize
    · -- the last part takes all that is left
      rw [min_eq_left hlast, Nat.sub_self, snapParts_zero]
      have hparts : partsOf left = 1 := by rw [partsOf_pos h, min_eq_left hlast, Nat.sub_self]; rfl
      refine ⟨hparts.symm, ?_, fun msg hmsg => ?_⟩
      · rw [List.flatMap_cons, data_nextPart, min_eq_left hlast, List.flatMap_nil, List.append_nil]
        exact List.take_of_length_le (by rw [List.length_drop]; omega)
      · rw [List.mem_singleton] at hmsg
        subst hmsg
        refine ⟨?_, fun hnum hmax => accepted_nextPart hleft (by omega) hmax⟩
        rw [data_nextPart, List.length_take]
        omega
    · have hmin : min left maxSnapshotPackSize = maxSnapshotPackSize := by omega
      obtain ⟨hlength, hdata, hall⟩ := @ih (left - maxSnapshotPackSize) (by omega) (n + 1) (by omega)
      have hparts := partsOf_pos h
      rw [hmin] at hparts ⊢
      refine ⟨?_, ?_, fun msg hmsg => ?_⟩
      · rw [List.length_cons, hlength, hparts]
      · rw [List.flatMap_cons, hdata, data_nextPart, hmin, hsucc, ← List.drop_drop, List.take_append_drop]
      · rcases List.mem_cons.mp hmsg with rfl | hmem
        · refine ⟨?_, fun hnum hmax => accepted_nextPart hleft (by omega) hmax⟩
          rw [data_nextPart, List.length_take]
          omega
        · exact ⟨(hall msg hmem).1, fun hnum => (hall msg hmem).2 (by omega)⟩

/-! ### Which deltas are carried -/

/-- A delta is carried if and only if its packed ints fit into the parts. -/
lemma sendDelta_carries_iff {delta : List (BitVec 32)} (hne : delta ≠ []) :
    Carries (sendDelta gameTick deltaTick crc (some delta)) gameTick deltaTick (some delta) ↔
      (delta.map CVariableInt.intBytes).sum ≤ CSnapshot.maxParts * maxSnapshotPackSize := by
  have hsize : CSnapshot.maxParts * maxSnapshotPackSize ≤ CSnapshot.maxSize := by decide
  rw [← CVariableInt.length_packedInts, Carries, sendDelta, CVariableInt.compress_eq delta (by decide)]
  by_cases hroom : ((CVariableInt.packedInts delta).length : ℤ) ≤ CSnapshot.maxSize
  · rw [if_pos hroom]
    simp only [Option.some.injEq]
    generalize hcomp : CVariableInt.packedInts delta = compData
    have hzero : 0 * maxSnapshotPackSize + compData.length = compData.length := by omega
    have hpos : compData.length ≠ 0 := by
      have hle := CVariableInt.length_le_packedInts delta
      have hdelta := List.length_pos_of_ne_nil hne
      rw [hcomp] at hle
      omega
    obtain ⟨hlength, hdata, hall⟩ :=
      @snapParts_spec gameTick deltaTick crc compData (partsOf compData.length) 0 compData.length hzero
    rw [← partsOf_le_iff]
    constructor
    · rintro ⟨_, -, -, hparts, -⟩
      rwa [← partsOf, hlength] at hparts
    · intro hparts
      refine ⟨compData, rfl, ?_, ?_, fun msg hmsg => ?_, ?_⟩
      · rw [← partsOf, hlength, partsOf_pos hpos]
        exact Nat.succ_pos _
      · rwa [← partsOf, hlength]
      · exact ⟨(hall msg hmsg).1, (hall msg hmsg).2 (Nat.zero_add _) hparts⟩
      · rw [← partsOf, hdata, Nat.zero_mul, List.drop_zero]
  · rw [if_neg hroom]
    constructor
    · rintro ⟨_, h, -⟩
      exact nomatch h
    · intro h
      exact absurd (by exact_mod_cast h.trans hsize) hroom

/-- A snapshot reaches the client, whole and in parts that pass the checks, if and only if the ints of its delta take no
more bytes than there is room for in these parts. -/
theorem sendSnapshot_carries_iff (itemSizes : ℤ → ℤ) (gameTick deltaTick : ℤ) (deltashot data : CSnapshot) :
    Carries (sendSnapshot itemSizes gameTick deltaTick deltashot data) gameTick deltaTick
        (CSnapshotDelta.createDelta itemSizes deltashot data) ↔
      FitsParts (CSnapshotDelta.createDelta itemSizes deltashot data) := by
  rw [sendSnapshot]
  cases hdelta : CSnapshotDelta.createDelta itemSizes deltashot data with
  | none => exact ⟨fun _ delta h => (nomatch h), fun _ => rfl⟩
  | some delta =>
    rw [sendDelta_carries_iff (CSnapshotDelta.createDelta_ne_nil itemSizes hdelta), FitsParts]
    simp

/-! ### A crowded snapshot -/

def crowdedData : List (BitVec 32) := List.replicate 16 0x7fffffff

/-- An item of 16 large ints. -/
def crowdedItem (id : ℕ) : CSnapshotItem := ⟨CSnapshotItem.keyOf 5 id, crowdedData⟩

def crowdedItems (n : ℕ) : CSnapshot := (List.range n).map crowdedItem

def crowdedCall (id : ℕ) : CSnapshotBuilder.Call := .newItem 5 id crowdedData

lemma length_crowdedItems (n : ℕ) : (crowdedItems n).length = n := by
  rw [crowdedItems, List.length_map, List.length_range]

lemma crowdedItems_succ (n : ℕ) : crowdedItems (n + 1) = crowdedItems n ++ [crowdedItem n] := by
  rw [crowdedItems, List.range_succ, List.map_append]
  rfl

lemma dataSize_crowdedItems (n : ℕ) : CSnapshot.dataSize (crowdedItems n) = 68 * n := by
  induction n with
  | zero => rfl
  | succ n ih =>
    have hsize : (crowdedItem n).size = 68 := rfl
    rw [CSnapshot.dataSize] at ih
    rw [CSnapshot.dataSize, crowdedItems_succ, List.map_append, List.sum_append, ih, List.map_singleton, hsize]
    simp
    omega

/-- The builder takes all of the items. -/
lemma run_crowdedCalls {n : ℕ} (h : n ≤ 850) :
    CSnapshotBuilder.run id ⟨[], List.nodup_nil⟩ .new ((List.range n).map crowdedCall) = ⟨crowdedItems n, [], false⟩ := by
  induction n with
  | zero => rfl
  | succ n ih =>
    have hbefore := ih (by omega)
    have hroom : CSnapshotBuilder.hasRoom ⟨crowdedItems n, [], false⟩ 16 = true := by
      simp only [CSnapshotBuilder.hasRoom, length_crowdedItems, dataSize_crowdedItems, CSnapshot.maxItems,
        CSnapshot.maxSize_eq, Bool.and_eq_true, decide_eq_true_eq]
      omega
    have hid : ¬((n : ℤ) = -1 ∨ CSnapshotBuilder.hasRoom ⟨crowdedItems n, [], false⟩ crowdedData.length = false) := by
      rintro (hid | hno)
      · omega
      · exact absurd (hroom.symm.trans hno) (by simp)
    have hitem : CSnapshotBuilder.newItem id ⟨[], List.nodup_nil⟩ ⟨crowdedItems n, [], false⟩ 5 n crowdedData =
        some ⟨crowdedItems n ++ [crowdedItem n], [], false⟩ := by
      rw [CSnapshotBuilder.newItem, if_pos (by decide), CSnapshotBuilder.newPlainItem, if_neg hid]
      rfl
    rw [CSnapshotBuilder.run] at hbefore ⊢
    rw [List.range_succ, List.map_append, List.foldl_append, hbefore, List.map_singleton, List.foldl_cons, List.foldl_nil,
      crowdedCall, CSnapshotBuilder.exec, hitem, Option.getD_some, crowdedItems_succ]

lemma finish_crowdedItems {n : ℕ} (h : n ≤ 850) :
    (CSnapshotBuilder.mk (crowdedItems n) [] false).finish = some (crowdedItems n) := by
  rw [CSnapshotBuilder.finish]
  refine if_pos ⟨?_, ?_⟩
  · simp only [length_crowdedItems, CSnapshot.maxItems]
    omega
  · simp only [CSnapshot.totalSize, length_crowdedItems, dataSize_crowdedItems, CSnapshot.maxSize_eq]
    omega

/-- Records that take at least so many bytes each. -/
lemma mul_le_sum_flatten {f : BitVec 32 → ℕ} {k : ℕ} {records : List (List (BitVec 32))}
    (h : ∀ r ∈ records, k ≤ (r.map f).sum) : records.length * k ≤ (records.flatten.map f).sum := by
  induction records with
  | nil => simp
  | cons r records ih =>
    obtain ⟨hr, hrecords⟩ := List.forall_mem_cons.mp h
    have hrest := ih hrecords
    rw [List.length_cons, Nat.succ_mul, List.flatten_cons, List.map_append, List.sum_append]
    omega

/-- The record of a wide item against a snapshot without the item. -/
def crowdedRecord (id : ℕ) : List (BitVec 32) := CSnapshotDelta.recordHead (fun _ => 0) (crowdedItem id) ++ crowdedData

lemma length_crowdedRecord (id : ℕ) : (crowdedRecord id).length = 19 := by
  simp [crowdedRecord, CSnapshotDelta.recordHead, CSnapshotDelta.includeSize, crowdedData]

lemma sum_crowdedRecord (id : ℕ) : 80 ≤ ((crowdedRecord id).map CVariableInt.intBytes).sum := by
  have hdata : (crowdedData.map CVariableInt.intBytes).sum = 80 := by decide
  rw [crowdedRecord, List.map_append, List.sum_append, hdata]
  omega

/-- The delta of large items: its size, and the room it takes when it is packed. -/
lemma createDelta_crowdedItems {n : ℕ} (hpos : 0 < n) :
    ∃ delta, CSnapshotDelta.createDelta (fun _ => 0) [] (crowdedItems n) = some delta ∧ delta.length = 3 + 19 * n ∧
      80 * n ≤ (delta.map CVariableInt.intBytes).sum := by
  have hne : crowdedItems n ≠ [] := List.ne_nil_of_length_pos (by rwa [length_crowdedItems])
  have hrecords : ((crowdedItems n).map fun item => CSnapshotDelta.recordHead (fun _ => 0) item ++ item.data) =
      (List.range n).map crowdedRecord := by
    rw [crowdedItems, List.map_map]
    rfl
  refine ⟨_, CSnapshotDelta.createDelta_empty (fun _ => 0) (crowdedItems n) hne, ?_, ?_⟩
  · rw [hrecords, List.length_append, List.length_flatten, List.map_map]
    simp only [Function.comp_def, length_crowdedRecord, List.map_const', List.sum_replicate, List.length_range]
    simp
    omega
  · have hsum := @mul_le_sum_flatten CVariableInt.intBytes 80 ((List.range n).map crowdedRecord) fun r hr => by
      obtain ⟨id, -, rfl⟩ := List.mem_map.mp hr
      exact sum_crowdedRecord id
    rw [List.length_map, List.length_range] at hsum
    rw [hrecords, List.map_append, List.sum_append]
    omega

/-- Builders make snapshots whose delta fits into its buffer and is not carried. -/
lemma crowdedItems_not_carried {n : ℕ} (h : n ≤ 850) (hmany : 57600 < 80 * n) :
    (CSnapshotBuilder.run id ⟨[], List.nodup_nil⟩ .new ((List.range n).map crowdedCall)).finish = some (crowdedItems n) ∧
      ∃ delta, CSnapshotDelta.createDelta (fun _ => 0) [] (crowdedItems n) = some delta ∧
        4 * delta.length ≤ CSnapshot.maxSize ∧
        ¬ Carries (sendSnapshot (fun _ => 0) 50 (-1) [] (crowdedItems n)) 50 (-1) (some delta) := by
  obtain ⟨delta, hdelta, hlength, hsum⟩ := @createDelta_crowdedItems n (by omega)
  refine ⟨?_, delta, hdelta, ?_, ?_⟩
  · rw [run_crowdedCalls h, finish_crowdedItems h]
  · rw [hlength, CSnapshot.maxSize_eq]
    omega
  · rw [sendSnapshot, hdelta, sendDelta_carries_iff (CSnapshotDelta.createDelta_ne_nil _ hdelta)]
    simp only [CSnapshot.maxParts, maxSnapshotPackSize]
    omega

/-- 850 large items are not carried, although a builder makes them and their delta fits into its buffer. -/
theorem not_sendSnapshot_carries :
    (CSnapshotBuilder.run id ⟨[], List.nodup_nil⟩ .new ((List.range 850).map crowdedCall)).finish = some (crowdedItems 850) ∧
      ∃ delta, CSnapshotDelta.createDelta (fun _ => 0) [] (crowdedItems 850) = some delta ∧
        4 * delta.length ≤ CSnapshot.maxSize ∧
        ¬ Carries (sendSnapshot (fun _ => 0) 50 (-1) [] (crowdedItems 850)) 50 (-1) (some delta) :=
  crowdedItems_not_carried (le_refl _) (by omega)

end DDNet
