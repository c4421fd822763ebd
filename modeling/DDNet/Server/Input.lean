/-
The input of a client (`NETMSG_INPUT` in `CServer::ProcessClientPacket` and the ticks of
`CServer::Run`, `engine/server/server.cpp`).

The handler writes the tick and the ints of a packet into the current slot of the client's ring
while it is still unpacking.  What a later tick sees of the ring are the inputs whose tick it
is.  A packet whose ints run out leaves such an input behind, and a packet with fewer ints than
a player input has leaves the others of it as they were; `input_packet_iff` says that it is
these packets only.
-/
import DDNet.Shared.Packer
import Mathlib.Data.Finset.Max
import Mathlib.Data.Set.Finite.Basic

namespace DDNet.CServer

/-- `MAX_INPUT_SIZE`. -/
def maxInputSize : ℕ := 128

/-- `MIN_TICK`. -/
def minTick : ℤ := 0

/-- `MAX_TICK`. -/
def maxTick : ℤ := 0x6FFFFFFF

/-- The length of `m_aInputs`. -/
def numInputs : ℕ := 200

/-- The ints of a `CNetObj_PlayerInput`, which is what the game reads of an input. -/
def playerInputSize : ℕ := 10

/-- The place of `m_PlayerFlags` among them. -/
def playerFlagsIndex : ℕ := 6

/-- `CClient::CInput`. -/
structure CInput where
  data : Vector (BitVec 32) maxInputSize
  gameTick : ℤ

/-- The part of `CClient` that holds the inputs. -/
structure ClientInput where
  sixup : Bool
  lastAckedSnapshot : BitVec 32
  lastInputTick : ℤ
  latestInput : Vector (BitVec 32) maxInputSize
  inputs : Vector CInput numInputs
  currentInput : Fin numInputs

/-- The ints of `data` that the game reads. -/
def playerInput (data : Vector (BitVec 32) maxInputSize) : List (BitVec 32) :=
  data.toList.take playerInputSize

/-! ### The packet -/

/-- `PlayerFlags_SevenToSix`. -/
def playerFlagsSevenToSix (flags : BitVec 32) : BitVec 32 :=
  (if flags &&& 2 ≠ 0 then 4 else 0) ||| (if flags &&& 4 ≠ 0 then 8 else 0) |||
    (if flags &&& 128 ≠ 0 then 16 else 0)

/-- `OnClientPrepareInput`. -/
def onClientPrepareInput (sixup : Bool) (data : Vector (BitVec 32) maxInputSize) :
    Vector (BitVec 32) maxInputSize :=
  if sixup then
    data.set playerFlagsIndex (playerFlagsSevenToSix (data.get ⟨playerFlagsIndex, by decide⟩)) (by decide)
  else data

/-- The first three ints of the packet: the acknowledged snapshot, the intended tick and the
number of ints that follow (`Size / 4`).  `none` if the handler returns before it has written
anything. -/
def inputHeader (unpacker : CUnpacker) : Option (BitVec 32 × ℤ × ℕ × CUnpacker) :=
  let (lastAckedSnapshot, unpacker) := unpacker.getInt
  let (intendedTick, unpacker) := unpacker.getInt
  let (size, unpacker) := unpacker.getInt
  if unpacker.error || size.toInt.tdiv 4 > maxInputSize || intendedTick.toInt < minTick ||
      intendedTick.toInt ≥ maxTick then none
  else some (lastAckedSnapshot, intendedTick.toInt, (size.toInt.tdiv 4).toNat, unpacker)

/-- The loop that unpacks the ints, from place `i` on. -/
def readInts : ℕ → ℕ → Vector (BitVec 32) maxInputSize → CUnpacker →
    Vector (BitVec 32) maxInputSize × CUnpacker
  | 0, _, data, unpacker => (data, unpacker)
  | n + 1, i, data, unpacker =>
      readInts n (i + 1) (data.setIfInBounds i unpacker.getInt.1) unpacker.getInt.2

/-- The tick that an input is for. -/
def inputTick (intendedTick tick : ℤ) : ℤ := if intendedTick ≤ tick then tick + 1 else intendedTick

/-- The handler of `NETMSG_INPUT`, with the unpacker behind the message id; `false` if it
returns because of an error. -/
def processInput (client : ClientInput) (tick : ℤ) (unpacker : CUnpacker) : ClientInput × Bool :=
  match inputHeader unpacker with
  | none => (client, false)
  | some (lastAckedSnapshot, intendedTick, n, unpacker) =>
      let client := { client with lastAckedSnapshot := lastAckedSnapshot, lastInputTick := intendedTick }
      let (data, unpacker) := readInts n 0 client.inputs[client.currentInput].data unpacker
      let input : CInput := ⟨data, inputTick intendedTick tick⟩
      if unpacker.error then ({ client with inputs := client.inputs.set client.currentInput input }, false)
      else
        let data := onClientPrepareInput client.sixup data
        ({ client with
          inputs := client.inputs.set client.currentInput { input with data := data }
          latestInput := data
          currentInput := ⟨(client.currentInput + 1) % numInputs, Nat.mod_lt _ (by decide)⟩ }, true)

/-! ### The ticks -/

/-- The inputs that `OnClientPredictedEarlyInput` gets for a tick; none stands for a null
pointer. -/
def earlyInputs (client : ClientInput) (tick : ℤ) : List (List (BitVec 32)) :=
  (client.inputs.toList.filter (·.gameTick = tick)).map fun input => playerInput input.data

/-- The input that `OnClientPredictedInput` gets for a tick. -/
def predictedInput (client : ClientInput) (tick : ℤ) : Option (List (BitVec 32)) :=
  (client.inputs.toList.find? (·.gameTick = tick)).map fun input => playerInput input.data

/-- What happens to a client that is in the game. -/
inductive InputEvent where
  | packet (unpacker : CUnpacker)
  | tick

/-- The inputs that are applied in a run of events. -/
def appliedInputs (client : ClientInput) (tick : ℤ) :
    List InputEvent → List (List (List (BitVec 32)) × Option (List (BitVec 32)))
  | [] => []
  | .packet unpacker :: events => appliedInputs (processInput client tick unpacker).1 tick events
  | .tick :: events =>
      (earlyInputs client (tick + 1), predictedInput client (tick + 1)) ::
        appliedInputs client (tick + 1) events

/-- A packet that is rejected changes nothing: no later tick applies other inputs than it would
have applied without the packet. -/
def RejectedUnobserved (unpacker : CUnpacker) : Prop :=
  ∀ client tick, (processInput client tick unpacker).2 = false →
    ∀ events, appliedInputs (processInput client tick unpacker).1 tick events =
      appliedInputs client tick events

/-- The input that a packet stores for its tick is a function of the packet alone (and of the
client's protocol). -/
def AcceptedAlone (unpacker : CUnpacker) : Prop :=
  ∀ sixup, ∃ input, ∀ client tick, client.sixup = sixup →
    (processInput client tick unpacker).2 = true →
    playerInput (processInput client tick unpacker).1.inputs[client.currentInput].data = input

/-- If the handler does not return before it writes, then the packet has all the ints it
announces, and at least a whole player input. -/
def CompleteInput (unpacker : CUnpacker) : Prop :=
  ∀ lastAckedSnapshot intendedTick n rest,
    inputHeader unpacker = some (lastAckedSnapshot, intendedTick, n, rest) →
    playerInputSize ≤ n ∧ ∀ data, (readInts n 0 data rest).2.error = false

/-! ### The ints that are read -/

lemma playerInput_congr {data data' : Vector (BitVec 32) maxInputSize}
    (h : ∀ j (hj : j < maxInputSize), j < playerInputSize → data[j] = data'[j]) :
    playerInput data = playerInput data' := by
  apply List.ext_getElem
  · simp [playerInput]
  · intro j hj hj'
    have hlt : j < playerInputSize := by
      rw [playerInput, List.length_take] at hj
      omega
    simpa [playerInput] using h j (hlt.trans (by decide)) hlt

/-- Whether the ints are there does not depend on what they overwrite. -/
lemma readInts_unpacker (n i : ℕ) (data data' : Vector (BitVec 32) maxInputSize) (unpacker : CUnpacker) :
    (readInts n i data unpacker).2 = (readInts n i data' unpacker).2 := by
  induction n generalizing i data data' unpacker with
  | zero => rfl
  | succ n ih => exact ih _ _ _ _

/-- The places that are not read into keep their ints. -/
lemma readInts_outside {n i j : ℕ} (data : Vector (BitVec 32) maxInputSize) (unpacker : CUnpacker)
    (hj : j < maxInputSize) (h : j < i ∨ i + n ≤ j) : (readInts n i data unpacker).1[j] = data[j] := by
  induction n generalizing i data unpacker with
  | zero => rfl
  | succ n ih =>
    rw [readInts, ih _ _ (by omega)]
    exact Vector.getElem_setIfInBounds_ne hj (by omega)

/-- The places that are read into do not depend on what was there. -/
lemma readInts_inside {n i j : ℕ} (data data' : Vector (BitVec 32) maxInputSize) (unpacker : CUnpacker)
    (hj : j < maxInputSize) (hlo : i ≤ j) (hhi : j < i + n) :
    (readInts n i data unpacker).1[j] = (readInts n i data' unpacker).1[j] := by
  induction n generalizing i data data' unpacker with
  | zero => omega
  | succ n ih =>
    rw [readInts, readInts]
    rcases Nat.eq_or_lt_of_le hlo with rfl | hlt
    · rw [readInts_outside _ _ hj (by omega), readInts_outside _ _ hj (by omega),
        Vector.getElem_setIfInBounds_self hj, Vector.getElem_setIfInBounds_self hj]
    · exact ih _ _ _ (by omega) (by omega)

/-! ### The handler -/

lemma processInput_none {unpacker : CUnpacker} (h : inputHeader unpacker = none) (client : ClientInput)
    (tick : ℤ) : processInput client tick unpacker = (client, false) := by
  simp only [processInput, h]

/-- The ints run out: the slot keeps the tick and the ints written so far. -/
lemma processInput_failed {unpacker rest : CUnpacker} {lastAckedSnapshot : BitVec 32} {intendedTick : ℤ}
    {n : ℕ} (h : inputHeader unpacker = some (lastAckedSnapshot, intendedTick, n, rest))
    {client : ClientInput} (tick : ℤ)
    (herror : (readInts n 0 client.inputs[client.currentInput].data rest).2.error = true) :
    processInput client tick unpacker =
      ({ client with
        lastAckedSnapshot := lastAckedSnapshot
        lastInputTick := intendedTick
        inputs := client.inputs.set client.currentInput
          ⟨(readInts n 0 client.inputs[client.currentInput].data rest).1, inputTick intendedTick tick⟩ },
        false) := by
  simp only [processInput, h, herror, if_true]

/-- The ints are all there: the slot holds them, and the next slot is the current one. -/
lemma processInput_accepted {unpacker rest : CUnpacker} {lastAckedSnapshot : BitVec 32} {intendedTick : ℤ}
    {n : ℕ} (h : inputHeader unpacker = some (lastAckedSnapshot, intendedTick, n, rest))
    {client : ClientInput} (tick : ℤ)
    (herror : (readInts n 0 client.inputs[client.currentInput].data rest).2.error = false) :
    (processInput client tick unpacker).2 = true ∧
      (processInput client tick unpacker).1.inputs[client.currentInput] =
        ⟨onClientPrepareInput client.sixup (readInts n 0 client.inputs[client.currentInput].data rest).1,
          inputTick intendedTick tick⟩ := by
  simp only [processInput, h, herror, Bool.false_eq_true, if_false]
  exact ⟨trivial, by simp⟩

/-- The input of a slot is among those of its tick. -/
lemma playerInput_mem_earlyInputs (client : ClientInput) (i : Fin numInputs) :
    playerInput client.inputs[i].data ∈ earlyInputs client client.inputs[i].gameTick := by
  refine List.mem_map.2 ⟨client.inputs[i], List.mem_filter.2 ⟨?_, by simp⟩, rfl⟩
  exact Vector.mem_toList_iff.2 (Vector.getElem_mem i.isLt)

lemma onClientPrepareInput_congr (sixup : Bool) {data data' : Vector (BitVec 32) maxInputSize}
    (h : ∀ j (hj : j < maxInputSize), j < playerInputSize → data[j] = data'[j]) :
    playerInput (onClientPrepareInput sixup data) = playerInput (onClientPrepareInput sixup data') := by
  have hflags : data.get ⟨playerFlagsIndex, by decide⟩ = data'.get ⟨playerFlagsIndex, by decide⟩ :=
    h playerFlagsIndex (by decide) (by decide)
  apply playerInput_congr
  intro j hj hlt
  rw [onClientPrepareInput, onClientPrepareInput]
  cases sixup with
  | false => exact h j hj hlt
  | true =>
    rw [if_pos rfl, if_pos rfl, Vector.getElem_set, Vector.getElem_set, hflags, h j hj hlt]

/-! ### The claim -/

lemma rejectedUnobserved_of_complete {unpacker : CUnpacker} (h : CompleteInput unpacker) :
    RejectedUnobserved unpacker := by
  intro client tick hrejected events
  rcases hheader : inputHeader unpacker with _ | ⟨lastAckedSnapshot, intendedTick, n, rest⟩
  · rw [processInput_none hheader]
  · obtain ⟨-, hall⟩ := h _ _ _ _ hheader
    obtain ⟨haccepted, -⟩ := processInput_accepted hheader tick (hall client.inputs[client.currentInput].data)
    exact absurd hrejected (by rw [haccepted]; simp)

lemma acceptedAlone_of_complete {unpacker : CUnpacker} (h : CompleteInput unpacker) :
    AcceptedAlone unpacker := by
  intro sixup
  rcases hheader : inputHeader unpacker with _ | ⟨lastAckedSnapshot, intendedTick, n, rest⟩
  · refine ⟨[], fun client tick _ haccepted => ?_⟩
    rw [processInput_none hheader] at haccepted
    exact absurd haccepted (by simp)
  · obtain ⟨hlarge, hall⟩ := h _ _ _ _ hheader
    refine ⟨playerInput (onClientPrepareInput sixup (readInts n 0 (Vector.replicate _ 0) rest).1), ?_⟩
    rintro client tick rfl -
    obtain ⟨-, hslot⟩ := processInput_accepted hheader tick (hall client.inputs[client.currentInput].data)
    rw [hslot]
    apply onClientPrepareInput_congr
    intro j hj hlt
    exact readInts_inside _ _ _ hj (Nat.zero_le j) (by omega)

/-- A client after `CClient::Reset` whose slots hold the int `i` everywhere. -/
def freshClient (i : BitVec 32) : ClientInput where
  sixup := false
  lastAckedSnapshot := -1
  lastInputTick := -1
  latestInput := Vector.replicate _ 0
  inputs := Vector.replicate _ ⟨Vector.replicate _ i, -1⟩
  currentInput := ⟨0, by decide⟩

lemma earlyInputs_freshClient (i : BitVec 32) {tick : ℤ} (h : 0 ≤ tick) :
    earlyInputs (freshClient i) tick = [] := by
  rw [earlyInputs, List.filter_eq_nil_iff.2, List.map_nil]
  intro input hinput
  obtain ⟨-, rfl⟩ : _ ∧ input = ⟨Vector.replicate _ i, -1⟩ := by
    simpa [freshClient] using hinput
  simp only [decide_eq_true_eq]
  omega

/-- A packet whose ints run out is seen at the tick it is for. -/
lemma not_rejectedUnobserved {unpacker rest : CUnpacker} {lastAckedSnapshot : BitVec 32}
    {intendedTick : ℤ} {n : ℕ}
    (h : inputHeader unpacker = some (lastAckedSnapshot, intendedTick, n, rest))
    {data : Vector (BitVec 32) maxInputSize} (herror : (readInts n 0 data rest).2.error = true) :
    ¬RejectedUnobserved unpacker := by
  intro hunobserved
  have hfresh : (readInts n 0 (freshClient 0).inputs[(freshClient 0).currentInput].data rest).2.error = true := by
    rw [readInts_unpacker _ _ _ data]
    exact herror
  set tick : ℤ := max 0 (intendedTick - 1) with htick
  have hfailed := processInput_failed h tick hfresh
  have happlied := hunobserved (freshClient 0) tick (by rw [hfailed]) [.tick]
  have hnext : inputTick intendedTick tick = tick + 1 := by
    rw [inputTick]
    split_ifs <;> omega
  have hslot := playerInput_mem_earlyInputs (processInput (freshClient 0) tick unpacker).1
    (freshClient 0).currentInput
  simp only [appliedInputs, List.cons.injEq, Prod.mk.injEq] at happlied
  have hgame : (processInput (freshClient 0) tick unpacker).1.inputs[(freshClient 0).currentInput].gameTick =
      tick + 1 := by
    rw [hfailed]
    simpa using hnext
  rw [hgame, happlied.1.1, earlyInputs_freshClient 0 (by omega)] at hslot
  exact absurd hslot (by simp)

/-- A packet with fewer ints than a player input leaves the last one as it was. -/
lemma not_acceptedAlone {unpacker rest : CUnpacker} {lastAckedSnapshot : BitVec 32} {intendedTick : ℤ}
    {n : ℕ} (h : inputHeader unpacker = some (lastAckedSnapshot, intendedTick, n, rest))
    (herror : ∀ data, (readInts n 0 data rest).2.error = false) (hshort : n < playerInputSize) :
    ¬AcceptedAlone unpacker := by
  intro halone
  obtain ⟨input, hinput⟩ := halone false
  have hlast : ∀ i : BitVec 32, input[playerInputSize - 1]? = some i := by
    intro i
    obtain ⟨haccepted, hslot⟩ := processInput_accepted h 0
      (herror (freshClient i).inputs[(freshClient i).currentInput].data)
    rw [← hinput (freshClient i) 0 rfl haccepted, hslot]
    have hkeep := readInts_outside (freshClient i).inputs[(freshClient i).currentInput].data rest
      (show playerInputSize - 1 < maxInputSize by decide) (show _ ∨ 0 + n ≤ _ by omega)
    simp only [onClientPrepareInput, playerInput]
    rw [List.getElem?_take_of_lt (by decide), Vector.getElem?_toList,
      Vector.getElem?_eq_getElem (by decide), if_neg (by simp [freshClient]), hkeep]
    simp [freshClient]
  have hne := (hlast 0).symm.trans (hlast 1)
  exact absurd hne (by decide)

/-- **Input packets.**  A rejected packet changes nothing that a tick observes, and an accepted
one stores an input that it alone determines, exactly if a packet that gets past the first
check has all its ints, and at least those of a player input. -/
theorem input_packet_iff (unpacker : CUnpacker) :
    RejectedUnobserved unpacker ∧ AcceptedAlone unpacker ↔ CompleteInput unpacker := by
  constructor
  · rintro ⟨hunobserved, halone⟩ lastAckedSnapshot intendedTick n rest hheader
    have hall : ∀ data, (readInts n 0 data rest).2.error = false := by
      intro data
      by_contra herror
      exact not_rejectedUnobserved hheader (by simpa using herror) hunobserved
    refine ⟨?_, hall⟩
    by_contra hshort
    exact not_acceptedAlone hheader hall (by omega) halone
  · intro hcomplete
    exact ⟨rejectedUnobserved_of_complete hcomplete, acceptedAlone_of_complete hcomplete⟩

/-- The packet announces one int for tick 1 and ends: the handler returns with an error, and
tick 1 applies an input of zeros where the client has sent none. -/
theorem input_packet_truncated :
    (processInput (freshClient 0) 0 (.reset [0, 1, 4])).2 = false ∧
      appliedInputs (processInput (freshClient 0) 0 (.reset [0, 1, 4])).1 0 [.tick] =
        [([List.replicate 10 0], some (List.replicate 10 0))] ∧
      appliedInputs (freshClient 0) 0 [.tick] = [([], none)] := by
  decide +kernel

/-! ### The two passes of a tick -/

/-- If both passes of a tick find an input, then the last one that the early pass hands to the game
is the one that the final pass hands to it. -/
def PassesAgree (client : ClientInput) (tick : ℤ) : Prop :=
  ∀ early final, (earlyInputs client tick).getLast? = some early →
    predictedInput client tick = some final → early = final

/-- The slots of the ring with an input for the tick. -/
def slotsOf (client : ClientInput) (tick : ℤ) : Set (Fin numInputs) :=
  {i | client.inputs[i].gameTick = tick}

/-- The early pass goes through the whole ring, so it ends with the last slot. -/
lemma getLast?_earlyInputs {client : ClientInput} {tick : ℤ} {i : Fin numInputs}
    (h : IsGreatest (slotsOf client tick) i) :
    (earlyInputs client tick).getLast? = some (playerInput client.inputs[i].data) := by
  obtain ⟨hi, hgreatest⟩ := h
  have hlength : client.inputs.toList.length = numInputs := Vector.length_toList
  have hfind : client.inputs.toList.reverse.find? (·.gameTick = tick) = some client.inputs[i] := by
    rw [List.find?_eq_some_iff_getElem]
    refine ⟨by simpa [slotsOf] using hi, numInputs - 1 - i, by simp; omega, by simp; grind, fun j hj => ?_⟩
    -- what stands behind the slot is for other ticks
    rw [List.getElem_reverse]
    have hnot : (⟨numInputs - 1 - j, by omega⟩ : Fin numInputs) ∉ slotsOf client tick :=
      fun hmem => absurd (hgreatest hmem) (by rw [Fin.le_def]; simp; omega)
    simpa [slotsOf, hlength] using hnot
  rw [earlyInputs, List.getLast?_map, List.getLast?_filter, hfind]
  rfl

/-- The final pass stops at the first slot. -/
lemma predictedInput_of_least {client : ClientInput} {tick : ℤ} {i : Fin numInputs}
    (h : IsLeast (slotsOf client tick) i) :
    predictedInput client tick = some (playerInput client.inputs[i].data) := by
  obtain ⟨hi, hleast⟩ := h
  have hfind : client.inputs.toList.find? (·.gameTick = tick) = some client.inputs[i] := by
    rw [List.find?_eq_some_iff_getElem]
    refine ⟨by simpa [slotsOf] using hi, i, by simp, by simp, fun j hj => ?_⟩
    have hnot : (⟨j, by omega⟩ : Fin numInputs) ∉ slotsOf client tick :=
      fun hmem => absurd (hleast hmem) (by rw [Fin.le_def]; simp; omega)
    simpa [slotsOf] using hnot
  rw [predictedInput, hfind]
  rfl

lemma slotsOf_nonempty {client : ClientInput} {tick : ℤ} {final : List (BitVec 32)}
    (h : predictedInput client tick = some final) : (slotsOf client tick).Nonempty := by
  obtain ⟨input, hinput, -⟩ := Option.map_eq_some_iff.1 h
  obtain ⟨i, hi, rfl⟩ := List.mem_iff_getElem.1 (List.mem_of_find?_eq_some hinput)
  exact ⟨⟨i, by simpa using hi⟩, by simpa [slotsOf] using List.find?_some hinput⟩

/-- **Early and final input.**  The two passes agree on a tick exactly if the first and the last of
the slots with an input for it hold the same input. -/
theorem passesAgree_iff (client : ClientInput) (tick : ℤ) : PassesAgree client tick ↔
    ∀ i j, IsLeast (slotsOf client tick) i → IsGreatest (slotsOf client tick) j →
      playerInput client.inputs[i].data = playerInput client.inputs[j].data := by
  constructor
  · intro hagree i j hi hj
    exact (hagree _ _ (getLast?_earlyInputs hj) (predictedInput_of_least hi)).symm
  · intro halike early final hearly hfinal
    have hfinite := Set.toFinite (slotsOf client tick)
    have hnonempty := hfinite.toFinset_nonempty.2 (slotsOf_nonempty hfinal)
    have hleast := hfinite.toFinset.isLeast_min' hnonempty
    have hgreatest := hfinite.toFinset.isGreatest_max' hnonempty
    rw [hfinite.coe_toFinset] at hleast hgreatest
    rw [getLast?_earlyInputs hgreatest] at hearly
    rw [predictedInput_of_least hleast] at hfinal
    have hsame := halike _ _ hleast hgreatest
    rw [← Option.some_injective _ hearly, ← Option.some_injective _ hfinal]
    exact hsame.symm

/-- Two packets for tick 1, with the inputs 5 and 6: the early pass ends with the second one, and
the final pass takes the first one. -/
theorem twoPackets_disagree :
    ¬PassesAgree (processInput (processInput (freshClient 0) 0 (.reset [0, 1, 4, 5])).1 0
      (.reset [0, 1, 4, 6])).1 1 := by
  intro hagree
  have hsame := hagree (6 :: List.replicate 9 0) (5 :: List.replicate 9 0) (by decide +kernel) (by decide +kernel)
  exact absurd hsame (by decide)

end DDNet.CServer
