/-
What a reader makes of a teehistorian file.

The reader infers the ticks that are not written: it counts a tick when the client id of a player record is not
greater than the one before.  `Inv` says what the reader knows between two calls; it is kept by every call, and so
the reader has every event at the tick at which it was recorded (`run_replays`).
-/
import DDNet.Server.TeeHistorian

namespace DDNet

open Packing

/-! ### The reader -/

/-- The int at a place of a record. -/
def intAt (fields : List TeeField) (i : ℕ) : BitVec 32 :=
  match fields[i]? with
  | some (.int n) => n
  | _ => 0

structure TeeReader where
  tick : ℤ
  prevCid : ℤ
  positions : Positions
  inputs : ℕ → CNetObjPlayerInput
  events : List (ℤ × TeeEvent)

namespace TeeReader

/-- The greatest client id. -/
def maxId : ℤ := maxClients - 1

def init : TeeReader where
  tick := 0
  prevCid := maxId
  positions _ := none
  inputs _ _ := 0
  events := []

/-- The tick that a player record implies. -/
def advance (clientId : ℤ) (r : TeeReader) : TeeReader :=
  if clientId ≤ r.prevCid then { r with tick := r.tick + 1, prevCid := clientId }
  else { r with prevCid := clientId }

def note (event : TeeEvent) (r : TeeReader) : TeeReader := { r with events := r.events ++ [(r.tick, event)] }

def setPosition (clientId : ℕ) (position : Option (BitVec 32 × BitVec 32)) (r : TeeReader) : TeeReader :=
  { r with positions := Function.update r.positions clientId position }

def setInput (clientId : ℕ) (input : CNetObjPlayerInput) (r : TeeReader) : TeeReader :=
  { r with inputs := Function.update r.inputs clientId input }

def playerAt (clientId : ℕ) (x y : BitVec 32) (r : TeeReader) : TeeReader :=
  (r.setPosition clientId (some (x, y))).note (.player clientId x y)

/-- A record. -/
def step (r : TeeReader) (fields : List TeeField) : TeeReader :=
  let tag := intAt fields 0
  let clientId := intAt fields 1
  if 0 ≤ tag.toInt then
    let position := (r.positions tag.toNat).getD (0, 0)
    (r.advance tag.toInt).playerAt tag.toNat (position.1 + intAt fields 1) (position.2 + intAt fields 2)
  else if tag = teehistorianTickSkip then
    { r with tick := r.tick + (intAt fields 1).toInt + 1, prevCid := -1 }
  else if tag = teehistorianPlayerNew then
    (r.advance clientId.toInt).playerAt clientId.toNat (intAt fields 2) (intAt fields 3)
  else if tag = teehistorianPlayerOld then
    ((r.advance clientId.toInt).setPosition clientId.toNat none).note (.dead clientId.toNat)
  else if tag = teehistorianInputDiff then
    let input : CNetObjPlayerInput := fun i => r.inputs clientId.toNat i + intAt fields (i.val + 2)
    (r.setInput clientId.toNat input).note (.input clientId.toNat input)
  else if tag = teehistorianInputNew then
    let input : CNetObjPlayerInput := fun i => intAt fields (i.val + 2)
    (r.setInput clientId.toNat input).note (.input clientId.toNat input)
  else
    r.note .other

def replay (records : List (List TeeField)) : TeeReader := records.foldl step init

end TeeReader

/-- The positions after the events. -/
def TeeEvent.apply (positions : Positions) : TeeEvent → Positions
  | .player clientId x y => Function.update positions clientId (some (x, y))
  | .dead clientId => Function.update positions clientId none
  | _ => positions

def positionsOf (events : List (ℤ × TeeEvent)) : Positions :=
  events.foldl (fun positions event => event.2.apply positions) fun _ => none

/-- The positions at the end of a tick. -/
def positionsAt (events : List (ℤ × TeeEvent)) (tick : ℤ) : Positions :=
  positionsOf (events.filter fun event => event.1 ≤ tick)

/-! ### Single records -/

namespace TeeReader

lemma toNat_packedId (clientId : ClientId) : (BitVec.ofNat 32 clientId.val).toNat = clientId.val := by
  have hlt : clientId.val < 64 := clientId.isLt
  rw [BitVec.toNat_ofNat]
  omega

lemma toInt_packedId (clientId : ClientId) : (BitVec.ofNat 32 clientId.val).toInt = clientId.val := by
  have hlt : clientId.val < 64 := clientId.isLt
  rw [BitVec.toInt_eq_toNat_of_lt (by rw [toNat_packedId]; omega), toNat_packedId]

lemma step_tickSkip (r : TeeReader) {dt : ℤ} (hlow : -2 ^ 31 ≤ dt) (hhigh : dt < 2 ^ 31) :
    r.step [.int teehistorianTickSkip, .int (BitVec.ofInt 32 dt)] =
      { r with tick := r.tick + dt + 1, prevCid := -1 } := by
  have hdt : (BitVec.ofInt 32 dt).toInt = dt := by
    rw [BitVec.toInt_ofInt]
    exact Int.bmod_eq_of_le (by omega) (by omega)
  rw [step]
  simp only [intAt, List.getElem?_cons_zero, List.getElem?_cons_succ, hdt]
  rfl

lemma step_playerDiff (r : TeeReader) (clientId : ClientId) (dx dy : BitVec 32) {x y : BitVec 32}
    (hposition : r.positions clientId.val = some (x, y)) :
    r.step [.int (BitVec.ofNat 32 clientId.val), .int dx, .int dy] =
      (r.advance clientId.val).playerAt clientId.val (x + dx) (y + dy) := by
  rw [step]
  simp only [intAt, List.getElem?_cons_zero, List.getElem?_cons_succ, toInt_packedId, toNat_packedId, hposition]
  rw [if_pos (Int.natCast_nonneg _)]
  rfl

lemma step_playerNew (r : TeeReader) (clientId : ClientId) (x y : BitVec 32) :
    r.step [.int teehistorianPlayerNew, .int (BitVec.ofNat 32 clientId.val), .int x, .int y] =
      (r.advance clientId.val).playerAt clientId.val x y := by
  rw [step]
  simp only [intAt, List.getElem?_cons_zero, List.getElem?_cons_succ, toInt_packedId, toNat_packedId]
  rfl

lemma step_playerOld (r : TeeReader) (clientId : ClientId) :
    r.step [.int teehistorianPlayerOld, .int (BitVec.ofNat 32 clientId.val)] =
      ((r.advance clientId.val).setPosition clientId.val none).note (.dead clientId.val) := by
  rw [step]
  simp only [intAt, List.getElem?_cons_zero, List.getElem?_cons_succ, toInt_packedId, toNat_packedId]
  rfl

lemma intAt_packedInput (tag id : BitVec 32) (input : CNetObjPlayerInput) (i : Fin 10) :
    intAt (.int tag :: .int id :: (CTeeHistorian.packedInput input).map TeeOp.packed) (i.val + 2) = input i := by
  rw [intAt, List.getElem?_cons_succ, List.getElem?_cons_succ, CTeeHistorian.packedInput, List.map_map,
    List.getElem?_map, List.getElem?_ofFn, dif_pos i.isLt]
  rfl

lemma step_inputDiff (r : TeeReader) (clientId : ClientId) (diff : CNetObjPlayerInput) :
    r.step (.int teehistorianInputDiff :: .int (BitVec.ofNat 32 clientId.val) ::
        (CTeeHistorian.packedInput diff).map TeeOp.packed) =
      (r.setInput clientId.val fun i => r.inputs clientId.val i + diff i).note
        (.input clientId.val fun i => r.inputs clientId.val i + diff i) := by
  rw [step]
  simp only [intAt_packedInput]
  simp only [intAt, List.getElem?_cons_zero, List.getElem?_cons_succ, toNat_packedId]
  rfl

lemma step_inputNew (r : TeeReader) (clientId : ClientId) (input : CNetObjPlayerInput) :
    r.step (.int teehistorianInputNew :: .int (BitVec.ofNat 32 clientId.val) ::
        (CTeeHistorian.packedInput input).map TeeOp.packed) =
      (r.setInput clientId.val input).note (.input clientId.val input) := by
  rw [step]
  simp only [intAt_packedInput]
  simp only [intAt, List.getElem?_cons_zero, List.getElem?_cons_succ, toNat_packedId]
  rfl

/-- The first ints of the records that are not about positions, inputs and ticks. -/
def OtherTag (tag : BitVec 32) : Prop :=
  tag = teehistorianMessage ∨ tag = teehistorianJoin ∨ tag = teehistorianDrop ∨ tag = teehistorianConsoleCommand ∨
    tag = teehistorianEx

lemma step_other (r : TeeReader) {tag : BitVec 32} (h : OtherTag tag) (fields : List TeeField) :
    r.step (.int tag :: fields) = r.note .other := by
  rw [step]
  rcases h with rfl | rfl | rfl | rfl | rfl <;> rfl

lemma replay_append (records : List (List TeeField)) (fields : List TeeField) :
    replay (records ++ [fields]) = (replay records).step fields := by
  rw [replay, List.foldl_append]
  rfl

end TeeReader

namespace CTeeHistorian

/-- What the reader has of the file. -/
def reader (th : CTeeHistorian) : TeeReader := .replay (th.file.map TeeEntry.fields)

lemma reader_append {th th' : CTeeHistorian} {entry : TeeEntry} (h : th'.file = th.file ++ [entry]) :
    th'.reader = th.reader.step entry.fields := by
  rw [reader, h, List.map_append]
  exact TeeReader.replay_append _ _

lemma positions_setPlayer (th : CTeeHistorian) (clientId : ClientId) (player : CTeehistorianPlayer) :
    (th.setPlayer clientId player).positions =
      Function.update th.positions clientId.val (if player.alive then some (player.x, player.y) else none) := by
  funext n
  by_cases hn : n = clientId.val
  · subst hn
    rw [Function.update_self, positions, dif_pos clientId.isLt, setPlayer]
    dsimp only
    rw [Function.update_self]
  · rw [Function.update_of_ne hn, positions, positions]
    split_ifs with hlt
    · have hne : (⟨n, hlt⟩ : ClientId) ≠ clientId := fun h => hn (congrArg Fin.val h)
      rw [setPlayer]
      dsimp only
      rw [Function.update_of_ne hne]
    · rfl

lemma positions_at (th : CTeeHistorian) (clientId : ClientId) :
    th.positions clientId.val = if (th.prevPlayers clientId).alive then
      some ((th.prevPlayers clientId).x, (th.prevPlayers clientId).y) else none := by
  rw [positions, dif_pos clientId.isLt]

/-- A change of the input or the team of a player. -/
lemma positions_setPlayer_same (th : CTeeHistorian) (clientId : ClientId) {player : CTeehistorianPlayer}
    (halive : player.alive = (th.prevPlayers clientId).alive) (hx : player.x = (th.prevPlayers clientId).x)
    (hy : player.y = (th.prevPlayers clientId).y) : (th.setPlayer clientId player).positions = th.positions := by
  rw [positions_setPlayer, halive, hx, hy, ← positions_at, Function.update_eq_self]

/-! ### The invariant -/

/-- What the client id of the last player record has to do with those of the teehistorian. -/
def Ids (prevCid : ℤ) (th : CTeeHistorian) : Prop :=
  match th.state with
  | .beforePlayers =>
      if th.tickWritten then prevCid = -1 else min th.maxClientId TeeReader.maxId ≤ prevCid
  | .players =>
      if th.tickWritten then prevCid = th.maxClientId
      else th.maxClientId = -1 ∧ min th.prevMaxClientId TeeReader.maxId ≤ prevCid
  | _ => min th.maxClientId TeeReader.maxId ≤ prevCid ∧ (th.tickWritten = false → th.maxClientId = -1)

/-- The reader has the ticks, the positions, the inputs and the events of the teehistorian. -/
structure Inv (th : CTeeHistorian) : Prop where
  tick : th.reader.tick = th.lastWrittenTick
  written : th.tickWritten = true → th.lastWrittenTick = th.tick
  unwritten : th.tickWritten = false → th.lastWrittenTick < th.tick
  nonneg : 0 ≤ th.lastWrittenTick
  lt : th.tick < 2 ^ 31
  events : th.reader.events = th.events
  positions : th.reader.positions = th.positions
  inputs : ∀ clientId, (th.prevPlayers clientId).uniqueClientId ≠ 0 →
    th.reader.inputs clientId.val = (th.prevPlayers clientId).input
  low : -1 ≤ th.reader.prevCid
  ids : Ids th.reader.prevCid th

/-- The positions at the ends of the ticks are those of the events up to them. -/
structure History (th : CTeeHistorian) : Prop where
  positions : positionsOf th.events = th.positions
  ticks : ∀ event ∈ th.events, event.1 ≤ th.tick
  ended : ∀ e ∈ th.ended, e.1 ≤ th.tick ∧ (th.state = .beforePlayers ∨ th.state = .players → e.1 < th.tick) ∧
    positionsAt th.events e.1 = e.2

lemma reset_inv (players : ClientId → CTeehistorianPlayer) : Inv (reset players) where
  tick := rfl
  written _ := rfl
  unwritten h := absurd h nofun
  nonneg := Int.le_refl _
  lt := by show (0 : ℤ) < 2 ^ 31; omega
  events := rfl
  positions := by
    funext n
    rw [CTeeHistorian.positions]
    split_ifs <;> rfl
  inputs _ h := absurd rfl h
  low := by show (-1 : ℤ) ≤ TeeReader.maxId; decide
  ids := ⟨by show min (maxClients : ℤ) TeeReader.maxId ≤ TeeReader.maxId; decide, nofun⟩

lemma reset_history (players : ClientId → CTeehistorianPlayer) : History (reset players) where
  positions := by
    funext n
    rw [CTeeHistorian.positions]
    split_ifs <;> rfl
  ticks _ h := absurd h List.not_mem_nil
  ended _ h := absurd h List.not_mem_nil

/-! ### The tick -/

lemma Ids.written {prevCid : ℤ} {th : CTeeHistorian} (h : Ids prevCid th) (hnot : th.tickWritten = false)
    (hlow : -1 ≤ prevCid) : Ids (-1) th.writeTick := by
  have hstate : th.writeTick.state = th.state := rfl
  have hmax : th.writeTick.maxClientId = th.maxClientId := rfl
  have hwritten : th.writeTick.tickWritten = true := rfl
  rw [Ids] at h ⊢
  rw [hstate, hmax, hwritten]
  cases hplace : th.state with
  | beforePlayers => rfl
  | players =>
    rw [hplace] at h
    dsimp only at h
    rw [hnot] at h
    exact h.1.symm
  | start | beforeTick | beforeInputs | inputs | beforeEndTick =>
    rw [hplace] at h
    refine ⟨?_, fun h => absurd h nofun⟩
    rw [h.2 hnot]
    exact min_le_left _ _

lemma writeTick_reader {th : CTeeHistorian} (h : th.Inv) (hnot : th.tickWritten = false) :
    th.writeTick.reader = { th.reader with tick := th.tick, prevCid := -1 } := by
  have hlt := h.unwritten hnot
  have hnonneg := h.nonneg
  have hhigh := h.lt
  have hstep := @TeeReader.step_tickSkip th.reader (th.tick - th.lastWrittenTick - 1) (by omega) (by omega)
  have hfile : th.writeTick.file = th.file ++ [.plain [.int teehistorianTickSkip,
      .int (BitVec.ofInt 32 (th.tick - th.lastWrittenTick - 1))]] := rfl
  rw [reader_append hfile]
  refine hstep.trans ?_
  rw [h.tick]
  congr 1
  omega

lemma Inv.writeTick {th : CTeeHistorian} (h : th.Inv) (hnot : th.tickWritten = false) : th.writeTick.Inv := by
  have hreader := writeTick_reader h hnot
  exact {
    tick := by rw [hreader]; rfl
    written := fun _ => rfl
    unwritten := fun h => absurd h nofun
    nonneg := h.nonneg.trans (h.unwritten hnot).le
    lt := h.lt
    events := by rw [hreader]; exact h.events
    positions := by rw [hreader]; exact h.positions
    inputs := by rw [hreader]; exact h.inputs
    low := by rw [hreader]
    ids := by
      rw [hreader]
      exact h.ids.written hnot h.low }

lemma Inv.ensureTickWritten {th : CTeeHistorian} (h : th.Inv) : th.ensureTickWritten.Inv := by
  rw [CTeeHistorian.ensureTickWritten]
  split_ifs with hwritten
  · exact h
  · exact h.writeTick (Bool.eq_false_iff.2 hwritten)

lemma ensureTickWritten_tickWritten (th : CTeeHistorian) : th.ensureTickWritten.tickWritten = true := by
  rw [ensureTickWritten]
  split_ifs with hwritten
  · exact hwritten
  · rfl

/-- What `EnsureTickWritten` leaves. -/
lemma ensureTickWritten_spec (th : CTeeHistorian) :
    th.ensureTickWritten.tick = th.tick ∧ th.ensureTickWritten.state = th.state ∧
      th.ensureTickWritten.events = th.events ∧ th.ensureTickWritten.ended = th.ended ∧
      th.ensureTickWritten.prevPlayers = th.prevPlayers := by
  rw [ensureTickWritten]
  split_ifs <;> exact ⟨rfl, rfl, rfl, rfl, rfl⟩

/-! ### Records that are not about positions, inputs and ticks -/

/-- The reader does nothing with the record. -/
def IsOther (entry : TeeEntry) : Prop := ∃ tag fields, entry.fields = .int tag :: fields ∧ TeeReader.OtherTag tag

/-- An entry that the reader does nothing with, at a tick that is written. -/
lemma Inv.writeEntry {th : CTeeHistorian} (h : th.Inv) (hwritten : th.tickWritten = true) {entry : TeeEntry}
    (hother : IsOther entry) : (th.writeEntry entry).Inv := by
  obtain ⟨tag, fields, hfields, htag⟩ := hother
  have hfile : (th.writeEntry entry).file = th.file ++ [entry] := rfl
  have hreader : (th.writeEntry entry).reader = th.reader.note .other := by
    rw [reader_append hfile, hfields, TeeReader.step_other _ htag]
  exact {
    tick := by rw [hreader]; exact h.tick
    written := h.written
    unwritten := h.unwritten
    nonneg := h.nonneg
    lt := h.lt
    events := by
      rw [hreader]
      show th.reader.events ++ [(th.reader.tick, .other)] = th.events ++ [(th.tick, .other)]
      rw [h.events, h.tick, h.written hwritten]
    positions := by rw [hreader]; exact h.positions
    inputs := by rw [hreader]; exact h.inputs
    low := by rw [hreader]; exact h.low
    ids := by rw [hreader]; exact h.ids }

lemma Inv.foldl_writeEntry {th : CTeeHistorian} {entries : List TeeEntry} (h : th.Inv)
    (hwritten : th.tickWritten = true) (hother : ∀ entry ∈ entries, IsOther entry) :
    (entries.foldl CTeeHistorian.writeEntry th).Inv := by
  induction entries generalizing th with
  | nil => exact h
  | cons entry entries ih =>
    have hentry := h.writeEntry hwritten (hother entry List.mem_cons_self)
    exact ih hentry hwritten fun e he => hother e (List.mem_cons_of_mem _ he)

lemma isOther_entries (call : TeeRecordCall) : ∀ entry ∈ call.entries, IsOther entry := by
  have hextra : ∀ kind ops, IsOther (.extra kind ops) := fun _ _ =>
    ⟨_, _, rfl, by simp [TeeReader.OtherTag]⟩
  have hplain : ∀ tag ops, TeeReader.OtherTag tag → IsOther (.plain (.int tag :: ops)) := fun tag ops h =>
    ⟨tag, ops.map TeeOp.packed, rfl, h⟩
  intro entry hentry
  cases call <;> simp only [TeeRecordCall.entries, List.mem_cons, List.not_mem_nil, or_false] at hentry
  case recordPlayerMessage => rw [hentry]; exact hplain _ _ (by simp [TeeReader.OtherTag])
  case recordPlayerJoin =>
    rcases hentry with rfl | rfl
    · exact hextra _ _
    · exact hplain _ _ (by simp [TeeReader.OtherTag])
  case recordPlayerDrop => rw [hentry]; exact hplain _ _ (by simp [TeeReader.OtherTag])
  case recordConsoleCommand => rw [hentry]; exact hplain _ _ (by simp [TeeReader.OtherTag])
  case recordAntibot => rw [hentry]; exact ⟨_, _, rfl, by simp [TeeReader.OtherTag]⟩
  all_goals rw [hentry]; exact hextra _ _

lemma Inv.record {th : CTeeHistorian} (h : th.Inv) (call : TeeRecordCall) : (th.record call).Inv :=
  h.ensureTickWritten.foldl_writeEntry (ensureTickWritten_tickWritten th) (isOther_entries call)

/-! ### Calls that the file does not show -/

lemma reader_congr {th th' : CTeeHistorian} (h : th'.file = th.file) : th'.reader = th.reader := by
  rw [reader, reader, h]

/-- A change that leaves the file, the ticks and what the reader has to know. -/
lemma Inv.of_same {th th' : CTeeHistorian} (h : th.Inv) (hfile : th'.file = th.file)
    (hlast : th'.lastWrittenTick = th.lastWrittenTick) (hwritten : th'.tickWritten = th.tickWritten)
    (htick : th'.tick = th.tick) (hevents : th'.events = th.events) (hpositions : th'.positions = th.positions)
    (hinputs : ∀ clientId, (th'.prevPlayers clientId).uniqueClientId = (th.prevPlayers clientId).uniqueClientId ∧
      (th'.prevPlayers clientId).input = (th.prevPlayers clientId).input)
    (hids : Ids th.reader.prevCid th') : th'.Inv := by
  have hreader := reader_congr hfile
  exact {
    tick := by rw [hreader, hlast]; exact h.tick
    written := by rw [hlast, hwritten, htick]; exact h.written
    unwritten := by rw [hlast, hwritten, htick]; exact h.unwritten
    nonneg := by rw [hlast]; exact h.nonneg
    lt := by rw [htick]; exact h.lt
    events := by rw [hreader, hevents]; exact h.events
    positions := by rw [hreader, hpositions]; exact h.positions
    inputs := by
      intro clientId hne
      rw [(hinputs clientId).1] at hne
      rw [hreader, (hinputs clientId).2]
      exact h.inputs clientId hne
    low := by rw [hreader]; exact h.low
    ids := by rw [hreader]; exact hids }

/-- A player whose id and input stay. -/
lemma setPlayer_inputs (th : CTeeHistorian) (clientId : ClientId) {player : CTeehistorianPlayer}
    (hid : player.uniqueClientId = (th.prevPlayers clientId).uniqueClientId)
    (hinput : player.input = (th.prevPlayers clientId).input) (clientId' : ClientId) :
    ((th.setPlayer clientId player).prevPlayers clientId').uniqueClientId = (th.prevPlayers clientId').uniqueClientId ∧
      ((th.setPlayer clientId player).prevPlayers clientId').input = (th.prevPlayers clientId').input := by
  rw [setPlayer]
  dsimp only
  by_cases h : clientId' = clientId
  · subst h
    rw [Function.update_self]
    exact ⟨hid, hinput⟩
  · rw [Function.update_of_ne h]
    exact ⟨rfl, rfl⟩

lemma Inv.recordPlayerTeam {th : CTeeHistorian} (h : th.Inv) (clientId : ClientId) (team : BitVec 32) :
    (th.recordPlayerTeam clientId team).Inv := by
  rw [CTeeHistorian.recordPlayerTeam]
  split_ifs
  · have hset : (th.setPlayer clientId { th.prevPlayers clientId with team := team }).Inv :=
      h.of_same rfl rfl rfl rfl rfl (positions_setPlayer_same th clientId rfl rfl rfl)
        (setPlayer_inputs th clientId rfl rfl) h.ids
    exact hset.ensureTickWritten.writeEntry (ensureTickWritten_tickWritten _)
      ⟨_, _, rfl, by simp [TeeReader.OtherTag]⟩
  · exact h

lemma Inv.recordTeamPractice {th : CTeeHistorian} (h : th.Inv) (team : ClientId) (practice : Bool) :
    (th.recordTeamPractice team practice).Inv := by
  rw [CTeeHistorian.recordTeamPractice]
  by_cases hsame : th.prevTeams team ≠ practice
  · rw [if_pos hsame]
    have hset : Inv { th with prevTeams := Function.update th.prevTeams team practice } :=
      h.of_same rfl rfl rfl rfl rfl rfl (fun _ => ⟨rfl, rfl⟩) h.ids
    exact hset.ensureTickWritten.writeEntry (ensureTickWritten_tickWritten _)
      ⟨_, _, rfl, by simp [TeeReader.OtherTag]⟩
  · rwa [if_neg hsame]

/-! ### Ticks and phases -/

lemma Inv.beginTick {th th' : CTeeHistorian} (h : th.Inv) {tick : ℤ} (hlt : th.tick < tick) (hhigh : tick < 2 ^ 31)
    (hstep : th.beginTick tick = some th') : th'.Inv := by
  rw [CTeeHistorian.beginTick] at hstep
  split_ifs at hstep with hstate
  obtain rfl := Option.some.inj hstep
  have hids : min th.maxClientId TeeReader.maxId ≤ th.reader.prevCid := by
    have hids := h.ids
    rw [Ids] at hids
    rcases hstate with hplace | hplace <;> rw [hplace] at hids <;> exact hids.1
  have hbefore : th.lastWrittenTick < tick := by
    by_cases hwritten : th.tickWritten = true
    · rw [h.written hwritten]
      exact hlt
    · exact (h.unwritten (Bool.eq_false_iff.2 hwritten)).trans hlt
  exact {
    tick := h.tick
    written := fun h => absurd h nofun
    unwritten := fun _ => hbefore
    nonneg := h.nonneg
    lt := hhigh
    events := h.events
    positions := h.positions
    inputs := h.inputs
    low := h.low
    ids := hids }

lemma Inv.beginPlayers {th th' : CTeeHistorian} (h : th.Inv) (hstep : th.beginPlayers = some th') : th'.Inv := by
  rw [CTeeHistorian.beginPlayers] at hstep
  split_ifs at hstep with hstate
  obtain rfl := Option.some.inj hstep
  refine h.of_same rfl rfl rfl rfl rfl rfl (fun _ => ⟨rfl, rfl⟩) ?_
  have hids := h.ids
  rw [Ids, hstate] at hids
  rw [Ids]
  dsimp only at hids ⊢
  split_ifs at hids ⊢
  · exact hids
  · exact ⟨rfl, hids⟩

/-- The players phase is left. -/
lemma Inv.endPlayers {th th' : CTeeHistorian} (h : th.Inv) (hstep : th.endPlayers = some th') : th'.Inv := by
  rw [CTeeHistorian.endPlayers] at hstep
  split_ifs at hstep with hstate
  obtain rfl := Option.some.inj hstep
  refine h.of_same rfl rfl rfl rfl rfl rfl (fun _ => ⟨rfl, rfl⟩) ?_
  have hids := h.ids
  have hlow := h.low
  rw [Ids, hstate] at hids
  rw [Ids]
  dsimp only at hids ⊢
  split_ifs at hids with hwritten
  · refine ⟨?_, fun hnot => absurd (hwritten.symm.trans hnot) nofun⟩
    rw [hids]
    exact min_le_left _ _
  · refine ⟨?_, fun _ => hids.1⟩
    rw [hids.1]
    exact (min_le_left _ _).trans hlow

lemma Inv.phase {th : CTeeHistorian} (h : th.Inv) {state : TeeState}
    (hfrom : th.state = .beforeInputs ∨ th.state = .inputs ∨ th.state = .beforeEndTick)
    (hto : state = .inputs ∨ state = .beforeEndTick ∨ state = .beforeTick) : Inv { th with state := state } := by
  refine h.of_same rfl rfl rfl rfl rfl rfl (fun _ => ⟨rfl, rfl⟩) ?_
  have hids := h.ids
  rw [Ids] at hids ⊢
  rcases hfrom with hplace | hplace | hplace <;> rw [hplace] at hids <;>
    rcases hto with rfl | rfl | rfl <;> exact hids

/-! ### Inputs -/

lemma recordPlayerInput_reader {th : CTeeHistorian} (h : th.Inv) {clientId : ClientId} {uniqueClientId : BitVec 32}
    (hne : uniqueClientId ≠ 0) {input : CNetObjPlayerInput}
    (hnew : ¬ ((th.prevPlayers clientId).uniqueClientId = uniqueClientId ∧ (th.prevPlayers clientId).input = input)) :
    (th.recordPlayerInput clientId uniqueClientId input).reader =
      (th.ensureTickWritten.reader.setInput clientId.val input).note (.input clientId.val input) := by
  have hinv := h.ensureTickWritten
  obtain ⟨-, -, -, -, hplayers⟩ := ensureTickWritten_spec th
  rw [CTeeHistorian.recordPlayerInput, if_neg hnew]
  by_cases hid : (th.prevPlayers clientId).uniqueClientId = uniqueClientId
  · have hinput : th.ensureTickWritten.reader.inputs clientId.val = (th.prevPlayers clientId).input := by
      have hinput := hinv.inputs clientId
      rw [hplayers, hid] at hinput
      exact hinput hne
    have hdiff : (fun i => th.ensureTickWritten.reader.inputs clientId.val i +
        (input i - (th.prevPlayers clientId).input i)) = input := by
      funext i
      rw [hinput, BitVec.add_comm, BitVec.sub_add_cancel]
    have hstep := TeeReader.step_inputDiff th.ensureTickWritten.reader clientId
      fun i => input i - (th.prevPlayers clientId).input i
    rw [hdiff] at hstep
    rw [if_pos hid]
    exact Eq.trans (reader_append rfl) hstep
  · rw [if_neg hid]
    exact Eq.trans (reader_append rfl) (TeeReader.step_inputNew _ clientId input)

lemma Inv.recordPlayerInput {th : CTeeHistorian} (h : th.Inv) (clientId : ClientId) {uniqueClientId : BitVec 32}
    (hne : uniqueClientId ≠ 0) (input : CNetObjPlayerInput) :
    (th.recordPlayerInput clientId uniqueClientId input).Inv := by
  by_cases hnew : (th.prevPlayers clientId).uniqueClientId = uniqueClientId ∧ (th.prevPlayers clientId).input = input
  · rw [CTeeHistorian.recordPlayerInput, if_pos hnew]
    exact h
  · have hreader := recordPlayerInput_reader h hne hnew
    have hinv := h.ensureTickWritten
    have hwritten := ensureTickWritten_tickWritten th
    obtain ⟨htick, -, hevents, -, hplayers⟩ := ensureTickWritten_spec th
    rw [CTeeHistorian.recordPlayerInput, if_neg hnew] at hreader ⊢
    exact {
      tick := by rw [hreader]; exact hinv.tick
      written := hinv.written
      unwritten := hinv.unwritten
      nonneg := hinv.nonneg
      lt := hinv.lt
      events := by
        rw [hreader]
        show th.ensureTickWritten.reader.events ++ [(th.ensureTickWritten.reader.tick, _)] =
          th.ensureTickWritten.events ++ [(th.ensureTickWritten.tick, _)]
        rw [hinv.events, hinv.tick, hinv.written hwritten]
      positions := by
        rw [hreader]
        refine Eq.trans hinv.positions (positions_setPlayer_same _ clientId ?_ ?_ ?_).symm <;> rw [hplayers]
      inputs := by
        intro clientId' hid
        rw [hreader]
        show Function.update th.ensureTickWritten.reader.inputs clientId.val input clientId'.val =
          (Function.update th.ensureTickWritten.prevPlayers clientId _ clientId').input
        by_cases hsame : clientId' = clientId
        · subst hsame
          rw [Function.update_self, Function.update_self]
        · have hval : clientId'.val ≠ clientId.val := fun h => hsame (Fin.ext h)
          have hold : (Function.update th.ensureTickWritten.prevPlayers clientId
              { th.prevPlayers clientId with uniqueClientId := uniqueClientId, input := input }
                clientId').uniqueClientId ≠ 0 := hid
          rw [Function.update_of_ne hsame] at hold
          rw [Function.update_of_ne hval, Function.update_of_ne hsame]
          exact hinv.inputs clientId' hold
      low := by rw [hreader]; exact hinv.low
      ids := by rw [hreader]; exact hinv.ids }

/-! ### Players -/

/-- The tick of a player record: the reader has it after the client id. -/
lemma ensureTickWrittenPlayerData_spec {th th' : CTeeHistorian} (h : th.Inv) (hstate : th.state = .players)
    {clientId : ClientId} (hstep : th.ensureTickWrittenPlayerData clientId = some th') :
    th'.reader.advance clientId.val = { th.reader with tick := th.tick, prevCid := clientId.val } ∧
      th'.reader.positions = th.reader.positions ∧ th'.lastWrittenTick = th.tick ∧ th'.tickWritten = true ∧
      th'.tick = th.tick ∧ th'.state = th.state ∧ th'.maxClientId = clientId.val ∧
      th'.prevPlayers = th.prevPlayers ∧ th'.events = th.events ∧ th'.ended = th.ended := by
  have hids := h.ids
  have hbound : (clientId.val : ℤ) ≤ TeeReader.maxId := by
    have hlt : clientId.val < maxClients := clientId.isLt
    rw [TeeReader.maxId]
    omega
  rw [Ids, hstate] at hids
  rw [CTeeHistorian.ensureTickWrittenPlayerData] at hstep
  split_ifs at hstep with hmax
  dsimp only at hstep
  split_ifs at hstep with hskip
  · -- the tick is written, and the client id counts from there
    obtain rfl := Option.some.inj hstep
    have hnot : th.tickWritten = false := Bool.eq_false_iff.2 hskip.1
    have hreader : (CTeeHistorian.writeTick { th with maxClientId := clientId.val }).reader =
        { th.reader with tick := th.tick, prevCid := -1 } := by
      rw [← writeTick_reader h hnot]
      exact reader_congr rfl
    refine ⟨?_, by rw [hreader], rfl, rfl, rfl, rfl, rfl, rfl, rfl, rfl⟩
    rw [hreader, TeeReader.advance, if_neg (by dsimp only; omega)]
  · obtain rfl := Option.some.inj hstep
    have hreader : reader { th with maxClientId := clientId.val, lastWrittenTick := th.tick, tickWritten := true } =
        th.reader := reader_congr rfl
    refine ⟨?_, by rw [hreader], rfl, rfl, rfl, rfl, rfl, rfl, rfl, rfl⟩
    rw [hreader, TeeReader.advance]
    dsimp only at hids
    by_cases hwritten : th.tickWritten = true
    · rw [if_pos hwritten] at hids
      rw [if_neg (by rw [hids]; omega), ← h.written hwritten, ← h.tick]
    · -- the tick is implicit: the last client id of the tick before was not smaller
      rw [if_neg hwritten] at hids
      have himplicit := not_or.1 (not_and.1 hskip hwritten)
      have hle : (clientId.val : ℤ) ≤ th.reader.prevCid :=
        (le_min (not_lt.1 himplicit.1) hbound).trans hids.2
      have hnext : th.lastWrittenTick + 1 = th.tick := not_not.1 himplicit.2
      rw [if_pos hle, h.tick, hnext]

/-- A player record: what it sets, and the ids after it. -/
lemma Inv.playerRecord {th th' th'' : CTeeHistorian} (h : th.Inv) (hstate : th.state = .players)
    {clientId : ClientId} (hensure : th.ensureTickWrittenPlayerData clientId = some th') {event : TeeEvent}
    {player : CTeehistorianPlayer} {position : Option (BitVec 32 × BitVec 32)} {ops : List PackOp}
    (hthen : th'' = ((th'.write ops).note event).setPlayer clientId player)
    (hreader : th'.reader.step (TeeEntry.fields (.plain ops)) =
      ((th'.reader.advance clientId.val).setPosition clientId.val position).note event)
    (hposition : position = if player.alive then some (player.x, player.y) else none)
    (hid : player.uniqueClientId = (th.prevPlayers clientId).uniqueClientId)
    (hinput : player.input = (th.prevPlayers clientId).input) : th''.Inv := by
  obtain ⟨hadvance, -, hlast, hwritten, htick, hstate', hmax, hplayers, hevents, -⟩ :=
    ensureTickWrittenPlayerData_spec h hstate hensure
  have hlow : (-1 : ℤ) ≤ clientId.val := (by omega : (-1 : ℤ) ≤ 0).trans (Int.natCast_nonneg _)
  have hafter : th''.reader = ((({ th.reader with tick := th.tick, prevCid := clientId.val } : TeeReader).setPosition
      clientId.val position).note event) := by
    rw [← hadvance, ← hreader, hthen]
    exact reader_append rfl
  have hnonneg := h.nonneg
  have hle : 0 ≤ th.tick := by
    by_cases hbefore : th.tickWritten = true
    · rw [← h.written hbefore]
      exact hnonneg
    · exact hnonneg.trans (h.unwritten (Bool.eq_false_iff.2 hbefore)).le
  have hlast'' : th''.lastWrittenTick = th.tick := by rw [hthen]; exact hlast
  have htick'' : th''.tick = th.tick := by rw [hthen]; exact htick
  have hwritten'' : th''.tickWritten = true := by rw [hthen]; exact hwritten
  have hplayers'' : th''.prevPlayers = Function.update th.prevPlayers clientId player := by
    rw [hthen, ← hplayers]
    rfl
  exact {
    tick := by rw [hafter, hlast'']; rfl
    written := fun _ => hlast''.trans htick''.symm
    unwritten := fun hnot => absurd (hwritten''.symm.trans hnot) nofun
    nonneg := by rw [hlast'']; exact hle
    lt := by rw [htick'']; exact h.lt
    events := by
      rw [hafter, hthen]
      show th.reader.events ++ [(th.tick, event)] = th'.events ++ [(th'.tick, event)]
      rw [h.events, hevents, htick]
    positions := by
      have hsame : ((th'.write ops).note event).positions = th.positions := by
        show CTeeHistorian.positions th' = _
        funext n
        rw [CTeeHistorian.positions, CTeeHistorian.positions, hplayers]
      rw [hafter, hthen, positions_setPlayer, hsame, ← hposition, ← h.positions]
      rfl
    inputs := by
      intro clientId' hne
      rw [hafter]
      show th.reader.inputs clientId'.val = _
      rw [hplayers''] at hne ⊢
      by_cases hsame : clientId' = clientId
      · subst hsame
        rw [Function.update_self] at hne ⊢
        rw [hinput]
        rw [hid] at hne
        exact h.inputs clientId' hne
      · rw [Function.update_of_ne hsame] at hne ⊢
        exact h.inputs clientId' hne
    low := by rw [hafter]; exact hlow
    ids := by
      have hstate'' : th''.state = .players := by rw [hthen]; exact hstate'.trans hstate
      have hmax'' : th''.maxClientId = clientId.val := by rw [hthen]; exact hmax
      rw [hafter, Ids, hstate'']
      dsimp only
      rw [if_pos hwritten'', hmax'']
      rfl }

lemma Inv.recordPlayer {th th' : CTeeHistorian} (h : th.Inv) {clientId : ClientId} {x y : BitVec 32}
    (hstep : th.recordPlayer clientId x y = some th') : th'.Inv := by
  rw [CTeeHistorian.recordPlayer] at hstep
  split_ifs at hstep with hstate
  dsimp only at hstep
  by_cases hchanged : ¬ (th.prevPlayers clientId).alive ∨ (th.prevPlayers clientId).x ≠ x ∨
      (th.prevPlayers clientId).y ≠ y
  · rw [if_pos hchanged, Option.map_map] at hstep
    obtain ⟨next, hensure, hnext⟩ := Option.map_eq_some_iff.1 hstep
    obtain ⟨-, hpositions, -, -, -, -, -, hplayers, -, -⟩ := ensureTickWrittenPlayerData_spec h hstate hensure
    by_cases halive : (th.prevPlayers clientId).alive = true
    · have hold : next.reader.positions clientId.val =
          some ((th.prevPlayers clientId).x, (th.prevPlayers clientId).y) := by
        rw [hpositions, h.positions, positions_at, if_pos halive]
      have hreader : next.reader.step (TeeEntry.fields (.plain [packedId clientId,
          .int (x - (th.prevPlayers clientId).x), .int (y - (th.prevPlayers clientId).y)])) =
            ((next.reader.advance clientId.val).setPosition clientId.val (some (x, y))).note
              (.player clientId.val x y) := by
        have hdiff := TeeReader.step_playerDiff next.reader clientId (x - (th.prevPlayers clientId).x)
          (y - (th.prevPlayers clientId).y) hold
        rw [BitVec.add_comm, BitVec.sub_add_cancel, BitVec.add_comm, BitVec.sub_add_cancel] at hdiff
        exact hdiff
      dsimp only [Function.comp] at hnext
      rw [if_pos halive] at hnext
      exact h.playerRecord hstate hensure hnext.symm hreader rfl rfl rfl
    · have hreader : next.reader.step (TeeEntry.fields (.plain [.int teehistorianPlayerNew, packedId clientId,
          .int x, .int y])) = ((next.reader.advance clientId.val).setPosition clientId.val (some (x, y))).note
            (.player clientId.val x y) := TeeReader.step_playerNew next.reader clientId x y
      dsimp only [Function.comp] at hnext
      rw [if_neg halive] at hnext
      exact h.playerRecord hstate hensure hnext.symm hreader rfl rfl rfl
  · rw [if_neg hchanged] at hstep
    obtain rfl := Option.some.inj hstep
    obtain ⟨halive, hrest⟩ := not_or.1 hchanged
    obtain ⟨hx, hy⟩ := not_or.1 hrest
    refine h.of_same rfl rfl rfl rfl rfl ?_ (setPlayer_inputs th clientId rfl rfl) h.ids
    exact positions_setPlayer_same th clientId (not_not.1 halive).symm (not_not.1 hx).symm (not_not.1 hy).symm

lemma Inv.recordDeadPlayer {th th' : CTeeHistorian} (h : th.Inv) {clientId : ClientId}
    (hstep : th.recordDeadPlayer clientId = some th') : th'.Inv := by
  rw [CTeeHistorian.recordDeadPlayer] at hstep
  split_ifs at hstep with hstate
  dsimp only at hstep
  by_cases halive : (th.prevPlayers clientId).alive = true
  · rw [if_pos halive, Option.map_map] at hstep
    obtain ⟨next, hensure, hnext⟩ := Option.map_eq_some_iff.1 hstep
    have hreader : next.reader.step (TeeEntry.fields (.plain [.int teehistorianPlayerOld, packedId clientId])) =
        ((next.reader.advance clientId.val).setPosition clientId.val none).note (.dead clientId.val) :=
      TeeReader.step_playerOld next.reader clientId
    exact h.playerRecord hstate hensure hnext.symm hreader rfl rfl rfl
  · rw [if_neg halive] at hstep
    obtain rfl := Option.some.inj hstep
    refine h.of_same rfl rfl rfl rfl rfl ?_ (setPlayer_inputs th clientId rfl rfl) h.ids
    exact positions_setPlayer_same th clientId (Bool.eq_false_iff.2 halive).symm rfl rfl

/-! ### The positions at the ends of the ticks -/

lemma positionsOf_append (events : List (ℤ × TeeEvent)) (event : ℤ × TeeEvent) :
    positionsOf (events ++ [event]) = event.2.apply (positionsOf events) := by
  rw [positionsOf, List.foldl_append]
  rfl

lemma positionsAt_append (events : List (ℤ × TeeEvent)) (event : ℤ × TeeEvent) (tick : ℤ) :
    positionsAt (events ++ [event]) tick =
      if event.1 ≤ tick then event.2.apply (positionsAt events tick) else positionsAt events tick := by
  rw [positionsAt, List.filter_append]
  split_ifs with hle
  · rw [List.filter_cons_of_pos (by simpa using hle), List.filter_nil, positionsOf_append]
    rfl
  · rw [List.filter_cons_of_neg (by simpa using hle), List.filter_nil, List.append_nil]
    rfl

lemma History.of_same {th th' : CTeeHistorian} (h : th.History) (hevents : th'.events = th.events)
    (hended : th'.ended = th.ended) (htick : th'.tick = th.tick) (hpositions : th'.positions = th.positions)
    (hstate : th'.state = .beforePlayers ∨ th'.state = .players → th.state = .beforePlayers ∨ th.state = .players) :
    th'.History := by
  constructor
  · rw [hevents, hpositions]
    exact h.positions
  · rw [hevents, htick]
    exact h.ticks
  · intro e he
    rw [hended] at he
    obtain ⟨hle, hlt, hat⟩ := h.ended e he
    rw [htick, hevents]
    exact ⟨hle, fun hplace => hlt (hstate hplace), hat⟩

/-- An event at the tick of the teehistorian: in the players phase, or one that is not about positions. -/
lemma History.note {th th' : CTeeHistorian} (h : th.History) {event : TeeEvent}
    (hevents : th'.events = th.events ++ [(th.tick, event)]) (hended : th'.ended = th.ended)
    (htick : th'.tick = th.tick) (hpositions : th'.positions = event.apply th.positions)
    (hstate : th'.state = th.state)
    (hevent : th.state = .players ∨ ∀ positions : Positions, event.apply positions = positions) : th'.History := by
  constructor
  · rw [hevents, positionsOf_append, h.positions, hpositions]
  · rw [hevents, htick]
    intro e he
    rcases List.mem_append.1 he with he | he
    · exact h.ticks e he
    · rw [List.mem_singleton.1 he]
  · intro e he
    rw [hended] at he
    obtain ⟨hle, hlt, hat⟩ := h.ended e he
    rw [htick, hevents, hstate]
    refine ⟨hle, hlt, ?_⟩
    rw [positionsAt_append]
    rcases hevent with hplace | hsame
    · rw [if_neg (not_le.2 (hlt (.inr hplace)))]
      exact hat
    · rw [hsame, ite_self]
      exact hat

lemma History.ensureTickWritten {th : CTeeHistorian} (h : th.History) : th.ensureTickWritten.History := by
  obtain ⟨htick, hstate, hevents, hended, hplayers⟩ := ensureTickWritten_spec th
  refine h.of_same hevents hended htick ?_ (by rw [hstate]; exact id)
  funext n
  rw [CTeeHistorian.positions, CTeeHistorian.positions, hplayers]

lemma History.foldl_writeEntry {th : CTeeHistorian} (entries : List TeeEntry) (h : th.History) :
    (entries.foldl CTeeHistorian.writeEntry th).History := by
  induction entries generalizing th with
  | nil => exact h
  | cons entry entries ih =>
    have hentry : (th.writeEntry entry).History := h.note rfl rfl rfl rfl rfl (.inr fun _ => rfl)
    exact ih hentry

lemma History.recordPlayerTeam {th : CTeeHistorian} (h : th.History) (clientId : ClientId) (team : BitVec 32) :
    (th.recordPlayerTeam clientId team).History := by
  rw [CTeeHistorian.recordPlayerTeam]
  split_ifs
  · have hset : (th.setPlayer clientId { th.prevPlayers clientId with team := team }).History :=
      h.of_same rfl rfl rfl (positions_setPlayer_same th clientId rfl rfl rfl) id
    exact hset.ensureTickWritten.note rfl rfl rfl rfl rfl (.inr fun _ => rfl)
  · exact h

lemma History.recordTeamPractice {th : CTeeHistorian} (h : th.History) (team : ClientId) (practice : Bool) :
    (th.recordTeamPractice team practice).History := by
  rw [CTeeHistorian.recordTeamPractice]
  by_cases hsame : th.prevTeams team ≠ practice
  · rw [if_pos hsame]
    have hset : History { th with prevTeams := Function.update th.prevTeams team practice } :=
      h.of_same rfl rfl rfl rfl id
    exact hset.ensureTickWritten.note rfl rfl rfl rfl rfl (.inr fun _ => rfl)
  · rwa [if_neg hsame]

lemma History.recordPlayerInput {th : CTeeHistorian} (h : th.History) (clientId : ClientId)
    (uniqueClientId : BitVec 32) (input : CNetObjPlayerInput) :
    (th.recordPlayerInput clientId uniqueClientId input).History := by
  obtain ⟨-, -, -, -, hplayers⟩ := ensureTickWritten_spec th
  rw [CTeeHistorian.recordPlayerInput]
  dsimp only
  by_cases hsame : (th.prevPlayers clientId).uniqueClientId = uniqueClientId ∧ (th.prevPlayers clientId).input = input
  · rwa [if_pos hsame]
  · rw [if_neg hsame]
    refine h.ensureTickWritten.note rfl rfl rfl ?_ rfl (.inr fun _ => rfl)
    refine positions_setPlayer_same _ clientId ?_ ?_ ?_ <;> rw [hplayers]

/-- A player record. -/
lemma History.playerRecord {th th' th'' : CTeeHistorian} (h : th.History) (hinv : th.Inv)
    (hstate : th.state = .players) {clientId : ClientId}
    (hensure : th.ensureTickWrittenPlayerData clientId = some th') {event : TeeEvent}
    {player : CTeehistorianPlayer} {ops : List PackOp}
    (hthen : th'' = ((th'.write ops).note event).setPlayer clientId player)
    (hevent : ∀ positions : Positions, event.apply positions =
      Function.update positions clientId.val (if player.alive then some (player.x, player.y) else none)) :
    th''.History := by
  obtain ⟨-, -, -, -, htick, hstate', -, hplayers, hevents, hended⟩ :=
    ensureTickWrittenPlayerData_spec hinv hstate hensure
  subst hthen
  refine @History.note th _ h event ?_ hended htick ?_ hstate' (.inl hstate)
  · show th'.events ++ [(th'.tick, event)] = _
    rw [hevents, htick]
  · have hsame : ((th'.write ops).note event).positions = th.positions := by
      show CTeeHistorian.positions th' = _
      funext n
      rw [CTeeHistorian.positions, CTeeHistorian.positions, hplayers]
    rw [positions_setPlayer, hsame, hevent]

lemma History.recordPlayer {th th' : CTeeHistorian} (h : th.History) (hinv : th.Inv) {clientId : ClientId}
    {x y : BitVec 32} (hstep : th.recordPlayer clientId x y = some th') : th'.History := by
  rw [CTeeHistorian.recordPlayer] at hstep
  split_ifs at hstep with hstate
  dsimp only at hstep
  by_cases hchanged : ¬ (th.prevPlayers clientId).alive ∨ (th.prevPlayers clientId).x ≠ x ∨
      (th.prevPlayers clientId).y ≠ y
  · rw [if_pos hchanged, Option.map_map] at hstep
    obtain ⟨next, hensure, hnext⟩ := Option.map_eq_some_iff.1 hstep
    dsimp only [Function.comp] at hnext
    split_ifs at hnext
    · exact h.playerRecord hinv hstate hensure hnext.symm fun _ => rfl
    · exact h.playerRecord hinv hstate hensure hnext.symm fun _ => rfl
  · rw [if_neg hchanged] at hstep
    obtain rfl := Option.some.inj hstep
    obtain ⟨halive, hrest⟩ := not_or.1 hchanged
    obtain ⟨hx, hy⟩ := not_or.1 hrest
    refine h.of_same rfl rfl rfl ?_ id
    exact positions_setPlayer_same th clientId (not_not.1 halive).symm (not_not.1 hx).symm (not_not.1 hy).symm

lemma History.recordDeadPlayer {th th' : CTeeHistorian} (h : th.History) (hinv : th.Inv) {clientId : ClientId}
    (hstep : th.recordDeadPlayer clientId = some th') : th'.History := by
  rw [CTeeHistorian.recordDeadPlayer] at hstep
  split_ifs at hstep with hstate
  dsimp only at hstep
  by_cases halive : (th.prevPlayers clientId).alive = true
  · rw [if_pos halive, Option.map_map] at hstep
    obtain ⟨next, hensure, hnext⟩ := Option.map_eq_some_iff.1 hstep
    exact h.playerRecord hinv hstate hensure hnext.symm fun _ => rfl
  · rw [if_neg halive] at hstep
    obtain rfl := Option.some.inj hstep
    refine h.of_same rfl rfl rfl ?_ id
    exact positions_setPlayer_same th clientId (Bool.eq_false_iff.2 halive).symm rfl rfl

lemma History.beginTick {th th' : CTeeHistorian} (h : th.History) {tick : ℤ} (hlt : th.tick < tick)
    (hstep : th.beginTick tick = some th') : th'.History := by
  rw [CTeeHistorian.beginTick] at hstep
  split_ifs at hstep
  obtain rfl := Option.some.inj hstep
  constructor
  · exact h.positions
  · intro e he
    exact (h.ticks e he).trans hlt.le
  · intro e he
    obtain ⟨hle, -, hat⟩ := h.ended e he
    exact ⟨hle.trans hlt.le, fun _ => hle.trans_lt hlt, hat⟩

lemma History.endPlayers {th th' : CTeeHistorian} (h : th.History) (hstep : th.endPlayers = some th') :
    th'.History := by
  rw [CTeeHistorian.endPlayers] at hstep
  split_ifs at hstep
  obtain rfl := Option.some.inj hstep
  constructor
  · exact h.positions
  · exact h.ticks
  · intro e he
    rcases List.mem_append.1 he with he | he
    · obtain ⟨hle, -, hat⟩ := h.ended e he
      exact ⟨hle, fun hplace => by rcases hplace with hplace | hplace <;> exact absurd hplace nofun, hat⟩
    · rw [List.mem_singleton.1 he]
      refine ⟨le_rfl, fun hplace => by rcases hplace with hplace | hplace <;> exact absurd hplace nofun, ?_⟩
      have hall : th.events.filter (fun event => event.1 ≤ th.tick) = th.events := by
        refine List.filter_eq_self.2 fun e he => ?_
        simpa using h.ticks e he
      show positionsAt th.events th.tick = th.positions
      rw [positionsAt, hall, h.positions]

end CTeeHistorian

end DDNet
