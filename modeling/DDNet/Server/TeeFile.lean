/-
What is in a teehistorian file.

The records of positions, inputs and ticks always fit into their packers; the others do if their texts are short
enough.  A file of records that fit is read record by record, each with what was recorded (`run_decodes`), and at
the ticks at which it was recorded (`run_replays`).  Of a record that does not fit only a part is written.
-/
import DDNet.Server.TeeReplay

namespace DDNet

open Packing TeeOp Utf8

/-- The records that a call writes whatever has been recorded before. -/
def TeeCall.entries : TeeCall → List TeeEntry
  | .record call => call.entries
  | _ => []

namespace CTeeHistorian

/-! ### The records of the teehistorian -/

/-- A record of ints. -/
lemma ints_entry {tag : BitVec 32} {ints : List (BitVec 32)}
    (hformat : fixedFormat tag = some (List.replicate ints.length .int)) (hne : tag ≠ teehistorianEx)
    (hlength : ints.length ≤ 11) :
    (TeeEntry.plain (.int tag :: ints.map .int)).Wellformed ∧ (TeeEntry.plain (.int tag :: ints.map .int)).Fits ∧
      (TeeEntry.plain (.int tag :: ints.map .int)).Exact := by
  refine ⟨⟨⟨tag, _, rfl, hne⟩, readsBack_fixed ?_⟩, fits_of_maxBytes ?_, ?_⟩
  · rw [hformat, List.map_map]
    refine congrArg some (List.eq_replicate_iff.2 ⟨by rw [List.length_map], ?_⟩).symm
    intro format hmem
    obtain ⟨i, -, rfl⟩ := List.mem_map.1 hmem
    rfl
  · have hsum : ((PackOp.int tag :: ints.map .int).map maxBytes).sum = 5 * (ints.length + 1) := by
      have hall : (PackOp.int tag :: ints.map .int).map maxBytes = List.replicate (ints.length + 1) 5 := by
        refine List.eq_replicate_iff.2 ⟨by simp, ?_⟩
        intro n hn
        simp only [List.map_cons, List.map_map, List.mem_cons, List.mem_map, Function.comp] at hn
        rcases hn with rfl | ⟨i, -, rfl⟩ <;> rfl
      rw [hall, List.sum_replicate, smul_eq_mul, Nat.mul_comm]
    rw [hsum, packerBufferSize]
    omega
  · intro op hop
    rcases List.mem_cons.1 hop with rfl | hop
    · trivial
    · obtain ⟨i, -, rfl⟩ := List.mem_map.1 hop
      trivial

/-- An extra record of two ints. -/
lemma extra_entry {kind : TeeExtra} (hformat : kind.format = some [.int, .int]) (a b : BitVec 32) :
    (TeeEntry.extra kind [.int a, .int b]).Wellformed ∧ (TeeEntry.extra kind [.int a, .int b]).Fits ∧
      (TeeEntry.extra kind [.int a, .int b]).Exact := by
  refine ⟨hformat, fits_of_maxBytes (by simp [maxBytes, CVariableInt.maxBytesPacked, packerBufferSize]), ?_⟩
  intro op hop
  simp only [List.mem_cons, List.not_mem_nil, or_false] at hop
  rcases hop with rfl | rfl <;> trivial

/-- An entry that is written, read and decoded. -/
def Sound (entry : TeeEntry) : Prop := entry.Wellformed ∧ entry.Fits ∧ entry.Exact

lemma sound_tickSkip (dt : BitVec 32) : Sound (.plain [.int teehistorianTickSkip, .int dt]) :=
  @ints_entry teehistorianTickSkip [dt] rfl (by decide) (by simp)

lemma sound_playerDiff (clientId : ClientId) (dx dy : BitVec 32) :
    Sound (.plain [packedId clientId, .int dx, .int dy]) := by
  have htag : 0 ≤ (BitVec.ofNat 32 clientId.val).toInt := by
    rw [TeeReader.toInt_packedId]
    exact Int.natCast_nonneg _
  refine @ints_entry (BitVec.ofNat 32 clientId.val) [dx, dy] (if_pos htag) ?_ (by simp)
  intro h
  rw [h] at htag
  exact absurd htag (by decide)

lemma sound_playerNew (clientId : ClientId) (x y : BitVec 32) :
    Sound (.plain [.int teehistorianPlayerNew, packedId clientId, .int x, .int y]) :=
  @ints_entry teehistorianPlayerNew [BitVec.ofNat 32 clientId.val, x, y] rfl (by decide) (by simp)

lemma sound_playerOld (clientId : ClientId) : Sound (.plain [.int teehistorianPlayerOld, packedId clientId]) :=
  @ints_entry teehistorianPlayerOld [BitVec.ofNat 32 clientId.val] rfl (by decide) (by simp)

lemma sound_input {tag : BitVec 32} (h : tag = teehistorianInputDiff ∨ tag = teehistorianInputNew)
    (clientId : ClientId) (input : CNetObjPlayerInput) :
    Sound (.plain (.int tag :: packedId clientId :: packedInput input)) := by
  have hlength : (BitVec.ofNat 32 clientId.val :: List.ofFn input).length = 11 := by
    rw [List.length_cons, List.length_ofFn]
  refine @ints_entry tag (BitVec.ofNat 32 clientId.val :: List.ofFn input) ?_ ?_ hlength.le
  · rw [hlength]
    rcases h with rfl | rfl <;> rfl
  · rcases h with rfl | rfl <;> decide

/-! ### What a call writes -/

lemma file_ensureTickWritten (th : CTeeHistorian) :
    ∃ added, th.ensureTickWritten.file = th.file ++ added ∧ ∀ entry ∈ added, Sound entry := by
  rw [ensureTickWritten]
  split_ifs
  · exact ⟨[], (List.append_nil _).symm, fun _ h => absurd h List.not_mem_nil⟩
  · refine ⟨_, rfl, ?_⟩
    intro entry hentry
    rw [List.mem_singleton.1 hentry]
    exact sound_tickSkip _

lemma file_ensureTickWrittenPlayerData {th th' : CTeeHistorian} {clientId : ClientId}
    (hstep : th.ensureTickWrittenPlayerData clientId = some th') :
    ∃ added, th'.file = th.file ++ added ∧ ∀ entry ∈ added, Sound entry := by
  rw [ensureTickWrittenPlayerData] at hstep
  split_ifs at hstep
  dsimp only at hstep
  split_ifs at hstep
  · obtain rfl := Option.some.inj hstep
    refine ⟨_, rfl, ?_⟩
    intro entry hentry
    rw [List.mem_singleton.1 hentry]
    exact sound_tickSkip _
  · obtain rfl := Option.some.inj hstep
    exact ⟨[], (List.append_nil _).symm, fun _ h => absurd h List.not_mem_nil⟩

/-- One more entry. -/
lemma file_append {file file' file'' added : List TeeEntry} {entry : TeeEntry} (h : file' = file ++ added)
    (h' : file'' = file' ++ [entry]) (hadded : ∀ e ∈ added, Sound e) (hentry : Sound entry) :
    ∃ added, file'' = file ++ added ∧ ∀ e ∈ added, Sound e := by
  refine ⟨added ++ [entry], by rw [h', h, List.append_assoc], ?_⟩
  intro e he
  rcases List.mem_append.1 he with he | he
  · exact hadded e he
  · rw [List.mem_singleton.1 he]
    exact hentry

lemma file_foldl_writeEntry (entries : List TeeEntry) (th : CTeeHistorian) :
    (entries.foldl writeEntry th).file = th.file ++ entries := by
  induction entries generalizing th with
  | nil => exact (List.append_nil _).symm
  | cons entry entries ih =>
    rw [List.foldl_cons, ih]
    show th.file ++ [entry] ++ entries = _
    rw [List.append_assoc, List.singleton_append]

lemma file_recordPlayer {th th' : CTeeHistorian} {clientId : ClientId} {x y : BitVec 32}
    (hstep : th.recordPlayer clientId x y = some th') :
    ∃ added, th'.file = th.file ++ added ∧ ∀ entry ∈ added, Sound entry := by
  rw [recordPlayer] at hstep
  split_ifs at hstep
  dsimp only at hstep
  split_ifs at hstep
  · rw [Option.map_map] at hstep
    obtain ⟨next, hensure, rfl⟩ := Option.map_eq_some_iff.1 hstep
    obtain ⟨added, hadded, hsound⟩ := file_ensureTickWrittenPlayerData hensure
    exact file_append hadded rfl hsound (sound_playerDiff _ _ _)
  · rw [Option.map_map] at hstep
    obtain ⟨next, hensure, rfl⟩ := Option.map_eq_some_iff.1 hstep
    obtain ⟨added, hadded, hsound⟩ := file_ensureTickWrittenPlayerData hensure
    exact file_append hadded rfl hsound (sound_playerNew _ _ _)
  · obtain rfl := Option.some.inj hstep
    exact ⟨[], (List.append_nil _).symm, fun _ h => absurd h List.not_mem_nil⟩

lemma file_recordDeadPlayer {th th' : CTeeHistorian} {clientId : ClientId}
    (hstep : th.recordDeadPlayer clientId = some th') :
    ∃ added, th'.file = th.file ++ added ∧ ∀ entry ∈ added, Sound entry := by
  rw [recordDeadPlayer] at hstep
  split_ifs at hstep
  dsimp only at hstep
  split_ifs at hstep
  · rw [Option.map_map] at hstep
    obtain ⟨next, hensure, rfl⟩ := Option.map_eq_some_iff.1 hstep
    obtain ⟨added, hadded, hsound⟩ := file_ensureTickWrittenPlayerData hensure
    exact file_append hadded rfl hsound (sound_playerOld _)
  · obtain rfl := Option.some.inj hstep
    exact ⟨[], (List.append_nil _).symm, fun _ h => absurd h List.not_mem_nil⟩

lemma file_recordPlayerInput (th : CTeeHistorian) (clientId : ClientId) (uniqueClientId : BitVec 32)
    (input : CNetObjPlayerInput) :
    ∃ added, (th.recordPlayerInput clientId uniqueClientId input).file = th.file ++ added ∧
      ∀ entry ∈ added, Sound entry := by
  obtain ⟨added, hadded, hsound⟩ := file_ensureTickWritten th
  rw [recordPlayerInput]
  dsimp only
  split_ifs
  · exact ⟨[], (List.append_nil _).symm, fun _ h => absurd h List.not_mem_nil⟩
  · exact file_append hadded rfl hsound (sound_input (.inl rfl) _ _)
  · exact file_append hadded rfl hsound (sound_input (.inr rfl) _ _)

lemma file_recordPlayerTeam (th : CTeeHistorian) (clientId : ClientId) (team : BitVec 32) :
    ∃ added, (th.recordPlayerTeam clientId team).file = th.file ++ added ∧ ∀ entry ∈ added, Sound entry := by
  rw [recordPlayerTeam]
  split_ifs
  · obtain ⟨added, hadded, hsound⟩ := file_ensureTickWritten
      (th.setPlayer clientId { th.prevPlayers clientId with team := team })
    exact file_append hadded rfl hsound (extra_entry rfl _ _)
  · exact ⟨[], (List.append_nil _).symm, fun _ h => absurd h List.not_mem_nil⟩

lemma file_recordTeamPractice (th : CTeeHistorian) (team : ClientId) (practice : Bool) :
    ∃ added, (th.recordTeamPractice team practice).file = th.file ++ added ∧ ∀ entry ∈ added, Sound entry := by
  rw [recordTeamPractice]
  by_cases hsame : th.prevTeams team ≠ practice
  · rw [if_pos hsame]
    obtain ⟨added, hadded, hsound⟩ := file_ensureTickWritten
      { th with prevTeams := Function.update th.prevTeams team practice }
    exact file_append hadded rfl hsound (extra_entry rfl _ _)
  · rw [if_neg hsame]
    exact ⟨[], (List.append_nil _).symm, fun _ h => absurd h List.not_mem_nil⟩

/-- A call writes sound entries, and those of a record. -/
lemma file_step {th th' : CTeeHistorian} {call : TeeCall} (hstep : th.step call = some th') :
    ∃ added, th'.file = th.file ++ added ∧ (∀ entry ∈ added, Sound entry ∨ entry ∈ call.entries) ∧
      call.entries.Sublist added := by
  have hnothing : th'.file = th.file → call.entries = [] → ∃ added, th'.file = th.file ++ added ∧
      (∀ entry ∈ added, Sound entry ∨ entry ∈ call.entries) ∧ call.entries.Sublist added := fun h hentries =>
    ⟨[], by rw [h, List.append_nil], fun _ h => absurd h List.not_mem_nil, by rw [hentries]⟩
  have hsound : (∃ added, th'.file = th.file ++ added ∧ ∀ entry ∈ added, Sound entry) → call.entries = [] →
      ∃ added, th'.file = th.file ++ added ∧ (∀ entry ∈ added, Sound entry ∨ entry ∈ call.entries) ∧
        call.entries.Sublist added := by
    rintro ⟨added, hadded, h⟩ hentries
    exact ⟨added, hadded, fun entry hentry => .inl (h entry hentry), by rw [hentries]; exact List.nil_sublist _⟩
  cases call with
  | beginTick tick =>
    rw [step, beginTick] at hstep
    split_ifs at hstep
    obtain rfl := Option.some.inj hstep
    exact hnothing rfl rfl
  | beginPlayers =>
    rw [step, beginPlayers] at hstep
    split_ifs at hstep
    obtain rfl := Option.some.inj hstep
    exact hnothing rfl rfl
  | recordPlayer clientId x y => exact hsound (file_recordPlayer hstep) rfl
  | recordDeadPlayer clientId => exact hsound (file_recordDeadPlayer hstep) rfl
  | endPlayers =>
    rw [step, endPlayers] at hstep
    split_ifs at hstep
    obtain rfl := Option.some.inj hstep
    exact hnothing rfl rfl
  | beginInputs =>
    rw [step, beginInputs] at hstep
    split_ifs at hstep
    obtain rfl := Option.some.inj hstep
    exact hnothing rfl rfl
  | recordPlayerInput clientId uniqueClientId input =>
    obtain rfl := Option.some.inj hstep
    exact hsound (file_recordPlayerInput th clientId uniqueClientId input) rfl
  | endInputs =>
    rw [step, endInputs] at hstep
    split_ifs at hstep
    obtain rfl := Option.some.inj hstep
    exact hnothing rfl rfl
  | endTick =>
    rw [step, endTick] at hstep
    split_ifs at hstep
    obtain rfl := Option.some.inj hstep
    exact hnothing rfl rfl
  | recordPlayerTeam clientId team =>
    obtain rfl := Option.some.inj hstep
    exact hsound (file_recordPlayerTeam th clientId team) rfl
  | recordTeamPractice team practice =>
    obtain rfl := Option.some.inj hstep
    exact hsound (file_recordTeamPractice th team practice) rfl
  | record c =>
    obtain rfl := Option.some.inj hstep
    obtain ⟨added, hadded, hall⟩ := file_ensureTickWritten th
    refine ⟨added ++ c.entries, ?_, ?_, List.sublist_append_right _ _⟩
    · rw [record, file_foldl_writeEntry, hadded, List.append_assoc]
    · intro entry hentry
      rcases List.mem_append.1 hentry with hentry | hentry
      · exact .inl (hall entry hentry)
      · exact .inr hentry

lemma file_run {th th' : CTeeHistorian} {calls : List TeeCall} (hrun : th.run calls = some th') :
    ∃ added, th'.file = th.file ++ added ∧
      (∀ entry ∈ added, Sound entry ∨ entry ∈ calls.flatMap TeeCall.entries) ∧
      (calls.flatMap TeeCall.entries).Sublist added := by
  induction calls generalizing th with
  | nil =>
    obtain rfl := Option.some.inj hrun
    exact ⟨[], (List.append_nil _).symm, fun _ h => absurd h List.not_mem_nil, List.nil_sublist _⟩
  | cons call calls ih =>
    rw [run] at hrun
    obtain ⟨next, hstep, hrest⟩ := Option.bind_eq_some_iff.1 hrun
    obtain ⟨added, hadded, hall, hsub⟩ := file_step hstep
    obtain ⟨more, hmore, hall', hsub'⟩ := ih hrest
    rw [List.flatMap_cons]
    refine ⟨added ++ more, by rw [hmore, hadded, List.append_assoc], ?_, hsub.append hsub'⟩
    intro entry hentry
    rw [List.mem_append]
    rcases List.mem_append.1 hentry with hentry | hentry
    · rcases hall entry hentry with hsound | hc
      · exact .inl hsound
      · exact .inr (.inl hc)
    · rcases hall' entry hentry with hsound | hc
      · exact .inl hsound
      · exact .inr (.inr hc)

/-! ### The formats of the records -/

lemma wellformed_plain {tag : BitVec 32} {ops : List PackOp} (hne : tag ≠ teehistorianEx)
    (hreads : ReadsBack (.int tag :: ops)) : (TeeEntry.plain (.int tag :: ops)).Wellformed :=
  ⟨⟨tag, ops, rfl, hne⟩, hreads⟩

/-- The message comes after its size. -/
lemma readsBack_message (clientId : BitVec 32) (msg : List UInt8) :
    ReadsBack [.int teehistorianMessage, .int clientId, .int (BitVec.ofNat 32 msg.length), .raw msg] := by
  refine @readsBack_sized teehistorianMessage (BitVec.ofNat 32 msg.length) [.int clientId] [.raw msg]
    (fun size => [.raw size]) ?_ fun bytes => rfl
  intro hfits
  have hlength : msg.length ≤ packerBufferSize := by
    have hsum := (fits_iff _).1 hfits
    simp only [List.cons_append, List.nil_append, List.map_cons, List.map_nil, List.sum_cons, List.sum_nil,
      packedSize] at hsum
    omega
  obtain ⟨htoNat, hpos⟩ := toNat_ofNat_of_le hlength
  refine ⟨hpos, ?_⟩
  rw [htoNat]
  rfl

/-- The arguments come after their number. -/
lemma readsBack_consoleCommand (clientId flagMask : BitVec 32) (cmd : CStr) (args : List CStr) :
    ReadsBack ([.int teehistorianConsoleCommand, .int clientId, .int flagMask, .string cmd 0] ++
      .int (BitVec.ofNat 32 args.length) :: args.map fun arg => .string arg 0) := by
  refine @readsBack_sized teehistorianConsoleCommand (BitVec.ofNat 32 args.length)
    [.int clientId, .int flagMask, .string cmd 0] _ (fun n => List.replicate n .string) ?_ fun bytes => rfl
  intro hfits
  have hlength : args.length ≤ packerBufferSize := by
    refine @length_le_of_fits ([.int teehistorianConsoleCommand, .int clientId, .int flagMask, .string cmd 0] ++
      [.int (BitVec.ofNat 32 args.length)]) args ?_
    rw [List.append_assoc]
    exact hfits
  obtain ⟨htoNat, hpos⟩ := toNat_ofNat_of_le hlength
  refine ⟨hpos, ?_⟩
  rw [htoNat, List.map_map]
  refine (List.eq_replicate_iff.2 ⟨List.length_map _, ?_⟩).symm
  intro field hfield
  obtain ⟨arg, -, rfl⟩ := List.mem_map.1 hfield
  rfl

/-- The records have the formats of their kinds. -/
lemma wellformed_entries (call : TeeRecordCall) : ∀ entry ∈ call.entries, entry.Wellformed := by
  intro entry hentry
  cases call <;> simp only [TeeRecordCall.entries, List.mem_cons, List.not_mem_nil, or_false] at hentry
  case recordPlayerMessage => rw [hentry]; exact wellformed_plain (by decide) (readsBack_message _ _)
  case recordPlayerJoin clientId protocol7 =>
    rcases hentry with rfl | rfl
    · cases protocol7 <;> rfl
    · exact wellformed_plain (by decide) (readsBack_fixed rfl)
  case recordPlayerDrop => rw [hentry]; exact wellformed_plain (by decide) (readsBack_fixed rfl)
  case recordConsoleCommand =>
    rw [hentry]
    exact wellformed_plain (by decide) (readsBack_consoleCommand _ _ _ _)
  case recordTeamSaveSuccess team saveId teamSave =>
    rw [hentry]
    show TeeExtra.format _ = some [_, .raw saveId.1.length, _]
    rw [saveId.2]
    rfl
  case recordTeamLoadSuccess team saveId teamSave =>
    rw [hentry]
    show TeeExtra.format _ = some [_, .raw saveId.1.length, _]
    rw [saveId.2]
    rfl
  case recordDDNetVersion clientId connectionId ddnetVersion ddnetVersionStr =>
    rw [hentry]
    show TeeExtra.format _ = some [_, .raw connectionId.1.length, _, _]
    rw [connectionId.2]
    rfl
  case recordAntibot => rw [hentry]; trivial
  all_goals rw [hentry]; rfl

/-! ### Runs -/

/-- The ticks that are begun. -/
def beginTicks (calls : List TeeCall) : List ℤ :=
  calls.filterMap fun call => match call with
    | .beginTick tick => some tick
    | _ => none

/-- The calls of the game: the ticks increase and are ints, and the clients have ids. -/
structure GameCalls (tick : ℤ) (calls : List TeeCall) : Prop where
  increasing : (tick :: beginTicks calls).Pairwise (· < ·)
  ints : ∀ tick ∈ beginTicks calls, tick < 2 ^ 31
  ids : ∀ clientId uniqueClientId input, .recordPlayerInput clientId uniqueClientId input ∈ calls →
    uniqueClientId ≠ 0

lemma GameCalls.tail {tick : ℤ} {call : TeeCall} {calls : List TeeCall} (h : GameCalls tick (call :: calls))
    (hcall : beginTicks [call] = []) : GameCalls tick calls := by
  have hticks : beginTicks (call :: calls) = beginTicks calls := by
    rw [beginTicks, ← List.singleton_append, List.filterMap_append]
    show beginTicks [call] ++ beginTicks calls = _
    rw [hcall, List.nil_append]
  obtain ⟨hincreasing, hints, hids⟩ := h
  rw [hticks] at hincreasing hints
  exact ⟨hincreasing, hints, fun _ _ _ hmem => hids _ _ _ (List.mem_cons_of_mem _ hmem)⟩

lemma GameCalls.beginTick {tick tick' : ℤ} {calls : List TeeCall}
    (h : GameCalls tick (.beginTick tick' :: calls)) : tick < tick' ∧ tick' < 2 ^ 31 ∧ GameCalls tick' calls := by
  obtain ⟨hincreasing, hints, hids⟩ := h
  have hticks : beginTicks (.beginTick tick' :: calls) = tick' :: beginTicks calls := rfl
  rw [hticks] at hincreasing hints
  obtain ⟨hlt, hrest⟩ := List.pairwise_cons.1 hincreasing
  refine ⟨hlt _ List.mem_cons_self, hints _ List.mem_cons_self, hrest, ?_, ?_⟩
  · intro tick hmem
    exact hints _ (List.mem_cons_of_mem _ hmem)
  · intro _ _ _ hmem
    exact hids _ _ _ (List.mem_cons_of_mem _ hmem)

lemma ensureTickWritten_tick (th : CTeeHistorian) : th.ensureTickWritten.tick = th.tick :=
  (ensureTickWritten_spec th).1

lemma foldl_writeEntry_tick (entries : List TeeEntry) (th : CTeeHistorian) :
    (entries.foldl writeEntry th).tick = th.tick := by
  induction entries generalizing th with
  | nil => rfl
  | cons entry entries ih => exact ih (th.writeEntry entry)

lemma recordPlayerInput_tick (th : CTeeHistorian) (clientId : ClientId) (uniqueClientId : BitVec 32)
    (input : CNetObjPlayerInput) : (th.recordPlayerInput clientId uniqueClientId input).tick = th.tick := by
  rw [recordPlayerInput]
  dsimp only
  by_cases hsame : (th.prevPlayers clientId).uniqueClientId = uniqueClientId ∧ (th.prevPlayers clientId).input = input
  · rw [if_pos hsame]
  · rw [if_neg hsame]
    exact ensureTickWritten_tick th

lemma recordPlayerTeam_tick (th : CTeeHistorian) (clientId : ClientId) (team : BitVec 32) :
    (th.recordPlayerTeam clientId team).tick = th.tick := by
  rw [recordPlayerTeam]
  split_ifs
  · exact ensureTickWritten_tick (th.setPlayer clientId { th.prevPlayers clientId with team := team })
  · rfl

lemma recordTeamPractice_tick (th : CTeeHistorian) (team : ClientId) (practice : Bool) :
    (th.recordTeamPractice team practice).tick = th.tick := by
  rw [recordTeamPractice]
  by_cases hsame : th.prevTeams team ≠ practice
  · rw [if_pos hsame]
    exact ensureTickWritten_tick { th with prevTeams := Function.update th.prevTeams team practice }
  · rw [if_neg hsame]

lemma recordPlayer_tick {th th' : CTeeHistorian} (hinv : th.Inv) {clientId : ClientId} {x y : BitVec 32}
    (hstep : th.recordPlayer clientId x y = some th') : th'.tick = th.tick := by
  rw [recordPlayer] at hstep
  split_ifs at hstep with hstate
  dsimp only at hstep
  split_ifs at hstep
  · rw [Option.map_map] at hstep
    obtain ⟨next, hensure, rfl⟩ := Option.map_eq_some_iff.1 hstep
    obtain ⟨-, -, -, -, htick, -⟩ := ensureTickWrittenPlayerData_spec hinv hstate hensure
    exact htick
  · rw [Option.map_map] at hstep
    obtain ⟨next, hensure, rfl⟩ := Option.map_eq_some_iff.1 hstep
    obtain ⟨-, -, -, -, htick, -⟩ := ensureTickWrittenPlayerData_spec hinv hstate hensure
    exact htick
  · obtain rfl := Option.some.inj hstep
    rfl

lemma recordDeadPlayer_tick {th th' : CTeeHistorian} (hinv : th.Inv) {clientId : ClientId}
    (hstep : th.recordDeadPlayer clientId = some th') : th'.tick = th.tick := by
  rw [recordDeadPlayer] at hstep
  split_ifs at hstep with hstate
  dsimp only at hstep
  split_ifs at hstep
  · rw [Option.map_map] at hstep
    obtain ⟨next, hensure, rfl⟩ := Option.map_eq_some_iff.1 hstep
    obtain ⟨-, -, -, -, htick, -⟩ := ensureTickWrittenPlayerData_spec hinv hstate hensure
    exact htick
  · obtain rfl := Option.some.inj hstep
    rfl

/-- A call between the players and the end of the tick. -/
lemma phase_step {th : CTeeHistorian} {state : TeeState} {tick : ℤ} {call : TeeCall} {calls : List TeeCall}
    (hinv : th.Inv) (hhistory : th.History) (hcalls : GameCalls tick (call :: calls)) (hcall : beginTicks [call] = [])
    (hfrom : th.state = .beforeInputs ∨ th.state = .inputs ∨ th.state = .beforeEndTick)
    (hto : state = .inputs ∨ state = .beforeEndTick ∨ state = .beforeTick) :
    Inv { th with state := state } ∧ History { th with state := state } ∧ GameCalls tick calls := by
  refine ⟨hinv.phase hfrom hto, hhistory.of_same rfl rfl rfl rfl ?_, hcalls.tail hcall⟩
  intro hplace
  rcases hto with rfl | rfl | rfl <;> rcases hplace with hplace | hplace <;> exact absurd hplace nofun

/-- What a call of the game keeps. -/
lemma step_inv {th th' : CTeeHistorian} {call : TeeCall} {calls : List TeeCall} (hinv : th.Inv)
    (hhistory : th.History) (hcalls : GameCalls th.tick (call :: calls)) (hstep : th.step call = some th') :
    th'.Inv ∧ th'.History ∧ GameCalls th'.tick calls := by
  cases call with
  | beginTick tick =>
    obtain ⟨hlt, hhigh, hrest⟩ := hcalls.beginTick
    have htick : th'.tick = tick := by
      rw [step, CTeeHistorian.beginTick] at hstep
      split_ifs at hstep
      obtain rfl := Option.some.inj hstep
      rfl
    rw [htick]
    exact ⟨hinv.beginTick hlt hhigh hstep, hhistory.beginTick hlt hstep, hrest⟩
  | beginPlayers =>
    have hinv' := hinv.beginPlayers hstep
    rw [step, CTeeHistorian.beginPlayers] at hstep
    split_ifs at hstep with hstate
    obtain rfl := Option.some.inj hstep
    exact ⟨hinv', hhistory.of_same rfl rfl rfl rfl fun _ => .inl hstate, hcalls.tail rfl⟩
  | recordPlayer clientId x y =>
    rw [recordPlayer_tick hinv hstep]
    exact ⟨hinv.recordPlayer hstep, hhistory.recordPlayer hinv hstep, hcalls.tail rfl⟩
  | recordDeadPlayer clientId =>
    rw [recordDeadPlayer_tick hinv hstep]
    exact ⟨hinv.recordDeadPlayer hstep, hhistory.recordDeadPlayer hinv hstep, hcalls.tail rfl⟩
  | endPlayers =>
    have hinv' := hinv.endPlayers hstep
    have hhistory' := hhistory.endPlayers hstep
    rw [step, CTeeHistorian.endPlayers] at hstep
    split_ifs at hstep
    obtain rfl := Option.some.inj hstep
    exact ⟨hinv', hhistory', hcalls.tail rfl⟩
  | beginInputs =>
    rw [step, beginInputs] at hstep
    split_ifs at hstep with hstate
    obtain rfl := Option.some.inj hstep
    exact phase_step hinv hhistory hcalls rfl (.inl hstate) (.inl rfl)
  | recordPlayerInput clientId uniqueClientId input =>
    obtain rfl := Option.some.inj hstep
    rw [recordPlayerInput_tick]
    have hne := hcalls.ids clientId uniqueClientId input List.mem_cons_self
    exact ⟨hinv.recordPlayerInput clientId hne input, hhistory.recordPlayerInput clientId uniqueClientId input,
      hcalls.tail rfl⟩
  | endInputs =>
    rw [step, endInputs] at hstep
    split_ifs at hstep with hstate
    obtain rfl := Option.some.inj hstep
    exact phase_step hinv hhistory hcalls rfl (.inr (.inl hstate)) (.inr (.inl rfl))
  | endTick =>
    rw [step, endTick] at hstep
    split_ifs at hstep with hstate
    obtain rfl := Option.some.inj hstep
    exact phase_step hinv hhistory hcalls rfl (.inr (.inr hstate)) (.inr (.inr rfl))
  | recordPlayerTeam clientId team =>
    obtain rfl := Option.some.inj hstep
    rw [recordPlayerTeam_tick]
    exact ⟨hinv.recordPlayerTeam clientId team, hhistory.recordPlayerTeam clientId team, hcalls.tail rfl⟩
  | recordTeamPractice team practice =>
    obtain rfl := Option.some.inj hstep
    rw [recordTeamPractice_tick]
    exact ⟨hinv.recordTeamPractice team practice, hhistory.recordTeamPractice team practice, hcalls.tail rfl⟩
  | record c =>
    obtain rfl := Option.some.inj hstep
    have htick : (th.record c).tick = th.tick := by
      rw [CTeeHistorian.record, foldl_writeEntry_tick, ensureTickWritten_tick]
    rw [htick]
    exact ⟨hinv.record c, hhistory.ensureTickWritten.foldl_writeEntry c.entries, hcalls.tail rfl⟩

lemma run_inv {th th' : CTeeHistorian} {calls : List TeeCall} (hinv : th.Inv) (hhistory : th.History)
    (hcalls : GameCalls th.tick calls) (hrun : th.run calls = some th') : th'.Inv ∧ th'.History := by
  induction calls generalizing th with
  | nil =>
    obtain rfl := Option.some.inj hrun
    exact ⟨hinv, hhistory⟩
  | cons call calls ih =>
    rw [run] at hrun
    obtain ⟨next, hstep, hrest⟩ := Option.bind_eq_some_iff.1 hrun
    obtain ⟨hinv', hhistory', hcalls'⟩ := step_inv hinv hhistory hcalls hstep
    exact ih hinv' hhistory' hcalls' hrest

/-- The reader has every event at its tick, the players that are alive at the end of each tick, and the positions and
inputs of the teehistorian. -/
def Replays (th : CTeeHistorian) : Prop :=
  ∃ bytes records, th.bytes = some bytes ∧ readRecords bytes = some records ∧
    (TeeReader.replay records).events = th.events ∧
    (∀ e ∈ th.ended, positionsAt (TeeReader.replay records).events e.1 = e.2) ∧
    (TeeReader.replay records).positions = th.positions ∧
    ∀ clientId, (th.prevPlayers clientId).uniqueClientId ≠ 0 →
      (TeeReader.replay records).inputs clientId.val = (th.prevPlayers clientId).input

lemma mapM_decodeRecord {entries : List TeeEntry} (h : ∀ entry ∈ entries, Sound entry) :
    (entries.map TeeEntry.fields).mapM decodeRecord = some (entries.map TeeEntry.record) := by
  induction entries with
  | nil => rfl
  | cons entry entries ih =>
    obtain ⟨hwell, hfits, hexact⟩ := h entry List.mem_cons_self
    rw [List.map_cons, List.map_cons, List.mapM_cons, TeeEntry.decodes hwell hfits hexact,
      ih fun e he => h e (List.mem_cons_of_mem _ he)]
    rfl

/-- The reader decodes every record of the file, and these are the records of the calls. -/
def Decodes (th : CTeeHistorian) (calls : List TeeCall) : Prop :=
  ∃ bytes records decoded, th.bytes = some bytes ∧ readRecords bytes = some records ∧
    records.mapM decodeRecord = some decoded ∧ decoded = th.file.map TeeEntry.record ∧
    ((calls.flatMap TeeCall.entries).map TeeEntry.record).Sublist decoded

lemma wellformed_calls {calls : List TeeCall} {entry : TeeEntry} (h : entry ∈ calls.flatMap TeeCall.entries) :
    entry.Wellformed := by
  obtain ⟨call, -, hentry⟩ := List.mem_flatMap.1 h
  cases call with
  | record c => exact wellformed_entries c entry hentry
  | _ => exact absurd hentry List.not_mem_nil

/-- If the records fit into their packers, the file of a run is read as it was recorded. -/
theorem run_replays {players : ClientId → CTeehistorianPlayer} {calls : List TeeCall} {th : CTeeHistorian}
    (hcalls : GameCalls 0 calls) (hshort : ∀ entry ∈ calls.flatMap TeeCall.entries, entry.Short)
    (hrun : (reset players).run calls = some th) : th.Replays := by
  obtain ⟨hinv, hhistory⟩ := run_inv (reset_inv players) (reset_history players) hcalls hrun
  obtain ⟨added, hadded, hall, -⟩ := file_run hrun
  have hfile : th.file = added := hadded
  obtain ⟨bytes, hbytes, hread⟩ := @readRecords_fileBytes th.file (by
    intro entry hentry
    rw [hfile] at hentry
    rcases hall entry hentry with hsound | hmem
    · exact TeeEntry.reads hsound.1 hsound.2.1
    · exact TeeEntry.reads (wellformed_calls hmem) (TeeEntry.fits_of_short (hshort entry hmem)))
  refine ⟨bytes, _, hbytes, hread, hinv.events, ?_, hinv.positions, hinv.inputs⟩
  intro e he
  obtain ⟨-, -, hat⟩ := hhistory.ended e he
  rw [show (TeeReader.replay (th.file.map TeeEntry.fields)).events = th.events from hinv.events]
  exact hat

/-- A text without the null character. -/
def text (cs : List Char) (h : ∀ c ∈ cs, c.toNat ≠ 0) : CStr :=
  ⟨encode cs, fun b hb hzero => zero_notMem_encode h (hzero ▸ hb)⟩

def vote : CStr := text ['v', 'o', 't', 'e'] (by simp)

def tee : CStr := text ['t', 'e', 'e'] (by simp)

/-- Players without positions, inputs and ids. -/
def noPlayers : ClientId → CTeehistorianPlayer := fun _ => ⟨false, 0, 0, fun _ => 0, 0, 0⟩

/-- A player joins, moves for two ticks, and presses a key. -/
def shortCalls : List TeeCall :=
  [.beginTick 1, .beginPlayers, .recordPlayer 3 5 6, .endPlayers, .beginInputs, .recordPlayerInput 3 1 fun _ => 1,
    .record (.recordPlayerName 3 tee), .endInputs, .endTick, .beginTick 2,
    .beginPlayers, .recordPlayer 3 7 6, .endPlayers, .beginInputs, .endInputs, .endTick]

lemma shortCalls_valid : ∀ entry ∈ shortCalls.flatMap TeeCall.entries, entry.ValidShort := by
  intro entry hentry
  have hname : entry = .extra .playerName [.int 3, .string tee 0] :=
    List.mem_singleton.1 hentry
  rw [hname]
  refine ⟨?_, by decide⟩
  intro op hop
  simp only [List.mem_cons, List.not_mem_nil, or_false] at hop
  rcases hop with rfl | rfl
  · trivial
  · exact ⟨strUtf8Check_encode _, le_refl _⟩

theorem shortCalls_replays : ∃ th, (reset noPlayers).run shortCalls = some th ∧ th.Replays := by
  have hcalls : GameCalls 0 shortCalls := by
    refine ⟨by decide, by decide, ?_⟩
    intro clientId uniqueClientId input hmem
    simp only [shortCalls, List.mem_cons, reduceCtorEq, TeeCall.recordPlayerInput.injEq, List.not_mem_nil, or_false,
      false_or] at hmem
    rw [hmem.2.1]
    decide
  have hshort : ∀ entry ∈ shortCalls.flatMap TeeCall.entries, entry.Short := fun entry hentry =>
    TeeEntry.short_of_validShort (shortCalls_valid entry hentry)
  exact ⟨_, rfl, run_replays hcalls hshort rfl⟩

/-- If the texts are valid and fit into their packers, every record of a run is decoded as it was recorded. -/
theorem run_decodes {players : ClientId → CTeehistorianPlayer} {calls : List TeeCall} {th : CTeeHistorian}
    (hvalid : ∀ entry ∈ calls.flatMap TeeCall.entries, entry.ValidShort)
    (hrun : (reset players).run calls = some th) : th.Decodes calls := by
  obtain ⟨added, hadded, hall, hsub⟩ := file_run hrun
  have hfile : th.file = added := hadded
  have hsound : ∀ entry ∈ th.file, Sound entry := by
    intro entry hentry
    rw [hfile] at hentry
    rcases hall entry hentry with hsound | hmem
    · exact hsound
    · exact ⟨wellformed_calls hmem, TeeEntry.fits_of_validShort (hvalid entry hmem)⟩
  obtain ⟨bytes, hbytes, hread⟩ := @readRecords_fileBytes th.file fun entry hentry =>
    TeeEntry.reads (hsound entry hentry).1 (hsound entry hentry).2.1
  refine ⟨bytes, _, _, hbytes, hread, ?_, rfl, ?_⟩
  · exact mapM_decodeRecord hsound
  · rw [hfile]
    exact hsub.map _

theorem shortCalls_decodes : ∃ th, (reset noPlayers).run shortCalls = some th ∧ th.Decodes shortCalls :=
  ⟨_, rfl, run_decodes shortCalls_valid rfl⟩

/-! ### A text that is too long -/

lemma takeWithin_replicate (n m : ℕ) : takeWithin n (List.replicate (n + m) 'a') = List.replicate n 'a' := by
  induction n with
  | zero => exact takeWithin_zero _
  | succ n ih =>
    have hone : (String.utf8EncodeChar 'a').length = 1 := by decide
    rw [Nat.succ_add, List.replicate_succ, takeWithin, hone, if_pos (Nat.le_add_left 1 n), List.replicate_succ,
      Nat.add_sub_cancel, ih]

lemma encode_replicate (n : ℕ) : encode (List.replicate n 'a') = List.replicate n 97 := by
  induction n with
  | zero => rfl
  | succ n ih =>
    rw [List.replicate_succ, encode_cons, ih]
    rfl

/-- 3000 letters. -/
def longText : CStr :=
  ⟨List.replicate 3000 97, fun b hb => by rw [List.eq_of_mem_replicate hb]; decide⟩

/-- A text that is longer than the packer fits nowhere. -/
lemma packerBufferSize_lt_longText : packerBufferSize < packedSize (.string longText 0) := by
  have hbytes : longText.bytes = encode (List.replicate (packerBufferSize + 952) 'a') := (encode_replicate _).symm
  have hpacked := packedString_of_encode hbytes 0
  rw [packedSize, hpacked, show CPacker.stringLimit 0 = packerBufferSize from rfl, takeWithin_replicate,
    encode_replicate, List.length_replicate]
  exact Nat.lt_succ_self _

/-- A console command with a long first argument, and a player in the next tick. -/
def truncatedCalls : List TeeCall :=
  [.beginTick 1, .beginPlayers, .endPlayers, .beginInputs,
    .record (.recordConsoleCommand 0 0 vote [longText, tee]),
    .endInputs, .endTick, .beginTick 2, .beginPlayers, .recordPlayer 0 5 6]

/-- What of the console command is packed before the arguments. -/
def truncatedHead : List PackOp :=
  [.int teehistorianConsoleCommand, .int 0, .int 0, .string vote 0, .int 2]

lemma truncatedHead_fits : Fits truncatedHead ∧ (packAll truncatedHead).size < packerBufferSize := by
  have hvalid : ∀ op ∈ truncatedHead, Valid op := by
    intro op hop
    simp only [truncatedHead, List.mem_cons, List.not_mem_nil, or_false] at hop
    rcases hop with rfl | rfl | rfl | rfl | rfl
    · trivial
    · trivial
    · trivial
    · exact ⟨strUtf8Check_encode _, le_refl _⟩
    · trivial
  obtain ⟨hfits, hexact⟩ := fits_of_valid hvalid (by decide)
  refine ⟨hfits, ?_⟩
  have hsizes : truncatedHead.map packedSize = truncatedHead.map argumentSize :=
    List.map_congr_left fun op hop => packedSize_of_exact (hexact op hop)
  rw [packAll, size_foldl hfits.1, hsizes]
  decide

/-- The bytes of the tick that comes next. -/
lemma tickSkip_bytes : (TeeEntry.plain [.int teehistorianTickSkip, .int 0]).bytes = some [0x41, 0] := by
  decide +kernel

lemma reads_tickSkip : Reads [.int teehistorianTickSkip, .int 0] [0x41, 0] := by
  obtain ⟨hwell, hfits, -⟩ := sound_tickSkip 0
  obtain ⟨bytes, hbytes, hreads⟩ := TeeEntry.reads hwell hfits
  obtain rfl := Option.some.inj (tickSkip_bytes.symm.trans hbytes)
  exact hreads

/-- Of the command, the first argument is cut, and the second one is missing: the reader takes the next tick for
it. -/
lemma truncatedHead_reads : ∃ bytes fields,
    (packAll (truncatedHead ++ [.string longText 0, .string tee 0])).produced = some bytes ∧
      Reads (.int teehistorianConsoleCommand :: fields) (bytes ++ [0x41, 0]) := by
  obtain ⟨hfits, hsize⟩ := truncatedHead_fits
  obtain ⟨head, hproduced, -, hread⟩ := hfits.readFields
  have hhead : (packAll truncatedHead).buffer = head := by
    rw [CPacker.produced, if_pos hfits.2] at hproduced
    exact Option.some.inj hproduced
  have hfull : packerBufferSize < (packAll truncatedHead).size + packedSize (.string longText 0) :=
    packerBufferSize_lt_longText.trans_le (Nat.le_add_left _ _)
  obtain ⟨part, hpart, hadd, hroom⟩ := addString_of_not_fits hfits.1 hsize hfull
  have hrun : packAll (truncatedHead ++ [.string longText 0, .string tee 0]) =
      ⟨head ++ (part ++ [0]), true⟩ := by
    have hlong : PackOp.add (packAll truncatedHead) (.string longText 0) = _ := hadd
    rw [packAll_append, List.foldl_cons, List.foldl_cons, List.foldl_nil, hlong, add_of_error rfl, hhead]
  have hlength : (head ++ (part ++ [0])).length ≤ packerBufferSize := by
    rw [CPacker.size, hhead] at hroom
    rw [List.length_append, List.length_append, List.length_singleton]
    omega
  have hargs : ∀ rest, readFields [.string, .string] (part ++ [0] ++ [0x41, 0] ++ rest) =
      some ([.string part, .string [0x41]], rest) := by
    refine @readFields_append [.string] [.string] [.string part] [.string [0x41]] _ _ ?_ fun rest => rfl
    intro rest
    rw [List.append_assoc, List.singleton_append, readFields, readField, readString_append hpart]
    rfl
  refine ⟨head ++ (part ++ [0]), [.int 0, .int 0, packed (.string vote 0), .int 2] ++
    [.string part, .string [0x41]], ?_, ?_⟩
  · rw [hrun, CPacker.produced, CPacker.size, if_pos hlength]
  · rw [List.append_assoc]
    exact @reads_sized teehistorianConsoleCommand 2 [.int, .int, .string, .int] (fun n => List.replicate n .string) _ _
      _ _ (fun _ => rfl) hread rfl (by decide) hargs

/-- The reader is a tick behind. -/
theorem truncatedCalls_misread :
    GameCalls 0 truncatedCalls ∧ ∃ th, (reset noPlayers).run truncatedCalls = some th ∧ ¬ th.Replays := by
  refine ⟨⟨by decide, by decide, by simp [truncatedCalls]⟩, _, rfl, ?_⟩
  rintro ⟨bytes, records, hbytes, hrecords, hevents, -⟩
  obtain ⟨command, fields, hcommand, hreads⟩ := truncatedHead_reads
  obtain ⟨hwell, hfits, -⟩ := sound_playerNew 0 5 6
  obtain ⟨player, hplayer, hreads'⟩ := TeeEntry.reads hwell hfits
  have hfile : bytes = [0x41, 0] ++ (command ++ ([0x41, 0] ++ (player ++ []))) := by
    have hall : fileBytes [.plain [.int teehistorianTickSkip, .int 0],
        .plain (truncatedHead ++ [.string longText 0, .string tee 0]),
        .plain [.int teehistorianTickSkip, .int 0],
        .plain [.int teehistorianPlayerNew, packedId 0, .int 5, .int 6]] = some bytes := hbytes
    rw [fileBytes, fileBytes, fileBytes, fileBytes, fileBytes, tickSkip_bytes, hplayer,
      show TeeEntry.bytes (.plain _) = _ from hcommand] at hall
    exact (Option.some.inj hall).symm
  have hread := @readRecords_flatMap [([.int teehistorianTickSkip, .int 0], [0x41, 0]),
    (.int teehistorianConsoleCommand :: fields, command ++ [0x41, 0]),
    (TeeEntry.fields (.plain [.int teehistorianPlayerNew, packedId 0, .int 5, .int 6]), player)] (by
      intro r hr
      simp only [List.mem_cons, List.not_mem_nil, or_false] at hr
      rcases hr with rfl | rfl | rfl
      · exact reads_tickSkip
      · exact hreads
      · exact hreads')
  have hsame : ([0x41, 0] ++ (command ++ [0x41, 0] ++ (player ++ [])) : List UInt8) = bytes := by
    rw [hfile, List.append_assoc command]
  rw [List.flatMap_cons, List.flatMap_cons, List.flatMap_cons, List.flatMap_nil, hsame, hrecords] at hread
  obtain rfl := Option.some.inj hread
  have hlate : (TeeReader.replay [[.int teehistorianTickSkip, .int 0], .int teehistorianConsoleCommand :: fields,
      [.int teehistorianPlayerNew, .int 0, .int 5, .int 6]]).events = [(1, .other), (1, .player 0 5 6)] := by
    have hother : TeeReader.OtherTag teehistorianConsoleCommand := .inr (.inr (.inr (.inl rfl)))
    rw [TeeReader.replay, List.foldl_cons, List.foldl_cons, List.foldl_cons, List.foldl_nil,
      TeeReader.step_other _ hother]
    rfl
  have hticks := congrArg (List.map Prod.fst) (hlate.symm.trans hevents)
  exact absurd hticks (by decide : ¬ ([1, 1] : List ℤ) = [1, 2])

/-- A team is saved, with a long save string. -/
def saveCalls : List TeeCall :=
  [.beginTick 1, .record (.recordTeamSaveSuccess 1 (.replicate 16 0) longText)]

/-- The payload of the record. -/
def savePayload : List PackOp := [.int 1, .raw (List.replicate 16 0)] ++ [.string longText 0]

/-- Of the payload, a part of the save string is missing. -/
lemma savePayload_cut : ∃ part, part ≠ longText.bytes ∧ (packAll savePayload).size ≤ packerBufferSize ∧
    decodeExtra .saveSuccess (packAll savePayload).buffer =
      some (.extra .saveSuccess [.int 1, .raw (List.replicate 16 0), .string part]) := by
  have hfits : Fits [.int 1, .raw (List.replicate 16 0)] := fits_of_maxBytes (by decide)
  have hsize : (packAll [.int 1, .raw (List.replicate 16 0)]).size < packerBufferSize := by
    rw [packAll, size_foldl hfits.1]
    decide
  obtain ⟨part, payload, hrun, hlength, hpart, hread⟩ := readFields_of_not_fits hfits hsize
    (packerBufferSize_lt_longText.trans_le (Nat.le_add_left _ _))
  refine ⟨part, ?_, ?_, ?_⟩
  · rintro rfl
    rw [longText, List.length_replicate] at hpart
    exact absurd hpart (by decide)
  · rw [savePayload, hrun]
    exact hlength
  · have hpayload : readFields [.int, .raw 16, .string] (payload ++ []) =
        some ([.int 1, .raw (List.replicate 16 0), .string part], []) := hread []
    rw [List.append_nil] at hpayload
    rw [savePayload, hrun, decodeExtra, show TeeExtra.saveSuccess.format = some _ from rfl]
    dsimp only
    rw [hpayload]
    rfl

/-- The reader has a part of the save string only. -/
theorem saveCalls_cut : ∃ th, (reset noPlayers).run saveCalls = some th ∧ ¬ th.Decodes saveCalls := by
  refine ⟨_, rfl, ?_⟩
  rintro ⟨bytes, records, decoded, hbytes, hrecords, hdecoded, rfl, -⟩
  obtain ⟨part, hpart, hsize, hdecode⟩ := savePayload_cut
  obtain ⟨hwell, hfits, hexact⟩ := sound_tickSkip 0
  obtain ⟨bytes', hbytes', hread⟩ := @readRecords_fileBytes
    [.plain [.int teehistorianTickSkip, .int 0], .extra .saveSuccess savePayload] (by
      intro entry hentry
      simp only [List.mem_cons, List.not_mem_nil, or_false] at hentry
      rcases hentry with rfl | rfl
      · exact TeeEntry.reads hwell hfits
      · exact TeeEntry.reads_of_size hsize)
  obtain rfl := Option.some.inj (hbytes'.symm.trans hbytes)
  obtain rfl := Option.some.inj (hread.symm.trans hrecords)
  have hsave : decodeRecord (TeeEntry.extra .saveSuccess savePayload).fields =
      some (.extra .saveSuccess [.int 1, .raw (List.replicate 16 0), .string part]) := by
    rw [TeeEntry.fields, decodeRecord, if_pos rfl, TeeExtra.ofUuid_uuid, Option.bind_some, hdecode]
  rw [List.map_cons, List.map_cons, List.map_nil, List.mapM_cons, List.mapM_cons, List.mapM_nil,
    TeeEntry.decodes hwell hfits hexact, hsave] at hdecoded
  obtain ⟨-, hcut⟩ := List.cons.inj (Option.some.inj hdecoded)
  obtain ⟨hrecord, -⟩ := List.cons.inj hcut
  obtain ⟨-, hfields⟩ := TeeRecord.extra.inj hrecord
  simp only [List.map_cons, List.map_nil, argument, List.cons.injEq, TeeField.string.injEq] at hfields
  exact hpart hfields.2.2.1

end CTeeHistorian

end DDNet
