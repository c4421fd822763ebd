/-
The teehistorian (`CTeeHistorian`, `game/server/teehistorian.cpp`).

The file is what is written after the header, record by record; `fileBytes` are its bytes.  A tick is not written
if it can be inferred from the order of the client ids.  An assertion that fails ends the run.

The members `events` and `ended` are not in the source: they say what has been recorded at which tick, and which
players were alive when a tick ended.
-/
import Mathlib.Data.Vector.Basic
import DDNet.Server.Authed
import DDNet.Server.TeeRecords

namespace DDNet

open Packing

/-- `CNetObj_PlayerInput`. -/
abbrev CNetObjPlayerInput := Fin 10 → BitVec 32

/-- `CTeehistorianPlayer`. -/
structure CTeehistorianPlayer where
  alive : Bool
  x : BitVec 32
  y : BitVec 32
  input : CNetObjPlayerInput
  /-- Zero means no id. -/
  uniqueClientId : BitVec 32
  team : BitVec 32

/-- The states of the teehistorian. -/
inductive TeeState where
  | start
  | beforeTick
  | beforePlayers
  | players
  | beforeInputs
  | inputs
  | beforeEndTick
deriving DecidableEq

/-- What a record tells. -/
inductive TeeEvent where
  | player (clientId : ℕ) (x y : BitVec 32)
  | dead (clientId : ℕ)
  | input (clientId : ℕ) (input : CNetObjPlayerInput)
  | other

/-- The positions of the players that are alive. -/
abbrev Positions := ℕ → Option (BitVec 32 × BitVec 32)

structure CTeeHistorian where
  state : TeeState
  lastWrittenTick : ℤ
  tickWritten : Bool
  tick : ℤ
  prevMaxClientId : ℤ
  maxClientId : ℤ
  prevPlayers : ClientId → CTeehistorianPlayer
  prevTeams : ClientId → Bool
  file : List TeeEntry
  events : List (ℤ × TeeEvent)
  ended : List (ℤ × Positions)

/-- The records that are written as they are, by the functions that write them. -/
inductive TeeRecordCall where
  | recordPlayerMessage (clientId : BitVec 32) (msg : List UInt8)
  | recordPlayerJoin (clientId : BitVec 32) (protocol7 : Bool)
  | recordPlayerRejoin (clientId : BitVec 32)
  | recordPlayerReady (clientId : BitVec 32)
  | recordPlayerDrop (clientId : BitVec 32) (reason : CStr)
  | recordPlayerName (clientId : BitVec 32) (name : CStr)
  | recordConsoleCommand (clientId flagMask : BitVec 32) (cmd : CStr) (args : List CStr)
  | recordTestExtra
  | recordPlayerSwap (clientId1 clientId2 : BitVec 32)
  | recordTeamSaveSuccess (team : BitVec 32) (saveId : List.Vector UInt8 16) (teamSave : CStr)
  | recordTeamSaveFailure (team : BitVec 32)
  | recordTeamLoadSuccess (team : BitVec 32) (saveId : List.Vector UInt8 16) (teamSave : CStr)
  | recordTeamLoadFailure (team : BitVec 32)
  | recordDDNetVersionOld (clientId ddnetVersion : BitVec 32)
  | recordDDNetVersion (clientId : BitVec 32) (connectionId : List.Vector UInt8 16) (ddnetVersion : BitVec 32)
      (ddnetVersionStr : CStr)
  | recordAuthInitial (clientId level : BitVec 32) (authName : CStr)
  | recordAuthLogin (clientId level : BitVec 32) (authName : CStr)
  | recordAuthLogout (clientId : BitVec 32)
  | recordAntibot (data : List UInt8)
  | recordPlayerFinish (clientId timeTicks : BitVec 32)
  | recordTeamFinish (teamId timeTicks : BitVec 32)

/-- What the functions write, after the tick. -/
def TeeRecordCall.entries : TeeRecordCall → List TeeEntry
  | .recordPlayerMessage clientId msg =>
      [.plain [.int teehistorianMessage, .int clientId, .int (BitVec.ofNat 32 msg.length), .raw msg]]
  | .recordPlayerJoin clientId protocol7 =>
      [.extra (if protocol7 then .joinver7 else .joinver6) [.int clientId],
        .plain [.int teehistorianJoin, .int clientId]]
  | .recordPlayerRejoin clientId => [.extra .playerRejoin [.int clientId]]
  | .recordPlayerReady clientId => [.extra .playerReady [.int clientId]]
  | .recordPlayerDrop clientId reason => [.plain [.int teehistorianDrop, .int clientId, .string reason 0]]
  | .recordPlayerName clientId name => [.extra .playerName [.int clientId, .string name 0]]
  | .recordConsoleCommand clientId flagMask cmd args =>
      [.plain ([.int teehistorianConsoleCommand, .int clientId, .int flagMask, .string cmd 0] ++
        .int (BitVec.ofNat 32 args.length) :: args.map fun arg => .string arg 0)]
  | .recordTestExtra => [.extra .test []]
  | .recordPlayerSwap clientId1 clientId2 => [.extra .playerSwitch [.int clientId1, .int clientId2]]
  | .recordTeamSaveSuccess team saveId teamSave =>
      [.extra .saveSuccess [.int team, .raw saveId.1, .string teamSave 0]]
  | .recordTeamSaveFailure team => [.extra .saveFailure [.int team]]
  | .recordTeamLoadSuccess team saveId teamSave =>
      [.extra .loadSuccess [.int team, .raw saveId.1, .string teamSave 0]]
  | .recordTeamLoadFailure team => [.extra .loadFailure [.int team]]
  | .recordDDNetVersionOld clientId ddnetVersion => [.extra .ddnetverOld [.int clientId, .int ddnetVersion]]
  | .recordDDNetVersion clientId connectionId ddnetVersion ddnetVersionStr =>
      [.extra .ddnetver [.int clientId, .raw connectionId.1, .int ddnetVersion, .string ddnetVersionStr 0]]
  | .recordAuthInitial clientId level authName => [.extra .authInit [.int clientId, .int level, .string authName 0]]
  | .recordAuthLogin clientId level authName => [.extra .authLogin [.int clientId, .int level, .string authName 0]]
  | .recordAuthLogout clientId => [.extra .authLogout [.int clientId]]
  | .recordAntibot data => [.antibot data]
  | .recordPlayerFinish clientId timeTicks => [.extra .playerFinish [.int clientId, .int timeTicks]]
  | .recordTeamFinish teamId timeTicks => [.extra .teamFinish [.int teamId, .int timeTicks]]

/-- The calls of a teehistorian. -/
inductive TeeCall where
  | beginTick (tick : ℤ)
  | beginPlayers
  | recordPlayer (clientId : ClientId) (x y : BitVec 32)
  | recordDeadPlayer (clientId : ClientId)
  | endPlayers
  | beginInputs
  | recordPlayerInput (clientId : ClientId) (uniqueClientId : BitVec 32) (input : CNetObjPlayerInput)
  | endInputs
  | endTick
  | recordPlayerTeam (clientId : ClientId) (team : BitVec 32)
  | recordTeamPractice (team : ClientId) (practice : Bool)
  | record (call : TeeRecordCall)

namespace CTeeHistorian

/-- `Reset`; positions and inputs are left as they are. -/
def reset (players : ClientId → CTeehistorianPlayer) : CTeeHistorian where
  state := .start
  lastWrittenTick := 0
  -- Tick 0 is implicit at the start, game starts as tick 1.
  tickWritten := true
  tick := 0
  prevMaxClientId := 0
  maxClientId := maxClients
  prevPlayers clientId := { players clientId with alive := false, uniqueClientId := 0, team := 0 }
  prevTeams _ := false
  file := []
  events := []
  ended := []

/-- The players that are alive. -/
def positions (th : CTeeHistorian) : Positions := fun clientId =>
  if h : clientId < maxClients then
    let player := th.prevPlayers ⟨clientId, h⟩
    if player.alive then some (player.x, player.y) else none
  else
    none

/-- `Write` of a packer. -/
def write (ops : List PackOp) (th : CTeeHistorian) : CTeeHistorian :=
  { th with file := th.file ++ [.plain ops] }

/-- What is recorded at the tick. -/
def note (event : TeeEvent) (th : CTeeHistorian) : CTeeHistorian :=
  { th with events := th.events ++ [(th.tick, event)] }

def setPlayer (clientId : ClientId) (player : CTeehistorianPlayer) (th : CTeeHistorian) : CTeeHistorian :=
  { th with prevPlayers := Function.update th.prevPlayers clientId player }

def writeTick (th : CTeeHistorian) : CTeeHistorian :=
  let dt := th.tick - th.lastWrittenTick - 1
  { th.write [.int teehistorianTickSkip, .int (BitVec.ofInt 32 dt)] with
    tickWritten := true
    lastWrittenTick := th.tick }

def ensureTickWritten (th : CTeeHistorian) : CTeeHistorian :=
  if th.tickWritten then th else th.writeTick

def beginTick (tick : ℤ) (th : CTeeHistorian) : Option CTeeHistorian :=
  if th.state = .start ∨ th.state = .beforeTick then
    some { th with tick := tick, tickWritten := false, state := .beforePlayers }
  else
    none

def beginPlayers (th : CTeeHistorian) : Option CTeeHistorian :=
  if th.state = .beforePlayers then
    -- ensure that PLAYER_{DIFF, NEW, OLD} don't cause an implicit tick after a TICK_SKIP
    -- by not overwriting m_MaxClientId during RecordPlayer
    some { th with prevMaxClientId := th.maxClientId, maxClientId := -1, state := .players }
  else
    none

def ensureTickWrittenPlayerData (clientId : ClientId) (th : CTeeHistorian) : Option CTeeHistorian :=
  if th.maxClientId < (clientId.val : ℤ) then
    let th := { th with maxClientId := clientId.val }
    if ¬ th.tickWritten ∧ (th.prevMaxClientId < (clientId.val : ℤ) ∨ th.lastWrittenTick + 1 ≠ th.tick) then
      some th.writeTick
    else
      -- Tick is implicit.
      some { th with lastWrittenTick := th.tick, tickWritten := true }
  else
    none

/-- The client id, as it is packed. -/
def packedId (clientId : ClientId) : PackOp := .int (BitVec.ofNat 32 clientId.val)

def recordPlayer (clientId : ClientId) (x y : BitVec 32) (th : CTeeHistorian) : Option CTeeHistorian :=
  if th.state = .players then
    let prev := th.prevPlayers clientId
    (if ¬ prev.alive ∨ prev.x ≠ x ∨ prev.y ≠ y then
      (th.ensureTickWrittenPlayerData clientId).map fun th =>
        (if prev.alive then th.write [packedId clientId, .int (x - prev.x), .int (y - prev.y)]
        else th.write [.int teehistorianPlayerNew, packedId clientId, .int x, .int y]).note (.player clientId x y)
    else
      some th).map fun th => th.setPlayer clientId { prev with x := x, y := y, alive := true }
  else
    none

def recordDeadPlayer (clientId : ClientId) (th : CTeeHistorian) : Option CTeeHistorian :=
  if th.state = .players then
    let prev := th.prevPlayers clientId
    (if prev.alive then
      (th.ensureTickWrittenPlayerData clientId).map fun th =>
        (th.write [.int teehistorianPlayerOld, packedId clientId]).note (.dead clientId)
    else
      some th).map fun th => th.setPlayer clientId { prev with alive := false }
  else
    none

def endPlayers (th : CTeeHistorian) : Option CTeeHistorian :=
  if th.state = .players then
    some { th with state := .beforeInputs, ended := th.ended ++ [(th.tick, th.positions)] }
  else
    none

def beginInputs (th : CTeeHistorian) : Option CTeeHistorian :=
  if th.state = .beforeInputs then some { th with state := .inputs } else none

/-- The ints of an input, as they are packed. -/
def packedInput (input : CNetObjPlayerInput) : List PackOp := (List.ofFn input).map .int

def recordPlayerInput (clientId : ClientId) (uniqueClientId : BitVec 32) (input : CNetObjPlayerInput)
    (th : CTeeHistorian) : CTeeHistorian :=
  let prev := th.prevPlayers clientId
  if prev.uniqueClientId = uniqueClientId ∧ prev.input = input then th
  else
    let ops :=
      if prev.uniqueClientId = uniqueClientId then
        .int teehistorianInputDiff :: packedId clientId :: packedInput fun i => input i - prev.input i
      else
        .int teehistorianInputNew :: packedId clientId :: packedInput input
    ((th.ensureTickWritten.setPlayer clientId { prev with uniqueClientId := uniqueClientId, input := input }).write
      ops).note (.input clientId input)

def endInputs (th : CTeeHistorian) : Option CTeeHistorian :=
  if th.state = .inputs then some { th with state := .beforeEndTick } else none

def endTick (th : CTeeHistorian) : Option CTeeHistorian :=
  if th.state = .beforeEndTick then some { th with state := .beforeTick } else none

/-- A record that is written as it is. -/
def writeEntry (th : CTeeHistorian) (entry : TeeEntry) : CTeeHistorian :=
  { th with file := th.file ++ [entry], events := th.events ++ [(th.tick, .other)] }

def recordPlayerTeam (clientId : ClientId) (team : BitVec 32) (th : CTeeHistorian) : CTeeHistorian :=
  if (th.prevPlayers clientId).team ≠ team then
    ((th.setPlayer clientId { th.prevPlayers clientId with team := team }).ensureTickWritten).writeEntry
      (.extra .playerTeam [packedId clientId, .int team])
  else
    th

def recordTeamPractice (team : ClientId) (practice : Bool) (th : CTeeHistorian) : CTeeHistorian :=
  if th.prevTeams team ≠ practice then
    ({ th with prevTeams := Function.update th.prevTeams team practice }.ensureTickWritten).writeEntry
      (.extra .teamPractice [packedId team, .int (if practice then 1 else 0)])
  else
    th

def record (call : TeeRecordCall) (th : CTeeHistorian) : CTeeHistorian :=
  call.entries.foldl writeEntry th.ensureTickWritten

/-- A call; `none` if an assertion fails. -/
def step (th : CTeeHistorian) : TeeCall → Option CTeeHistorian
  | .beginTick tick => th.beginTick tick
  | .beginPlayers => th.beginPlayers
  | .recordPlayer clientId x y => th.recordPlayer clientId x y
  | .recordDeadPlayer clientId => th.recordDeadPlayer clientId
  | .endPlayers => th.endPlayers
  | .beginInputs => th.beginInputs
  | .recordPlayerInput clientId uniqueClientId input => some (th.recordPlayerInput clientId uniqueClientId input)
  | .endInputs => th.endInputs
  | .endTick => th.endTick
  | .recordPlayerTeam clientId team => some (th.recordPlayerTeam clientId team)
  | .recordTeamPractice team practice => some (th.recordTeamPractice team practice)
  | .record call => some (th.record call)

/-- A run. -/
def run (th : CTeeHistorian) : List TeeCall → Option CTeeHistorian
  | [] => some th
  | call :: calls => (th.step call).bind fun th => th.run calls

/-- The bytes of the file. -/
def bytes (th : CTeeHistorian) : Option (List UInt8) := fileBytes th.file

end CTeeHistorian

end DDNet
