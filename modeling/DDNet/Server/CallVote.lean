/-
Calling a vote (`CGameContext::OnCallVoteNetMessage`, `game/server/gamecontext.cpp`).

A client of an old version sees at most sixteen players under ids of its own, which `IServer::ReverseTranslate`
(`engine/server.h`) turns into those of the server.  Some of the checks on the victim of a kick or spectate vote are
made on the id before it is translated; the vote hits a permitted victim if and only if the victim passes these checks
as well (`hitsPermitted_iff`).
-/
import DDNet.Base.NetAddr
import DDNet.Base.Str
import DDNet.Base.StrParse
import DDNet.Lib.Json
import DDNet.Server.NetServer
import DDNet.Server.VoteCount
import Mathlib

namespace DDNet

namespace CGameContext

open Lib.Json (integer)

/-! ### The data -/

/-- What calling a vote reads and writes of a player. -/
structure CallPlayer where
  team : ℤ
  hasCharacter : Bool
  vote : ℤ
  votePos : ℤ

/-- When the player has voted and may vote. -/
structure VoteTimes where
  lastVoteTry : ℤ
  lastVoteCall : ℤ
  firstVoteTick : ℤ
  lastKickVote : ℤ

/-- What the server knows of a client: what `ClientName`, `GetAuthedState`, `IsSixup`, `GetClientVersion`, `GetIdMap`
and `GetClientAddr` give, its team and what is known of its address. -/
structure CallClient (n : ℕ) where
  name : List UInt8
  authed : ℤ
  sixup : Bool
  version : ℤ
  idMap : Fin 16 → Option (Fin n)
  addr : NETADDR
  addrStr : List UInt8
  ddraceTeam : ℤ
  dnsblPending : Bool
  dnsblBlack : Bool

structure VoteOption where
  description : List UInt8
  command : List UInt8

/-- `CMute`: an address and the tick at which it may vote again. -/
structure VoteMute where
  addr : NETADDR
  expire : ℤ

structure CallVoteConfig where
  svRconVote : Bool
  svDnsblVote : Bool
  svSpamprotection : Bool
  svVoteDelay : ℤ
  svVoteMapTimeDelay : ℤ
  svVoteKick : Bool
  svVoteKickDelay : ℤ
  svVoteKickMin : ℤ
  svVoteKickBantime : ℤ
  svVoteSpectate : Bool
  svVoteSpectateRejoindelay : ℤ
  svPauseable : Bool
  svVotePause : Bool
  svVotePauseTime : ℤ
  svVoteTime : ℤ

/-- What calling a vote reads and writes; no creator is `-1` in the source. -/
structure CallVoteContext (n : ℕ) where
  config : CallVoteConfig
  players : Fin n → Option CallPlayer
  voteTimes : Fin n → VoteTimes
  clients : Fin n → CallClient n
  distinctClientCount : ℕ
  voteMutes : List VoteMute
  mutes : List VoteMute
  voteOptions : List VoteOption
  lineIsValid : List UInt8 → Bool
  tick : ℤ
  tickSpeed : ℤ
  now : ℤ
  freq : ℤ
  lastMapVote : ℤ
  voteCloseTime : ℤ
  voteType : VoteType
  voteVictim : Option (Fin n)
  voteCreator : Option (Fin n)
  votePos : ℤ
  voteCommand : List UInt8
  voteDescription : List UInt8
  sixupVoteDescription : List UInt8
  voteReason : List UInt8

/-- `CNetMsg_Cl_CallVote`. -/
structure MsgCallVote where
  type : List UInt8
  value : List UInt8
  reason : List UInt8

/-- What is sent: a chat message to a client or to all, or the vote that has been set. -/
inductive VoteEvent (n : ℕ)
  | chatTarget (client : Fin n) (text : List UInt8)
  | chat (text : List UInt8)
  | voteSet

/-- `VOTE_DESC_LENGTH`. -/
def voteDescLength : ℕ := 64

/-- `VOTE_CMD_LENGTH`. -/
def voteCmdLength : ℕ := 512

/-- `VOTE_REASON_LENGTH`. -/
def voteReasonLength : ℕ := 16

/-- `VERSION_DDNET_OLD`. -/
def versionDDNetOld : ℤ := 2

/-- `AUTHED_ADMIN`. -/
def authedAdmin : ℤ := 3

def ofString (s : String) : List UInt8 := ofChars s.toList

namespace CallVoteContext

variable {n : ℕ} (this : CallVoteContext n)

/-! ### Who may call a vote -/

/-- The seconds for which the address is muted: of the first of the vote mutes that is not yet over, else of such a
mute. -/
def voteMuted (clientId : Fin n) : ℤ :=
  let left (muted : ℤ) (mute : VoteMute) : ℤ :=
    if muted = 0 ∧ netAddrCompNoport (this.clients clientId).addr mute.addr then
      (mute.expire - this.tick).tdiv this.tickSpeed
    else muted
  this.mutes.foldl left (this.voteMutes.foldl left 0)

/-- `RateLimitPlayerVote`. -/
def rateLimitPlayerVote (clientId : Fin n) : Bool × CallVoteContext n × List (VoteEvent n) :=
  let client := this.clients clientId
  let times := this.voteTimes clientId
  if this.config.svRconVote ∧ client.authed = 0 then
    (true, this, [.chatTarget clientId (ofString "You can only vote after logging in.")])
  else if this.config.svDnsblVote ∧ 1 < this.distinctClientCount ∧ client.dnsblPending then
    (true, this, [.chatTarget clientId (ofString ("You are not allowed to vote because we're currently checking for " ++
      "VPNs. Try again in ~30 seconds."))])
  else if this.config.svDnsblVote ∧ 1 < this.distinctClientCount ∧ client.dnsblBlack then
    (true, this, [.chatTarget clientId (ofString ("You are not allowed to vote because you appear to be using a VPN. "
      ++ "Try connecting without a VPN or contacting an admin if you think this is a mistake."))])
  else if this.config.svSpamprotection ∧ times.lastVoteTry ≠ 0 ∧ this.tick < times.lastVoteTry + this.tickSpeed * 3 then
    (true, this, [])
  else
    let tried := { times with lastVoteTry := this.tick }
    let this := { this with voteTimes := Function.update this.voteTimes clientId tried }
    let timeLeft := times.lastVoteCall + this.tickSpeed * this.config.svVoteDelay - this.tick
    if this.voteCloseTime ≠ 0 then
      (true, this, [.chatTarget clientId (ofString "Wait for current vote to end before calling a new one.")])
    else if this.tick < times.firstVoteTick then
      (true, this, [.chatTarget clientId (ofString "You must wait " ++
        integer ((times.firstVoteTick - this.tick).tdiv this.tickSpeed + 1) ++
        ofString " seconds before making your first vote.")])
    else if times.lastVoteCall ≠ 0 ∧ 0 < timeLeft then
      (true, this, [.chatTarget clientId (ofString "You must wait " ++ integer (timeLeft.tdiv this.tickSpeed + 1) ++
        ofString " seconds before making another vote.")])
    else if 0 < this.voteMuted clientId then
      (true, this, [.chatTarget clientId (ofString "You are not permitted to vote for the next " ++
        integer (this.voteMuted clientId) ++ ofString " seconds.")])
    else (false, this, [])

/-- The text of `RateLimitPlayerMapVote`, if it refuses the vote. -/
def rateLimitPlayerMapVote (clientId : Fin n) : Option (List UInt8) :=
  if (this.clients clientId).authed = 0 ∧ this.now < this.lastMapVote + this.freq * this.config.svVoteMapTimeDelay then
    some (ofString "There's a " ++ integer this.config.svVoteMapTimeDelay ++
      ofString " second delay between map-votes, please wait " ++
      integer ((this.lastMapVote + this.config.svVoteMapTimeDelay * this.freq - this.now).tdiv this.freq) ++
      ofString " seconds.")
  else none

/-! ### The ids of players -/

/-- The client has a slot with this id, and there is a player in it. -/
def playerId (id : ℤ) : Option (Fin n) :=
  if h : id.toNat < n ∧ 0 ≤ id then
    if (this.players ⟨id.toNat, h.1⟩).isSome then some ⟨id.toNat, h.1⟩ else none
  else none

/-- `ReverseTranslate`, for an id in the range of the server's ids. -/
def reverseTranslate (target client : Fin n) : Option (Fin n) :=
  if (this.clients client).sixup then some target
  else if versionDDNetOld ≤ (this.clients client).version then some target
  else (this.clients client).idMap ⟨min target 15, by omega⟩

/-- `GetPlayerChar` gives a character. -/
def hasCharacter (id : Fin n) : Bool := (this.players id).any CallPlayer.hasCharacter

/-- The player is among the spectators. -/
def spectator (id : Fin n) : Bool := (this.players id).any fun player => player.team = teamSpectators

def authed (id : Fin n) : ℤ := (this.clients id).authed

def clientName (id : Fin n) : List UInt8 := (this.clients id).name

def ddraceTeam (id : Fin n) : ℤ := (this.clients id).ddraceTeam

/-- Both have characters, in the same team. -/
def sameTeam (clientId id : Fin n) : Bool :=
  this.hasCharacter clientId && this.hasCharacter id && this.ddraceTeam clientId = this.ddraceTeam id

/-! ### The kinds of votes -/

/-- What a message asks for, with texts that are not yet cut to the sizes of their buffers. -/
structure VoteCall (n : ℕ) where
  chatmsg : List UInt8
  desc : List UInt8
  sixupDesc : List UInt8
  cmd : List UInt8
  voteType : VoteType
  victim : Option (Fin n)
  isOption : Bool

/-- A player among those who count for the smallest number of players. -/
def kickMinPlayer (i : Fin n) : Bool :=
  (this.players i).any (fun player => player.team ≠ teamSpectators) && this.ddraceTeam i = 0

/-- The number of IPs of these players. -/
def kickMinPlayers : ℕ :=
  (List.finRange n).countP fun i =>
    this.kickMinPlayer i && !(List.finRange n).any fun j =>
      j < i && this.kickMinPlayer j && (this.clients j).addrStr = (this.clients i).addrStr

/-- `str_find` finds something. -/
def strFind (haystack needle : List UInt8) : Bool := haystack.tails.any fun rest => needle.isPrefixOf rest

/-- `str_endswith`. -/
def strEndswith (str suffix : List UInt8) : Bool := suffix.isSuffixOf str

/-- The part of `OnCallVoteNetMessage` for options; a refused message leads to chat messages only. -/
def callOptionVote (clientId : Fin n) (value reason : List UInt8) : Except (List (VoteEvent n)) (VoteCall n) :=
  match this.voteOptions.find? fun option => strCompNocase value option.description = .eq with
  | some option =>
    if !this.lineIsValid option.command then .error [.chatTarget clientId (ofString "Invalid option")]
    else
      let isMap := strFind option.command (ofString "sv_map ") || strFind option.command (ofString "change_map ") ||
        strFind option.command (ofString "random_map") || strFind option.command (ofString "random_unfinished_map")
      match if isMap then this.rateLimitPlayerMapVote clientId else none with
      | some text => .error [.chatTarget clientId text]
      | none =>
        let isRandom := strEndswith option.command (ofString "random_map") ||
          strEndswith option.command (ofString "random_unfinished_map")
        let stars := reason.length = 1 ∧ ∃ c ∈ reason, 48 ≤ c ∧ c ≤ 53
        .ok {
          chatmsg := ofString "'" ++ this.clientName clientId ++ ofString "' called vote to change server option '" ++
            option.description ++ ofString "' (" ++ reason ++ ofString ")"
          desc := option.description
          sixupDesc := []
          cmd := if isRandom && stars then option.command ++ ofString " " ++ reason else option.command
          voteType := .option
          victim := none
          isOption := true }
  | none =>
    if this.authed clientId ≠ authedAdmin then
      .error [.chatTarget clientId (ofString "'" ++ value ++ ofString "' isn't an option on this server")]
    else
      .ok {
        chatmsg := ofString "'" ++ this.clientName clientId ++ ofString "' called vote to change server option '" ++
          value ++ ofString "'"
        desc := value
        sixupDesc := []
        cmd := value
        voteType := .option
        victim := none
        isOption := false }

/-- The command of a kick vote. -/
def kickCommand (clientId victim : Fin n) : List UInt8 :=
  if this.ddraceTeam clientId = 0 then
    if this.config.svVoteKickBantime = 0 then
      ofString "kick " ++ integer victim ++ ofString " Kicked by vote"
    else
      ofString "ban " ++ (this.clients victim).addrStr ++ ofString " " ++ integer this.config.svVoteKickBantime ++
        ofString " Banned by vote"
  else
    ofString "uninvite " ++ integer victim ++ ofString " " ++ integer (this.ddraceTeam victim) ++
      ofString "; set_team_ddr " ++ integer victim ++ ofString " 0"

/-- `%2d: %s`, the description of a vote on a player for clients of the other protocol. -/
def sixupDescription (victim : Fin n) : List UInt8 :=
  (if (victim : ℕ) < 10 then ofString " " else []) ++ integer victim ++ ofString ": " ++ this.clientName victim

/-- The texts and the victim of a kick vote. -/
def kickVoteCall (clientId victim : Fin n) (reason : List UInt8) : VoteCall n where
  chatmsg := ofString "'" ++ this.clientName clientId ++ ofString "' called for vote to kick '" ++
    this.clientName victim ++ ofString "' (" ++ reason ++ ofString ")"
  desc :=
    if this.ddraceTeam clientId = 0 then
      if this.config.svVoteKickBantime = 0 then ofString "Kick '" ++ this.clientName victim ++ ofString "'"
      else ofString "Ban '" ++ this.clientName victim ++ ofString "'"
    else ofString "Move '" ++ this.clientName victim ++ ofString "' to team 0"
  sixupDesc := this.sixupDescription victim
  cmd := this.kickCommand clientId victim
  voteType := .kick
  victim := some victim
  isOption := false

/-- The part for kick votes. -/
def callKickVote (clientId : Fin n) (value reason : List UInt8) : Except (List (VoteEvent n)) (VoteCall n) :=
  let authed := this.authed clientId
  let delay := (this.voteTimes clientId).lastKickVote + this.freq * this.config.svVoteKickDelay
  if !this.config.svVoteKick ∧ authed = 0 then
    .error [.chatTarget clientId (ofString "Server does not allow voting to kick players")]
  else if authed = 0 ∧ this.now < delay then
    .error [.chatTarget clientId (ofString "There's a " ++ integer this.config.svVoteKickDelay ++
      ofString " second wait time between kick votes for each player please wait " ++
      integer ((delay - this.now).tdiv this.freq) ++ ofString " second(s)")]
  else if this.config.svVoteKickMin ≠ 0 ∧ this.ddraceTeam clientId = 0 ∧
      this.kickMinPlayers < this.config.svVoteKickMin then
    .error [.chatTarget clientId (ofString "Kick voting requires " ++ integer this.config.svVoteKickMin ++
      ofString " players")]
  else
    match this.playerId (strToint value) with
    | none => .error [.chatTarget clientId (ofString "Invalid client id to kick")]
    | some kickId =>
      if kickId = clientId then .error [.chatTarget clientId (ofString "You can't kick yourself")]
      else
        match this.reverseTranslate kickId clientId with
        | none => .error []
        | some kickId =>
          if authed < this.authed kickId then
            .error [.chatTarget clientId (ofString "You can't kick authorized players"),
              .chatTarget kickId (ofString "'" ++ this.clientName clientId ++
                ofString "' called for vote to kick you")]
          else if !this.sameTeam clientId kickId then
            .error [.chatTarget clientId (ofString "You can kick only your team member")]
          else
            .ok (this.kickVoteCall clientId kickId reason)

/-- The command of a spectate vote. -/
def spectateCommand (victim : Fin n) : List UInt8 :=
  ofString "uninvite " ++ integer victim ++ ofString " " ++ integer (this.ddraceTeam victim) ++
    if this.config.svPauseable && this.config.svVotePause then
      ofString "; force_pause " ++ integer victim ++ ofString " " ++ integer this.config.svVotePauseTime
    else
      ofString "; set_team " ++ integer victim ++ ofString " -1 " ++ integer this.config.svVoteSpectateRejoindelay

/-- The texts and the victim of a spectate vote. -/
def spectateVoteCall (clientId victim : Fin n) (reason : List UInt8) : VoteCall n :=
  let caller := ofString "'" ++ this.clientName clientId ++ ofString "' called for vote to "
  let name := ofString "'" ++ this.clientName victim ++ ofString "'"
  let pause := this.config.svPauseable && this.config.svVotePause
  { chatmsg :=
      if pause then
        caller ++ ofString "pause " ++ name ++ ofString " for " ++ integer this.config.svVotePauseTime ++
          ofString " seconds (" ++ reason ++ ofString ")"
      else caller ++ ofString "move " ++ name ++ ofString " to spectators (" ++ reason ++ ofString ")"
    desc :=
      if pause then ofString "Pause " ++ name ++ ofString " (" ++ integer this.config.svVotePauseTime ++ ofString "s)"
      else ofString "Move " ++ name ++ ofString " to spectators"
    sixupDesc := this.sixupDescription victim
    cmd := this.spectateCommand victim
    voteType := .spectate
    victim := some victim
    isOption := false }

/-- The part for spectate votes. -/
def callSpectateVote (clientId : Fin n) (value reason : List UInt8) : Except (List (VoteEvent n)) (VoteCall n) :=
  let authed := this.authed clientId
  if !this.config.svVoteSpectate then
    .error [.chatTarget clientId (ofString "Server does not allow voting to move players to spectators")]
  else
    match this.playerId (strToint value) with
    | none => .error [.chatTarget clientId (ofString "Invalid client id to move to spectators")]
    | some spectateId =>
      if this.spectator spectateId then
        .error [.chatTarget clientId (ofString "Invalid client id to move to spectators")]
      else if spectateId = clientId then
        .error [.chatTarget clientId (ofString "You can't move yourself to spectators")]
      else if authed < this.authed spectateId then
        .error [.chatTarget clientId (ofString "You can't move authorized players to spectators"),
          .chatTarget spectateId (ofString "'" ++ this.clientName clientId ++
            ofString "' called for vote to move you to spectators")]
      else
        match this.reverseTranslate spectateId clientId with
        | none => .error []
        | some spectateId =>
          if !this.sameTeam clientId spectateId then
            .error [.chatTarget clientId (ofString "You can only move your team member to spectators")]
          else
            .ok (this.spectateVoteCall clientId spectateId reason)

/-! ### Calling a vote -/

/-- `StartVote`. -/
def startVote (desc command reason sixupDesc : List UInt8) : CallVoteContext n :=
  { this with
    players := fun i => (this.players i).map fun player => { player with vote := 0, votePos := 0 }
    voteCloseTime := this.now + this.freq * this.config.svVoteTime
    voteDescription := strCopy voteDescLength desc
    sixupVoteDescription := strCopy voteDescLength sixupDesc
    voteCommand := strCopy voteCmdLength command
    voteReason := strCopy voteReasonLength reason }

/-- `CallVote`. -/
def callVote (clientId : Fin n) (desc cmd reason chatmsg sixupDesc : List UInt8) :
    CallVoteContext n × List (VoteEvent n) :=
  if this.voteCloseTime ≠ 0 ∨ (this.players clientId).isNone then (this, [])
  else
    let this := { this with voteCreator := some clientId }.startVote desc cmd reason sixupDesc
    let players := Function.update this.players clientId
      ((this.players clientId).map fun player => { player with vote := 1, votePos := 1 })
    let times := { this.voteTimes clientId with lastVoteCall := this.tick }
    ({ this with
        players := players
        voteTimes := Function.update this.voteTimes clientId times
        votePos := 1 },
      [.chat chatmsg, .voteSet])

/-- The kind that the text of a message names. -/
def voteKind (type : List UInt8) : VoteType :=
  if strCompNocase type (ofString "option") = .eq then .option
  else if strCompNocase type (ofString "kick") = .eq then .kick
  else if strCompNocase type (ofString "spectate") = .eq then .spectate
  else .unknown

/-- The part for the kind of the message; the kind stays unknown and the command empty for any other text. -/
def requestedVote (clientId : Fin n) (msg : MsgCallVote) (reason : List UInt8) :
    Except (List (VoteEvent n)) (VoteCall n) :=
  match voteKind msg.type with
  | .option => this.callOptionVote clientId msg.value reason
  | .kick => this.callKickVote clientId msg.value reason
  | .spectate => this.callSpectateVote clientId msg.value reason
  | .unknown => .ok ⟨[], [], [], [], .unknown, none, false⟩

/-- `OnCallVoteNetMessage`. -/
def onCallVoteNetMessage (msg : MsgCallVote) (clientId : Fin n) : CallVoteContext n × List (VoteEvent n) :=
  let (limited, this, events) := this.rateLimitPlayerVote clientId
  if limited ∨ this.voteCloseTime ≠ 0 then (this, events)
  else
    let this := { this with voteType := .unknown }
    let reason := strCopy voteReasonLength (if msg.reason = [] then ofString "No reason given" else msg.reason)
    match this.requestedVote clientId msg reason with
    | .error events => (this, events)
    | .ok call =>
      let times := this.voteTimes clientId
      let this := { this with
        voteType := call.voteType
        voteVictim := if call.victim.isSome then call.victim else this.voteVictim
        lastMapVote := if call.isOption then this.now else this.lastMapVote
        voteTimes := Function.update this.voteTimes clientId
          (if call.voteType = .kick then { times with lastKickVote := this.now } else times) }
      let cmd := strCopy voteCmdLength call.cmd
      if cmd ≠ [] ∧ strCompNocase cmd (ofString "info") ≠ .eq then
        this.callVote clientId (strCopy voteDescLength call.desc) cmd reason (strCopy 512 call.chatmsg)
          (strCopy voteDescLength (if call.sixupDesc = [] then call.desc else call.sixupDesc))
      else (this, [])

/-! ### Permitted victims -/

/-- A command in `aCmd`, and then in `m_aVoteCommand`. -/
def commandBuffer (text : List UInt8) : List UInt8 := strCopy voteCmdLength (strCopy voteCmdLength text)

/-- The command of a vote on a player. -/
def victimCommand (kind : VoteType) (clientId victim : Fin n) : List UInt8 :=
  if kind = .kick then this.kickCommand clientId victim else this.spectateCommand victim

/-- Who may be the victim of a vote that the client calls. -/
def Permitted (kind : VoteType) (clientId victim : Fin n) : Prop :=
  (this.players victim).isSome = true ∧ victim ≠ clientId ∧ this.authed victim ≤ this.authed clientId ∧
    this.sameTeam clientId victim = true ∧ (kind = .spectate → this.spectator victim = false)

/-- If the message starts a vote, then with the command for a permitted victim; if not, what is kept of the last vote
stays as it is. -/
def HitsPermitted (msg : MsgCallVote) (clientId : Fin n) : Prop :=
  let (after, events) := this.onCallVoteNetMessage msg clientId
  (.voteSet ∈ events → ∃ victim, this.Permitted (voteKind msg.type) clientId victim ∧
    after.voteVictim = some victim ∧ after.voteCreator = some clientId ∧
    after.voteCommand = commandBuffer (this.victimCommand (voteKind msg.type) clientId victim)) ∧
  (.voteSet ∉ events →
    after.voteVictim = this.voteVictim ∧ after.voteCreator = this.voteCreator ∧ after.voteCommand = this.voteCommand)

/-- The checks of a kick vote on the id in the message and on the id into which it is translated. -/
def KickCalled (clientId id victim : Fin n) : Prop :=
  (this.config.svVoteKick = true ∨ this.authed clientId ≠ 0) ∧
    (this.authed clientId = 0 →
      (this.voteTimes clientId).lastKickVote + this.freq * this.config.svVoteKickDelay ≤ this.now) ∧
    (this.config.svVoteKickMin ≠ 0 → this.ddraceTeam clientId = 0 →
      this.config.svVoteKickMin ≤ this.kickMinPlayers) ∧
    id ≠ clientId ∧ this.authed victim ≤ this.authed clientId ∧ this.sameTeam clientId victim = true

/-- Those of a spectate vote. -/
def SpectateCalled (clientId id victim : Fin n) : Prop :=
  this.config.svVoteSpectate = true ∧ this.spectator id = false ∧ id ≠ clientId ∧
    this.authed id ≤ this.authed clientId ∧ this.sameTeam clientId victim = true

/-- The message passes all checks for a vote on the victim. -/
def Called (msg : MsgCallVote) (clientId id victim : Fin n) : Prop :=
  (this.rateLimitPlayerVote clientId).1 = false ∧ this.playerId (strToint msg.value) = some id ∧
    this.reverseTranslate id clientId = some victim ∧
    (voteKind msg.type = .kick → this.KickCalled clientId id victim) ∧
    (voteKind msg.type = .spectate → this.SpectateCalled clientId id victim)

variable {this} {clientId id victim : Fin n} {value reason : List UInt8} {msg : MsgCallVote}

/-! ### What each part does -/

lemma rateLimitPlayerVote_spec (this : CallVoteContext n) (clientId : Fin n) :
    ∃ (limited : Bool) (times : Fin n → VoteTimes) (events : List (VoteEvent n)),
      this.rateLimitPlayerVote clientId = (limited, { this with voteTimes := times }, events) ∧
        (times clientId).lastKickVote = (this.voteTimes clientId).lastKickVote ∧ .voteSet ∉ events ∧
        (limited = false → this.voteCloseTime = 0) := by
  have hrefused : ∀ (times : Fin n → VoteTimes) (text : List UInt8),
      (times clientId).lastKickVote = (this.voteTimes clientId).lastKickVote →
      ∃ (limited : Bool) (times' : Fin n → VoteTimes) (events : List (VoteEvent n)),
        (true, { this with voteTimes := times }, [VoteEvent.chatTarget clientId text]) =
          (limited, { this with voteTimes := times' }, events) ∧
        (times' clientId).lastKickVote = (this.voteTimes clientId).lastKickVote ∧ .voteSet ∉ events ∧
        (limited = false → this.voteCloseTime = 0) := by
    intro times text htimes
    refine ⟨true, times, [.chatTarget clientId text], rfl, htimes, ?_, fun h => Bool.noConfusion h⟩
    exact fun h => VoteEvent.noConfusion rfl (heq_of_eq (List.mem_singleton.1 h))
  have htried : (Function.update this.voteTimes clientId
      { this.voteTimes clientId with lastVoteTry := this.tick } clientId).lastKickVote =
      (this.voteTimes clientId).lastKickVote := by
    rw [Function.update_self]
  obtain ⟨r, hr⟩ : ∃ r, r = this.rateLimitPlayerVote clientId := ⟨_, rfl⟩
  rw [← hr]
  rw [rateLimitPlayerVote] at hr
  split_ifs at hr
  · exact hr ▸ hrefused this.voteTimes _ rfl
  · exact hr ▸ hrefused this.voteTimes _ rfl
  · exact hr ▸ hrefused this.voteTimes _ rfl
  · exact ⟨true, this.voteTimes, [], hr, rfl, List.not_mem_nil, fun h => Bool.noConfusion h⟩
  dsimp only at hr
  split_ifs at hr with hclose
  · exact hr ▸ hrefused _ _ htried
  · exact hr ▸ hrefused _ _ htried
  · exact hr ▸ hrefused _ _ htried
  · exact hr ▸ hrefused _ _ htried
  · exact ⟨false, _, [], hr, htried, List.not_mem_nil, fun _ => not_not.1 hclose⟩

lemma callKickVote_spec (this : CallVoteContext n) (clientId : Fin n) (value reason : List UInt8) :
    (∃ id victim, this.playerId (strToint value) = some id ∧ this.reverseTranslate id clientId = some victim ∧
      this.KickCalled clientId id victim ∧
      this.callKickVote clientId value reason = .ok (this.kickVoteCall clientId victim reason)) ∨
    ∃ events, this.callKickVote clientId value reason = .error events ∧ .voteSet ∉ events ∧
      ∀ id victim, this.playerId (strToint value) = some id → this.reverseTranslate id clientId = some victim →
        ¬ this.KickCalled clientId id victim := by
  obtain ⟨r, hr⟩ : ∃ r, r = this.callKickVote clientId value reason := ⟨_, rfl⟩
  rw [← hr]
  rw [callKickVote] at hr
  split_ifs at hr with hallowed hdelay hmin
  · refine .inr ⟨_, hr, by simp, fun _ _ _ _ h => ?_⟩
    exact h.1.elim (fun h => by simp [h] at hallowed) (fun h => h hallowed.2)
  · exact .inr ⟨_, hr, by simp, fun _ _ _ _ h => absurd (h.2.1 hdelay.1) (not_le.2 hdelay.2)⟩
  · exact .inr ⟨_, hr, by simp, fun _ _ _ _ h => absurd (h.2.2.1 hmin.1 hmin.2.1) (not_le.2 hmin.2.2)⟩
  cases hid : this.playerId (strToint value) with
  | none =>
    rw [hid] at hr
    exact .inr ⟨_, hr, by simp, fun _ _ h => by simp at h⟩
  | some id =>
    rw [hid] at hr
    dsimp only at hr
    have hsome : ∀ id', some id = some id' → id' = id := fun id' h => (Option.some.inj h).symm
    split_ifs at hr with hself
    · exact .inr ⟨_, hr, by simp, fun id' _ hid' _ h => h.2.2.2.1 (hsome id' hid' ▸ hself)⟩
    cases hvictim : this.reverseTranslate id clientId with
    | none =>
      rw [hvictim] at hr
      refine .inr ⟨_, hr, by simp, fun id' _ hid' hvictim' _ => ?_⟩
      rw [hsome id' hid', hvictim] at hvictim'
      exact absurd hvictim' (Option.some_ne_none _).symm
    | some victim =>
      rw [hvictim] at hr
      dsimp only at hr
      have hsame : ∀ id' victim', some id = some id' → this.reverseTranslate id' clientId = some victim' →
          victim' = victim := by
        intro id' victim' hid' hvictim'
        rw [hsome id' hid', hvictim] at hvictim'
        exact (Option.some.inj hvictim').symm
      split_ifs at hr with hauth hteam
      · refine .inr ⟨_, hr, by simp, fun id' victim' hid' hvictim' h => ?_⟩
        exact absurd h.2.2.2.2.1 (hsame id' victim' hid' hvictim' ▸ not_le.2 hauth)
      · refine .inr ⟨_, hr, by simp, fun id' victim' hid' hvictim' h => ?_⟩
        rw [← hsame id' victim' hid' hvictim', h.2.2.2.2.2] at hteam
        exact Bool.false_ne_true hteam
      · refine .inl ⟨id, victim, rfl, hvictim, ⟨?_, fun h => ?_, fun h h' => ?_, hself, not_lt.1 hauth, ?_⟩, hr⟩
        · by_cases hkick : this.config.svVoteKick = true
          · exact .inl hkick
          · exact .inr fun h => hallowed ⟨by simpa using hkick, h⟩
        · exact not_lt.1 fun hlt => hdelay ⟨h, hlt⟩
        · exact not_lt.1 fun hlt => hmin ⟨h, h', hlt⟩
        · simpa using hteam

lemma callSpectateVote_spec (this : CallVoteContext n) (clientId : Fin n) (value reason : List UInt8) :
    (∃ id victim, this.playerId (strToint value) = some id ∧ this.reverseTranslate id clientId = some victim ∧
      this.SpectateCalled clientId id victim ∧
      this.callSpectateVote clientId value reason = .ok (this.spectateVoteCall clientId victim reason)) ∨
    ∃ events, this.callSpectateVote clientId value reason = .error events ∧ .voteSet ∉ events ∧
      ∀ id victim, this.playerId (strToint value) = some id → this.reverseTranslate id clientId = some victim →
        ¬ this.SpectateCalled clientId id victim := by
  obtain ⟨r, hr⟩ : ∃ r, r = this.callSpectateVote clientId value reason := ⟨_, rfl⟩
  rw [← hr]
  rw [callSpectateVote] at hr
  split_ifs at hr with hallowed
  · refine .inr ⟨_, hr, by simp, fun _ _ _ _ h => ?_⟩
    rw [h.1] at hallowed
    exact Bool.false_ne_true hallowed
  cases hid : this.playerId (strToint value) with
  | none =>
    rw [hid] at hr
    exact .inr ⟨_, hr, by simp, fun _ _ h => by simp at h⟩
  | some id =>
    rw [hid] at hr
    dsimp only at hr
    have hsome : ∀ id', some id = some id' → id' = id := fun id' h => (Option.some.inj h).symm
    split_ifs at hr with hspectator hself hauth
    · refine .inr ⟨_, hr, by simp, fun id' _ hid' _ h => ?_⟩
      rw [← hsome id' hid', h.2.1] at hspectator
      exact Bool.false_ne_true hspectator
    · exact .inr ⟨_, hr, by simp, fun id' _ hid' _ h => h.2.2.1 (hsome id' hid' ▸ hself)⟩
    · exact .inr ⟨_, hr, by simp, fun id' _ hid' _ h => absurd h.2.2.2.1 (hsome id' hid' ▸ not_le.2 hauth)⟩
    cases hvictim : this.reverseTranslate id clientId with
    | none =>
      rw [hvictim] at hr
      refine .inr ⟨_, hr, by simp, fun id' _ hid' hvictim' _ => ?_⟩
      rw [hsome id' hid', hvictim] at hvictim'
      exact absurd hvictim' (Option.some_ne_none _).symm
    | some victim =>
      rw [hvictim] at hr
      dsimp only at hr
      split_ifs at hr with hteam
      · refine .inr ⟨_, hr, by simp, fun id' victim' hid' hvictim' h => ?_⟩
        rw [hsome id' hid', hvictim] at hvictim'
        rw [Option.some.inj hvictim', h.2.2.2.2] at hteam
        exact Bool.false_ne_true hteam
      · exact .inl ⟨id, victim, rfl, hvictim,
          ⟨by simpa using hallowed, by simpa using hspectator, hself, not_lt.1 hauth, by simpa using hteam⟩, hr⟩

/-! ### The vote that is called -/

lemma strCopy_head {a b : UInt8} {rest : List UInt8} {size : ℕ} (hb : strUtf8IsStart b = true) (hsize : 3 ≤ size) :
    ∃ rest', strCopy size (a :: b :: rest) = a :: rest' := by
  obtain ⟨k, rfl⟩ := Nat.exists_eq_add_of_le hsize
  have htake : (a :: b :: rest).take (3 + k - 1) = a :: b :: rest.take k := by
    rw [show 3 + k - 1 = k + 2 by omega, List.take_succ_cons, List.take_succ_cons]
  have hrewind : 1 ≤ strUtf8Rewind (a :: b :: rest.take k) (a :: b :: rest.take k).length := by
    refine le_strUtf8Rewind hb ?_
    simp
  rw [strCopy, htake, strUtf8FixTruncation, if_neg (List.cons_ne_nil _ _)]
  dsimp only
  split_ifs
  · obtain ⟨m, hm⟩ := Nat.exists_eq_add_of_le hrewind
    exact ⟨_, by rw [hm, Nat.add_comm 1 m, List.take_succ_cons]⟩
  · exact ⟨_, rfl⟩

/-- A command that is not empty and not `info`. -/
def IsCommand (text : List UInt8) : Prop :=
  strCopy voteCmdLength text ≠ [] ∧ strCompNocase (strCopy voteCmdLength text) (ofString "info") ≠ .eq

lemma isCommand_of_head {a b : UInt8} {rest text : List UInt8} (htext : text = a :: b :: rest)
    (ha : toLower a ≠ 105) (hb : strUtf8IsStart b = true) : IsCommand text := by
  obtain ⟨rest', hcopy⟩ := @strCopy_head a b rest voteCmdLength hb (by decide)
  rw [IsCommand, htext, hcopy]
  refine ⟨List.cons_ne_nil _ _, fun h => ?_⟩
  have hmap := strComp_eq_iff.1 h
  rw [List.map_cons] at hmap
  exact ha (List.cons.inj hmap).1

lemma isCommand_victimCommand (kind : VoteType) : IsCommand (this.victimCommand kind clientId victim) := by
  rw [victimCommand, kickCommand, spectateCommand]
  split_ifs
  · exact isCommand_of_head rfl (by decide) (by decide)
  · exact isCommand_of_head rfl (by decide) (by decide)
  · exact isCommand_of_head rfl (by decide) (by decide)
  · exact isCommand_of_head rfl (by decide) (by decide)
  · exact isCommand_of_head rfl (by decide) (by decide)

/-- The checks after the rate limit. -/
def KindCalled (this : CallVoteContext n) (kind : VoteType) (clientId id victim : Fin n) : Prop :=
  (kind = .kick → this.KickCalled clientId id victim) ∧ (kind = .spectate → this.SpectateCalled clientId id victim)

lemma requestedVote_spec (this : CallVoteContext n) (clientId : Fin n) (msg : MsgCallVote) (reason : List UInt8)
    (hkind : voteKind msg.type = .kick ∨ voteKind msg.type = .spectate) :
    (∃ id victim call, this.playerId (strToint msg.value) = some id ∧
      this.reverseTranslate id clientId = some victim ∧ this.KindCalled (voteKind msg.type) clientId id victim ∧
      this.requestedVote clientId msg reason = .ok call ∧ call.victim = some victim ∧
      call.cmd = this.victimCommand (voteKind msg.type) clientId victim) ∨
    ∃ events, this.requestedVote clientId msg reason = .error events ∧ .voteSet ∉ events ∧
      ∀ id victim, this.playerId (strToint msg.value) = some id → this.reverseTranslate id clientId = some victim →
        ¬ this.KindCalled (voteKind msg.type) clientId id victim := by
  rw [requestedVote]
  obtain hkind | hkind := hkind
  · rw [hkind]
    obtain ⟨id, victim, hid, hvictim, hcalled, hok⟩ | ⟨events, herror, hset, hnot⟩ :=
      callKickVote_spec this clientId msg.value reason
    · exact .inl ⟨id, victim, _, hid, hvictim, ⟨fun _ => hcalled, fun h => VoteType.noConfusion h⟩, hok, rfl, rfl⟩
    · exact .inr ⟨events, herror, hset, fun id victim hid hvictim h => hnot id victim hid hvictim (h.1 rfl)⟩
  · rw [hkind]
    obtain ⟨id, victim, hid, hvictim, hcalled, hok⟩ | ⟨events, herror, hset, hnot⟩ :=
      callSpectateVote_spec this clientId msg.value reason
    · exact .inl ⟨id, victim, _, hid, hvictim, ⟨fun h => VoteType.noConfusion h, fun _ => hcalled⟩, hok, rfl, rfl⟩
    · exact .inr ⟨events, herror, hset, fun id victim hid hvictim h => hnot id victim hid hvictim (h.2 rfl)⟩

lemma sameTeam_of_kindCalled {kind : VoteType} (hkind : kind = .kick ∨ kind = .spectate)
    (h : this.KindCalled kind clientId id victim) : this.sameTeam clientId victim = true := by
  obtain hkind | hkind := hkind
  · exact (h.1 hkind).2.2.2.2.2
  · exact (h.2 hkind).2.2.2.2

lemma isSome_of_hasCharacter (h : this.hasCharacter id = true) : (this.players id).isSome = true := by
  rw [hasCharacter] at h
  cases hplayer : this.players id with
  | none =>
    rw [hplayer] at h
    exact absurd h Bool.false_ne_true
  | some player => rfl

lemma isSome_of_sameTeam (h : this.sameTeam clientId victim = true) :
    (this.players clientId).isSome = true ∧ (this.players victim).isSome = true := by
  rw [sameTeam, Bool.and_eq_true, Bool.and_eq_true] at h
  exact ⟨isSome_of_hasCharacter h.1.1, isSome_of_hasCharacter h.1.2⟩

lemma callVote_spec {desc cmd chatmsg sixupDesc : List UInt8} (hclose : this.voteCloseTime = 0)
    (hplayer : (this.players clientId).isSome = true) :
    ∃ after, this.callVote clientId desc cmd reason chatmsg sixupDesc = (after, [.chat chatmsg, .voteSet]) ∧
      after.voteVictim = this.voteVictim ∧ after.voteCreator = some clientId ∧
      after.voteCommand = strCopy voteCmdLength cmd := by
  rw [callVote, if_neg]
  · exact ⟨_, rfl, rfl, rfl, rfl⟩
  · rintro (h | h)
    · exact h hclose
    · rw [Option.isNone_iff_eq_none.1 h] at hplayer
      exact Bool.false_ne_true hplayer

/-- A message that passes all checks starts a vote on the victim; any other one leaves the last vote as it is. -/
lemma onCallVoteNetMessage_spec (this : CallVoteContext n) (msg : MsgCallVote) (clientId : Fin n)
    (hkind : voteKind msg.type = .kick ∨ voteKind msg.type = .spectate) :
    (∃ id victim after events, this.Called msg clientId id victim ∧
      this.onCallVoteNetMessage msg clientId = (after, events) ∧ .voteSet ∈ events ∧
      after.voteVictim = some victim ∧ after.voteCreator = some clientId ∧
      after.voteCommand = commandBuffer (this.victimCommand (voteKind msg.type) clientId victim)) ∨
    ∃ after events, (∀ id victim, ¬ this.Called msg clientId id victim) ∧
      this.onCallVoteNetMessage msg clientId = (after, events) ∧ .voteSet ∉ events ∧
      after.voteVictim = this.voteVictim ∧ after.voteCreator = this.voteCreator ∧
      after.voteCommand = this.voteCommand := by
  obtain ⟨limited, times, events, hlimit, htimes, hset, hclose⟩ := rateLimitPlayerVote_spec this clientId
  rw [onCallVoteNetMessage]
  simp only [Called, hlimit]
  cases limited with
  | true => exact .inr ⟨_, _, fun _ _ h => Bool.noConfusion h.1, rfl, hset, rfl, rfl, rfl⟩
  | false =>
    have hclose := hclose rfl
    rw [if_neg (by simp [hclose])]
    let before : CallVoteContext n := { this with voteTimes := times, voteType := .unknown }
    let text := strCopy voteReasonLength (if msg.reason = [] then ofString "No reason given" else msg.reason)
    have hcalled : ∀ id victim, before.KindCalled (voteKind msg.type) clientId id victim ↔
        this.KindCalled (voteKind msg.type) clientId id victim := by
      intro id victim
      simp only [KindCalled, KickCalled, before, htimes]
      rfl
    obtain ⟨id, victim, call, hid, hvictim, hpass, hok, hcall, hcmd⟩ | ⟨events', herror, hset', hnot⟩ :=
      requestedVote_spec before clientId msg text hkind
    · have hteam : this.sameTeam clientId victim = true := sameTeam_of_kindCalled hkind ((hcalled id victim).1 hpass)
      have hcommand : IsCommand call.cmd := hcmd ▸ isCommand_victimCommand (voteKind msg.type)
      let called : CallVoteContext n := { before with
        voteType := call.voteType
        voteVictim := if call.victim.isSome then call.victim else before.voteVictim
        lastMapVote := if call.isOption then before.now else before.lastMapVote
        voteTimes := Function.update before.voteTimes clientId
          (if call.voteType = .kick then { before.voteTimes clientId with lastKickVote := before.now }
            else before.voteTimes clientId) }
      obtain ⟨after, hafter, hafterVictim, hcreator, hafterCmd⟩ :=
        @callVote_spec n called clientId text (strCopy voteDescLength call.desc) (strCopy voteCmdLength call.cmd)
          (strCopy 512 call.chatmsg)
          (strCopy voteDescLength (if call.sixupDesc = [] then call.desc else call.sixupDesc)) hclose
          (isSome_of_sameTeam hteam).1
      refine .inl ⟨id, victim, after, [.chat (strCopy 512 call.chatmsg), .voteSet],
        ⟨rfl, hid, hvictim, (hcalled id victim).1 hpass⟩, ?_, ?_, ?_, hcreator, ?_⟩
      · show (match before.requestedVote clientId msg text with
          | .error events => _
          | .ok call => _) = _
        rw [hok]
        exact (if_pos hcommand).trans hafter
      · simp
      · rw [hafterVictim, show called.voteVictim = _ from if_pos (by rw [hcall]; rfl), hcall]
      · rw [hafterCmd, hcmd]
        rfl
    · refine .inr ⟨before, events', fun id victim h => ?_, ?_, hset', rfl, rfl, rfl⟩
      · exact hnot id victim h.2.1 h.2.2.1 ((hcalled id victim).2 h.2.2.2)
      · show (match before.requestedVote clientId msg text with
          | .error events => _
          | .ok call => _) = _
        rw [herror]

lemma called_unique {id' victim' : Fin n} (h : this.Called msg clientId id victim)
    (h' : this.Called msg clientId id' victim') : victim = victim' := by
  have hid : id = id' := Option.some.inj (h.2.1.symm.trans h'.2.1)
  have hvictim := h'.2.2.1
  rw [← hid, h.2.2.1] at hvictim
  exact Option.some.inj hvictim

lemma hitsPermitted_iff_permitted (hkind : voteKind msg.type = .kick ∨ voteKind msg.type = .spectate) :
    this.HitsPermitted msg clientId ↔
      ∀ id victim, this.Called msg clientId id victim → this.Permitted (voteKind msg.type) clientId victim := by
  rw [HitsPermitted]
  obtain ⟨id, victim, after, events, hcalled, hafter, hset, hvictim, hcreator, hcommand⟩ |
    ⟨after, events, hnot, hafter, hset, hvictim, hcreator, hcommand⟩ :=
      onCallVoteNetMessage_spec this msg clientId hkind
  · rw [hafter]
    dsimp only
    constructor
    · rintro ⟨h, -⟩ id' victim' hcalled'
      obtain ⟨hit, hpermitted, hhit, -⟩ := h hset
      have heq : hit = victim' := by
        rw [← called_unique hcalled hcalled']
        exact Option.some.inj (hhit.symm.trans hvictim)
      exact heq ▸ hpermitted
    · intro h
      exact ⟨fun _ => ⟨victim, h id victim hcalled, hvictim, hcreator, hcommand⟩, fun hunset => absurd hset hunset⟩
  · rw [hafter]
    dsimp only
    constructor
    · exact fun _ id' victim' hcalled => absurd hcalled (hnot id' victim')
    · exact fun _ => ⟨fun hset' => absurd hset' hset, fun _ => ⟨hvictim, hcreator, hcommand⟩⟩

/-- A victim that passes the checks is permitted if it also passes those that are made on the id before it is
translated. -/
lemma permitted_iff (hkind : voteKind msg.type = .kick ∨ voteKind msg.type = .spectate)
    (h : this.Called msg clientId id victim) :
    this.Permitted (voteKind msg.type) clientId victim ↔
      victim ≠ clientId ∧ (voteKind msg.type = .spectate →
        this.authed victim ≤ this.authed clientId ∧ this.spectator victim = false) := by
  have hteam : this.sameTeam clientId victim = true := sameTeam_of_kindCalled hkind h.2.2.2
  constructor
  · rintro ⟨-, hne, hauth, -, hspectator⟩
    exact ⟨hne, fun hspec => ⟨hauth, hspectator hspec⟩⟩
  · rintro ⟨hne, hspec⟩
    refine ⟨(isSome_of_sameTeam hteam).2, hne, ?_, hteam, fun hspectate => (hspec hspectate).2⟩
    obtain hkick | hspectate := hkind
    · exact (h.2.2.2.1 hkick).2.2.2.2.1
    · exact (hspec hspectate).1

/-- The votes that clients without an id map call hit permitted victims only. -/
theorem hitsPermitted_of_version (hkind : voteKind msg.type = .kick ∨ voteKind msg.type = .spectate)
    (hversion : (this.clients clientId).sixup = true ∨ versionDDNetOld ≤ (this.clients clientId).version) :
    this.HitsPermitted msg clientId := by
  refine (hitsPermitted_iff_permitted hkind).2 fun id victim hcalled => (permitted_iff hkind hcalled).2 ?_
  have hsame : id = victim := by
    have hvictim := hcalled.2.2.1
    rw [reverseTranslate, ← ite_or, if_pos hversion] at hvictim
    exact Option.some.inj hvictim
  obtain hkick | hspectate := hkind
  · refine ⟨hsame ▸ (hcalled.2.2.2.1 hkick).2.2.2.1, fun hspectate => ?_⟩
    rw [hkick] at hspectate
    exact VoteType.noConfusion hspectate
  · obtain ⟨-, hspectator, hne, hauth, -⟩ := hcalled.2.2.2.2 hspectate
    exact ⟨hsame ▸ hne, fun _ => ⟨hsame ▸ hauth, hsame ▸ hspectator⟩⟩

end CallVoteContext

end CGameContext

open CGameContext CallVoteContext in
/-- Calling a kick or spectate vote hits a permitted victim, or no one, if and only if the translated victim is not the
caller and, for a spectate vote, is not a spectator and not authorized higher, provided that the message passes all the
checks that are made. -/
theorem hitsPermitted_iff {n : ℕ} (this : CallVoteContext n) (msg : MsgCallVote) (clientId : Fin n)
    (hkind : voteKind msg.type = .kick ∨ voteKind msg.type = .spectate) :
    this.HitsPermitted msg clientId ↔
      ∀ id victim, this.Called msg clientId id victim → victim ≠ clientId ∧
        (voteKind msg.type = .spectate →
          this.authed victim ≤ this.authed clientId ∧ this.spectator victim = false) := by
  rw [hitsPermitted_iff_permitted hkind]
  constructor
  · exact fun h id victim hcalled => (permitted_iff hkind hcalled).1 (h id victim hcalled)
  · exact fun h id victim hcalled => (permitted_iff hkind hcalled).2 (h id victim hcalled)

section Sample

open CGameContext CallVoteContext

/-- Two players, of whom the second has an old version and sees itself under the id 0. -/
def twoPlayers : CallVoteContext 2 where
  config := ⟨false, false, false, 3, 0, true, 0, 0, 5, true, 3, true, true, 10, 25⟩
  players := fun _ => some ⟨0, true, 0, 0⟩
  voteTimes := fun _ => ⟨0, 0, 0, 0⟩
  clients := fun i => ⟨[110], 0, false, 0, fun j => if j = 0 then some i else none, ⟨1, Vector.replicate 16 0, 0⟩, [49],
    0, false, false⟩
  distinctClientCount := 2
  voteMutes := []
  mutes := []
  voteOptions := []
  lineIsValid := fun _ => true
  tick := 100
  tickSpeed := 50
  now := 1000
  freq := 10
  lastMapVote := 0
  voteCloseTime := 0
  voteType := .unknown
  voteVictim := none
  voteCreator := none
  votePos := 0
  voteCommand := []
  voteDescription := []
  sixupVoteDescription := []
  voteReason := []

theorem hitsPermitted_iff_twoPlayers :
    twoPlayers.HitsPermitted ⟨ofString "kick", ofString "0", []⟩ 0 ↔
      ∀ id victim, twoPlayers.Called ⟨ofString "kick", ofString "0", []⟩ 0 id victim → victim ≠ 0 ∧
        (voteKind (ofString "kick") = .spectate →
          twoPlayers.authed victim ≤ twoPlayers.authed 0 ∧ twoPlayers.spectator victim = false) :=
  hitsPermitted_iff twoPlayers ⟨ofString "kick", ofString "0", []⟩ 0 (.inl (by decide))

/-- The second player calls a vote to kick itself. -/
theorem hitsPermitted_self :
    ¬ (∀ (n : ℕ) (this : CallVoteContext n) (msg : MsgCallVote) (clientId : Fin n),
      voteKind msg.type = .kick ∨ voteKind msg.type = .spectate → this.HitsPermitted msg clientId) := by
  intro h
  have hkind : voteKind (ofString "kick") = .kick := by decide
  have hcalled : twoPlayers.Called ⟨ofString "kick", ofString "0", []⟩ 1 0 1 := by
    refine ⟨by decide, by decide, by decide, fun _ => ⟨.inl rfl, fun _ => by decide, fun h => absurd rfl h, by decide,
      by decide, by decide⟩, fun h => ?_⟩
    rw [hkind] at h
    exact VoteType.noConfusion h
  have hpermitted := (hitsPermitted_iff_permitted (.inl hkind)).1 (h 2 twoPlayers _ 1 (.inl hkind)) 0 1 hcalled
  exact hpermitted.2.1 rfl

end Sample

end DDNet
