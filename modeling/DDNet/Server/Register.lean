/-
The registration at the master server (`CRegister`, `engine/server/register.cpp`).

Apart from a new info, nothing changes the info that is stored, and every register request has no body or this info
(`Serves`).  A new info is stored as a whole if and only if it fits the buffer (`serves_iff`).
-/
import DDNet.Base.Truncation
import DDNet.Server.ServerInfo

namespace DDNet

/-- The statuses of the responses. -/
inductive RegisterStatus where
  | statusNone
  | statusOk
  | statusNeedchallenge
  | statusNeedinfo
deriving DecidableEq

/-- The size of `m_aServerInfo`. -/
def serverInfoSize : ℕ := 16384

/-- The size of `m_aChallengeToken`. -/
def challengeTokenSize : ℕ := 128

/-- `CRegister::CProtocol` with its `CShared`, and whether the protocol is enabled. -/
structure RegisterProtocol where
  enabled : Bool
  numTotalRequests : ℤ
  latestResponseStatus : RegisterStatus
  latestResponseIndex : ℤ
  newChallengeToken : Bool
  haveChallengeToken : Bool
  challengeToken : List UInt8
  prevRegister : ℤ
  nextRegister : ℤ

/-- A register request: what is different between the requests of a server.  There is no body in a request without
info. -/
structure RegisterRequest where
  protocol : Fin 4
  index : ℤ
  infoSerial : ℤ
  body : Option (List UInt8)
  challengeToken : Option (List UInt8)

/-- `CRegister` with its `CGlobal`, and the requests that it made, one after the other. -/
structure CRegister where
  gotFirstUpdateCall : Bool
  infoSerial : ℤ
  latestSuccessfulInfoSerial : ℤ
  protocols : Fin 4 → RegisterProtocol
  gotServerInfo : Bool
  serverInfo : List UInt8
  requests : List RegisterRequest

namespace CRegister

/-- A new register. -/
def init : CRegister where
  gotFirstUpdateCall := false
  infoSerial := -1
  latestSuccessfulInfoSerial := -1
  protocols _ := ⟨true, 0, .statusNone, -1, false, false, [], -1, -1⟩
  gotServerInfo := false
  serverInfo := []
  requests := []

variable (freq : ℤ)

/-- The protocol is changed. -/
def modify (r : CRegister) (i : Fin 4) (f : RegisterProtocol → RegisterProtocol) : CRegister :=
  { r with protocols := Function.update r.protocols i (f (r.protocols i)) }

/-- `CProtocol::SendRegister`. -/
def sendRegister (now : ℤ) (i : Fin 4) (r : CRegister) : CRegister :=
  let p := r.protocols i
  let sendInfo := r.latestSuccessfulInfoSerial < r.infoSerial
  let request : RegisterRequest := {
    protocol := i
    index := p.numTotalRequests
    infoSerial := r.infoSerial
    body := if sendInfo then some r.serverInfo else none
    challengeToken := if p.haveChallengeToken then some p.challengeToken else none }
  { r.modify i fun p => { p with
      numTotalRequests := p.numTotalRequests + 1
      newChallengeToken := false
      prevRegister := now
      nextRegister := now + 15 * freq } with
    requests := r.requests ++ [request] }

/-- `CProtocol::SendDeleteIfRegistered`, without the request. -/
def sendDeleteIfRegistered (i : Fin 4) (r : CRegister) : CRegister :=
  r.modify i fun p => { p with latestResponseStatus := .statusNone }

/-- `CProtocol::CheckChallengeStatus`. -/
def checkChallengeStatus (now : ℤ) (p : RegisterProtocol) : RegisterProtocol :=
  if p.latestResponseIndex = p.numTotalRequests - 1 then
    match p.latestResponseStatus with
    | .statusNeedchallenge => if p.newChallengeToken then { p with nextRegister := now } else p
    | .statusNeedinfo => { p with nextRegister := now }
    | _ => p
  else
    p

/-- `CProtocol::Update`. -/
def updateProtocol (now : ℤ) (i : Fin 4) (r : CRegister) : CRegister :=
  let r := r.modify i (checkChallengeStatus now)
  if (r.protocols i).nextRegister ≤ now then r.sendRegister freq now i else r

/-- `CProtocol::OnToken`. -/
def onToken (now : ℤ) (i : Fin 4) (token : List UInt8) (r : CRegister) : CRegister :=
  let r := r.modify i fun p => { p with
    newChallengeToken := true
    haveChallengeToken := true
    challengeToken := strCopy challengeTokenSize token }
  r.updateProtocol freq now i

/-- A loop over the protocols that skips those that are not enabled. -/
def forEnabled (f : Fin 4 → CRegister → CRegister) (r : CRegister) : CRegister :=
  (List.finRange 4).foldl (fun r i => if (r.protocols i).enabled then f i r else r) r

/-- `Update`. -/
def update (now : ℤ) (r : CRegister) : CRegister :=
  let r := { r with gotFirstUpdateCall := true }
  if r.gotServerInfo then r.forEnabled fun i r => r.updateProtocol freq now i else r

/-- What the first loop of `OnNewInfo` finds: `MaximumPrevRegister`, `MinimumNextRegister` and
`MinimumNextRegisterProtocol`. -/
structure NewInfoTimes where
  maximumPrev : ℤ
  minimumNext : ℤ
  protocol : Option (Fin 4)

/-- A round of the first loop of `OnNewInfo`. -/
def newInfoRound (now : ℤ) (s : CRegister × NewInfoTimes) (i : Fin 4) : CRegister × NewInfoTimes :=
  let p := s.1.protocols i
  if p.enabled = false then
    s
  else if p.nextRegister = -1 then
    (s.1.modify i fun p => { p with nextRegister := now }, s.2)
  else
    let t := if s.2.maximumPrev < p.prevRegister then { s.2 with maximumPrev := p.prevRegister } else s.2
    if t.protocol = none ∨ p.nextRegister < t.minimumNext then
      (s.1, { t with minimumNext := p.nextRegister, protocol := some i })
    else
      (s.1, t)

/-- A round of the second loop of `OnNewInfo`. -/
def newInfoSend (now : ℤ) (t : NewInfoTimes) (i : Fin 4) (r : CRegister) : CRegister :=
  let r := if t.protocol = some i then
      r.modify i fun p => { p with nextRegister := min p.nextRegister (t.maximumPrev + freq) }
    else r
  if (r.protocols i).nextRegister ≤ now then r.sendRegister freq now i else r

/-- What `OnNewInfo` does first: the info is stored and counted. -/
def store (info : List UInt8) (r : CRegister) : CRegister :=
  { r with
    gotServerInfo := true
    serverInfo := strCopy serverInfoSize info
    infoSerial := r.infoSerial + 1 }

/-- The two loops of `OnNewInfo`. -/
def newInfoLoops (now : ℤ) (r : CRegister) : CRegister :=
  let found := (List.finRange 4).foldl (newInfoRound now) (r, ⟨-1, -1, none⟩)
  found.1.forEnabled (newInfoSend freq now found.2)

/-- `OnNewInfo`. -/
def onNewInfo (now : ℤ) (info : List UInt8) (r : CRegister) : CRegister :=
  if r.gotServerInfo = true ∧ strComp r.serverInfo info = .eq then r
  else if (r.store info).gotFirstUpdateCall then (r.store info).newInfoLoops freq now
  else r.store info

/-- `CJob::Run` with a status of the master in the response to the request. -/
def onResponse (request : RegisterRequest) (status : RegisterStatus) (r : CRegister) : CRegister :=
  let r := r.modify request.protocol fun p =>
    if p.latestResponseIndex < request.index then
      { p with latestResponseIndex := request.index, latestResponseStatus := status }
    else
      p
  match status with
  | .statusOk =>
    if r.latestSuccessfulInfoSerial < request.infoSerial then
      { r with latestSuccessfulInfoSerial := request.infoSerial }
    else
      r
  | .statusNeedinfo =>
    if request.infoSerial = r.latestSuccessfulInfoSerial then
      { r with latestSuccessfulInfoSerial := r.latestSuccessfulInfoSerial - 1 }
    else
      r
  | _ => r

/-- `OnConfigChange`, with the protocols that the configuration enables. -/
def onConfigChange (now : ℤ) (enabled : Fin 4 → Bool) (r : CRegister) : CRegister :=
  let old := fun i => (r.protocols i).enabled
  let r := { r with protocols := fun i => { r.protocols i with enabled := enabled i } }
  if r.gotFirstUpdateCall then
    (List.finRange 4).foldl (fun r i =>
      if old i = enabled i then r
      else if enabled i then r.sendRegister freq now i
      else r.sendDeleteIfRegistered i) r
  else
    r

/-- `OnShutdown`. -/
def onShutdown (r : CRegister) : CRegister := r.forEnabled sendDeleteIfRegistered

/-- What happens to a register. -/
inductive Event where
  | newInfo (now : ℤ) (info : List UInt8)
  | update (now : ℤ)
  | token (now : ℤ) (protocol : Fin 4) (token : List UInt8)
  | response (request : ℕ) (status : RegisterStatus)
  | configChange (now : ℤ) (enabled : Fin 4 → Bool)
  | shutdown

/-- The event is a new info. -/
def Event.isNewInfo : Event → Bool
  | .newInfo _ _ => true
  | _ => false

/-- What happens at an event; only requests that were made have a response. -/
def step (r : CRegister) : Event → CRegister
  | .newInfo now info => r.onNewInfo freq now info
  | .update now => r.update freq now
  | .token now i token => r.onToken freq now i token
  | .response k status =>
    match r.requests[k]? with
    | none => r
    | some request => r.onResponse request status
  | .configChange now enabled => r.onConfigChange freq now enabled
  | .shutdown => r.onShutdown

/-- The events one after the other. -/
def run (r : CRegister) (events : List Event) : CRegister := events.foldl (step freq) r

/-! ### Requests without a new info -/

/-- No request has a serial after the current one, and none of these was successful. -/
structure Sound (r : CRegister) : Prop where
  successful : r.latestSuccessfulInfoSerial ≤ r.infoSerial
  requests : ∀ q ∈ r.requests, q.infoSerial ≤ r.infoSerial

/-- The current info was not sent yet. -/
structure Fresh (r : CRegister) : Prop where
  successful : r.latestSuccessfulInfoSerial < r.infoSerial
  requests : ∀ q ∈ r.requests, q.infoSerial < r.infoSerial

/-- The stored info is the same, every new request has no body or this info, and the first one has it if it was not sent
yet. -/
structure Serves (r r' : CRegister) : Prop where
  gotServerInfo : r'.gotServerInfo = r.gotServerInfo
  serverInfo : r'.serverInfo = r.serverInfo
  requests : ∃ new, r'.requests = r.requests ++ new ∧ ∀ q ∈ new, q.body = none ∨ q.body = some r.serverInfo
  first : r.Fresh → r'.requests = r.requests ∧ r'.Fresh ∨
    ∃ q new, r'.requests = r.requests ++ q :: new ∧ q.body = some r.serverInfo
  sound : r.Sound → r'.Sound

lemma Serves.refl (r : CRegister) : Serves r r :=
  ⟨rfl, rfl, ⟨[], (List.append_nil _).symm, by simp⟩, fun h => .inl ⟨rfl, h⟩, id⟩

lemma Serves.trans {r r' r'' : CRegister} (h : Serves r r') (h' : Serves r' r'') : Serves r r'' := by
  obtain ⟨new, heq, hnew⟩ := h.requests
  obtain ⟨new', heq', hnew'⟩ := h'.requests
  refine ⟨h'.gotServerInfo.trans h.gotServerInfo, h'.serverInfo.trans h.serverInfo, ⟨new ++ new', ?_, ?_⟩, ?_,
    fun hsound => h'.sound (h.sound hsound)⟩
  · rw [heq', heq, List.append_assoc]
  · rintro q hq
    rcases List.mem_append.1 hq with hq | hq
    · exact hnew q hq
    · exact h.serverInfo ▸ hnew' q hq
  · intro hfresh
    rcases h.first hfresh with ⟨hsame, hfresh'⟩ | ⟨q, rest, hq, hbody⟩
    · rw [← hsame, ← h.serverInfo]
      exact h'.first hfresh'
    · refine .inr ⟨q, rest ++ new', ?_, hbody⟩
      rw [heq', hq, List.append_assoc, List.cons_append]

/-- Something that is not about the info or the requests. -/
lemma Serves.of_eq {r r' : CRegister} (hgot : r'.gotServerInfo = r.gotServerInfo) (hinfo : r'.serverInfo = r.serverInfo)
    (hserial : r'.infoSerial = r.infoSerial)
    (hsuccessful : r'.latestSuccessfulInfoSerial ≤ r.latestSuccessfulInfoSerial ∨
      ∃ q ∈ r.requests, r'.latestSuccessfulInfoSerial ≤ q.infoSerial)
    (hrequests : r'.requests = r.requests) : Serves r r' := by
  refine ⟨hgot, hinfo, ⟨[], by rw [hrequests, List.append_nil], by simp⟩, fun h => .inl ⟨hrequests, ?_, ?_⟩,
    fun h => ⟨?_, ?_⟩⟩
  · rw [hserial]
    rcases hsuccessful with hle | ⟨q, hq, hle⟩
    · exact lt_of_le_of_lt hle h.successful
    · exact lt_of_le_of_lt hle (h.requests q hq)
  · rw [hrequests, hserial]
    exact h.requests
  · rw [hserial]
    rcases hsuccessful with hle | ⟨q, hq, hle⟩
    · exact hle.trans h.successful
    · exact hle.trans (h.requests q hq)
  · rw [hrequests, hserial]
    exact h.requests

lemma serves_foldl {α : Type} {f : CRegister → α → CRegister} {l : List α} (hf : ∀ x ∈ l, ∀ r, Serves r (f r x))
    (r : CRegister) : Serves r (l.foldl f r) := by
  induction l generalizing r with
  | nil => exact Serves.refl r
  | cons x l ih => exact (hf x List.mem_cons_self r).trans (ih (fun y hy => hf y (List.mem_cons_of_mem _ hy)) _)

lemma serves_forEnabled {f : Fin 4 → CRegister → CRegister} (hf : ∀ r i, Serves r (f i r)) (r : CRegister) :
    Serves r (r.forEnabled f) :=
  serves_foldl (fun i _ r => by
    split_ifs
    · exact hf r i
    · exact Serves.refl r) r

lemma serves_modify (r : CRegister) (i : Fin 4) (f : RegisterProtocol → RegisterProtocol) : Serves r (r.modify i f) :=
  Serves.of_eq rfl rfl rfl (.inl le_rfl) rfl

/-- A request has the info if its serial is after the latest successful one. -/
lemma serves_sendRegister (now : ℤ) (i : Fin 4) (r : CRegister) : Serves r (r.sendRegister freq now i) := by
  refine ⟨rfl, rfl, ⟨_, rfl, ?_⟩, fun h => .inr ⟨_, [], rfl, if_pos h.successful⟩, fun h => ⟨h.successful, ?_⟩⟩
  · rintro q hq
    rw [List.mem_singleton.1 hq]
    by_cases hsend : r.latestSuccessfulInfoSerial < r.infoSerial
    · exact .inr (if_pos hsend)
    · exact .inl (if_neg hsend)
  · rintro q hq
    rcases List.mem_append.1 hq with hq | hq
    · exact h.requests q hq
    · rw [List.mem_singleton.1 hq]
      exact le_rfl

lemma serves_updateProtocol (now : ℤ) (i : Fin 4) (r : CRegister) : Serves r (r.updateProtocol freq now i) := by
  refine (serves_modify r i (checkChallengeStatus now)).trans ?_
  rw [updateProtocol]
  split_ifs
  · exact serves_sendRegister freq now i _
  · exact Serves.refl _

/-- A response can only make the serial of its request the latest successful one. -/
lemma serves_onResponse {request : RegisterRequest} {r : CRegister} (hrequest : request ∈ r.requests)
    (status : RegisterStatus) : Serves r (r.onResponse request status) := by
  cases status with
  | statusNone => exact serves_modify r _ _
  | statusNeedchallenge => exact serves_modify r _ _
  | statusOk =>
    simp only [onResponse]
    split_ifs
    · exact Serves.of_eq rfl rfl rfl (.inr ⟨request, hrequest, le_rfl⟩) rfl
    · exact serves_modify r _ _
  | statusNeedinfo =>
    simp only [onResponse]
    split_ifs
    · exact Serves.of_eq rfl rfl rfl (.inl (Int.sub_le_self _ Int.one_nonneg)) rfl
    · exact serves_modify r _ _

/-- Every event that is no new info. -/
lemma serves_step {e : Event} (he : e.isNewInfo = false) (r : CRegister) : Serves r (step freq r e) := by
  cases e with
  | newInfo now info => exact absurd he Bool.noConfusion
  | update now =>
    have hfirst : Serves r { r with gotFirstUpdateCall := true } := Serves.of_eq rfl rfl rfl (.inl le_rfl) rfl
    rw [step, update]
    split_ifs
    · exact hfirst.trans (serves_forEnabled (fun r i => serves_updateProtocol freq now i r) _)
    · exact hfirst
  | token now i token => exact (serves_modify r i _).trans (serves_updateProtocol freq now i _)
  | response k status =>
    rw [step]
    rcases hk : r.requests[k]? with _ | request
    · exact Serves.refl r
    · exact serves_onResponse (List.mem_of_getElem? hk) status
  | configChange now enabled =>
    have hconfig : Serves r { r with protocols := fun i => { r.protocols i with enabled := enabled i } } :=
      Serves.of_eq rfl rfl rfl (.inl le_rfl) rfl
    rw [step, onConfigChange]
    split_ifs
    · refine hconfig.trans (serves_foldl (fun i _ r => ?_) _)
      split_ifs
      · exact Serves.refl r
      · exact serves_sendRegister freq now i r
      · exact serves_modify r i _
    · exact hconfig
  | shutdown => exact serves_forEnabled (fun r i => serves_modify r i _) r

/-- Events that are no new infos. -/
lemma serves_run {events : List Event} (hevents : ∀ e ∈ events, e.isNewInfo = false) (r : CRegister) :
    Serves r (run freq r events) :=
  serves_foldl (fun e he r => serves_step freq (hevents e he) r) r

/-! ### A new info -/

lemma onNewInfo_same {info : List UInt8} {r : CRegister} (h : r.gotServerInfo = true ∧ r.serverInfo = info) (now : ℤ) :
    r.onNewInfo freq now info = r :=
  if_pos ⟨h.1, strComp_eq_iff.2 h.2⟩

lemma serves_newInfoRound (now : ℤ) (x : CRegister × NewInfoTimes) (i : Fin 4) :
    Serves x.1 (newInfoRound now x i).1 := by
  rw [newInfoRound]
  split_ifs
  · exact Serves.refl _
  · exact serves_modify x.1 i fun p => { p with nextRegister := now }
  all_goals
    dsimp only
    split_ifs <;> exact Serves.refl _

lemma serves_newInfoSend (now : ℤ) (t : NewInfoTimes) (i : Fin 4) (r : CRegister) :
    Serves r (newInfoSend freq now t i r) := by
  have hfirst : Serves r (if t.protocol = some i then
      r.modify i fun p => { p with nextRegister := min p.nextRegister (t.maximumPrev + freq) } else r) := by
    split_ifs
    · exact serves_modify r i _
    · exact Serves.refl r
  rw [newInfoSend]
  generalize (if t.protocol = some i then
    r.modify i fun p => { p with nextRegister := min p.nextRegister (t.maximumPrev + freq) } else r) = r' at hfirst ⊢
  refine hfirst.trans ?_
  split_ifs
  · exact serves_sendRegister freq now i r'
  · exact Serves.refl r'

lemma serves_newInfoLoops (now : ℤ) (r : CRegister) : Serves r (r.newInfoLoops freq now) := by
  have hround : ∀ (l : List (Fin 4)) (x : CRegister × NewInfoTimes), Serves x.1 (l.foldl (newInfoRound now) x).1 := by
    intro l
    induction l with
    | nil => exact fun x => Serves.refl x.1
    | cons i l ih => exact fun x => (serves_newInfoRound now x i).trans (ih _)
  exact (hround _ (r, ⟨-1, -1, none⟩)).trans (serves_forEnabled (fun r i => serves_newInfoSend freq now _ i r) _)

lemma serves_onNewInfo {info : List UInt8} {r : CRegister} (h : ¬(r.gotServerInfo = true ∧ r.serverInfo = info))
    (now : ℤ) : Serves (r.store info) (r.onNewInfo freq now info) := by
  rw [onNewInfo, if_neg fun h' => h ⟨h'.1, strComp_eq_iff.1 h'.2⟩]
  split_ifs
  · exact serves_newInfoLoops freq now _
  · exact Serves.refl _

lemma fresh_store {r : CRegister} (h : r.Sound) (info : List UInt8) : (r.store info).Fresh :=
  ⟨Int.lt_add_one_of_le h.successful, fun q hq => Int.lt_add_one_of_le (h.requests q hq)⟩

lemma sound_store {r : CRegister} (h : r.Sound) (info : List UInt8) : (r.store info).Sound :=
  ⟨(fresh_store h info).successful.le, fun q hq => ((fresh_store h info).requests q hq).le⟩

lemma sound_step {r : CRegister} (h : r.Sound) (e : Event) : (step freq r e).Sound := by
  by_cases he : e.isNewInfo = true
  · cases e with
    | newInfo now info =>
      by_cases hsame : r.gotServerInfo = true ∧ r.serverInfo = info
      · rw [step, onNewInfo_same freq hsame]
        exact h
      · exact (serves_onNewInfo freq hsame now).sound (sound_store h info)
    | _ => exact absurd he Bool.noConfusion
  · exact (serves_step freq (by simpa using he) r).sound h

/-- Every register is sound. -/
lemma sound_run (events : List Event) : (run freq init events).Sound := by
  have hrun : ∀ (events : List Event) (r : CRegister), r.Sound → (run freq r events).Sound := by
    intro events
    induction events with
    | nil => exact fun r h => h
    | cons e events ih => exact fun r h => ih _ (sound_step freq h e)
  exact hrun events init ⟨le_rfl, by simp [init]⟩

/-! ### The document of the server -/

/-- The document is stored as it is; all register requests until the next document have no body or this document, and
the first one has it if it is new; and the same document again changes nothing. -/
def Carries (r : CRegister) (now : ℤ) (s : InfoSource) : Prop :=
  ∃ info, s.updateRegisterServerInfo = some info ∧ Lib.Json.IsText info ∧ (r.onNewInfo freq now info).serverInfo = info ∧
    ∀ events : List Event, (∀ e ∈ events, e.isNewInfo = false) →
      (∃ new, (run freq (r.onNewInfo freq now info) events).requests = r.requests ++ new ∧
        (∀ q ∈ new, q.body = none ∨ q.body = some info) ∧
        (¬(r.gotServerInfo = true ∧ r.serverInfo = info) → ∀ q ∈ new.head?, q.body = some info)) ∧
      ∀ now', (run freq (r.onNewInfo freq now info) events).onNewInfo freq now' info =
        run freq (r.onNewInfo freq now info) events

lemma length_strCopy_lt {size : ℕ} (hsize : 0 < size) (str : List UInt8) : (strCopy size str).length < size := by
  have hle := (strUtf8FixTruncation_isPrefix (str.take (size - 1))).length_le
  rw [List.length_take] at hle
  rw [strCopy]
  omega

/-- The document ends in a line break, so it is stored as it is if it fits. -/
lemma strCopy_document {s : InfoSource} (hfits : infoSize s < serverInfoSize) :
    strCopy serverInfoSize s.document = s.document := by
  rw [← length_document] at hfits
  rw [strCopy, List.take_of_length_le (by omega)]
  exact strUtf8FixTruncation_ascii (s.info 0) (by decide)

/-- A document that does not fit is not stored as it is. -/
lemma not_carries_of_long {r : CRegister} {s : InfoSource} (hstored : r.serverInfo.length < serverInfoSize)
    (hlong : ¬infoSize s < serverInfoSize) (now : ℤ) : ¬Carries freq r now s := by
  rintro ⟨info, hinfo, -, hserver, -⟩
  obtain rfl := Option.some.inj (hinfo.symm.trans (updateRegisterServerInfo_eq s))
  rw [← length_document] at hlong
  by_cases hsame : r.gotServerInfo = true ∧ r.serverInfo = s.document
  · exact hlong (hsame.2 ▸ hstored)
  · rw [(serves_onNewInfo freq hsame now).serverInfo] at hserver
    have hlen := length_strCopy_lt (show 0 < serverInfoSize by decide) s.document
    rw [show strCopy serverInfoSize s.document = s.document from hserver] at hlen
    exact hlong hlen

/-- What is stored fits the buffer. -/
lemma length_serverInfo_run (events : List Event) : (run freq init events).serverInfo.length < serverInfoSize := by
  have hstep : ∀ (r : CRegister) (e : Event), r.serverInfo.length < serverInfoSize →
      (step freq r e).serverInfo.length < serverInfoSize := by
    intro r e h
    by_cases he : e.isNewInfo = true
    · cases e with
      | newInfo now info =>
        by_cases hsame : r.gotServerInfo = true ∧ r.serverInfo = info
        · rwa [step, onNewInfo_same freq hsame]
        · rw [step, (serves_onNewInfo freq hsame now).serverInfo]
          exact length_strCopy_lt (by decide) info
      | _ => exact absurd he Bool.noConfusion
    · rwa [(serves_step freq (by simpa using he) r).serverInfo]
  have hrun : ∀ (events : List Event) (r : CRegister), r.serverInfo.length < serverInfoSize →
      (run freq r events).serverInfo.length < serverInfoSize := by
    intro events
    induction events with
    | nil => exact fun r h => h
    | cons e events ih => exact fun r h => ih _ (hstep r e h)
  exact hrun events init (by decide)

/-- In every state of the register, the document of the server is stored, sent and recognised as it is if and only if it
has less than 16384 bytes. -/
theorem carries_iff (before : List Event) (now : ℤ) (s : InfoSource) :
    Carries freq (run freq init before) now s ↔ infoSize s < serverInfoSize := by
  by_cases hfits : infoSize s < serverInfoSize
  swap
  · exact iff_of_false (not_carries_of_long freq (length_serverInfo_run freq before) hfits now) hfits
  refine iff_of_true ⟨s.document, updateRegisterServerInfo_eq s, isText_document s, ?_⟩ hfits
  have hsound := sound_run freq before
  generalize run freq init before = r at hsound
  by_cases hsame : r.gotServerInfo = true ∧ r.serverInfo = s.document
  · rw [onNewInfo_same freq hsame]
    refine ⟨hsame.2, fun events hevents => ?_⟩
    have hserves := serves_run freq hevents r
    obtain ⟨new, hnew, hbodies⟩ := hserves.requests
    refine ⟨⟨new, hnew, fun q hq => hsame.2 ▸ hbodies q hq, fun h => absurd hsame h⟩, fun now' => ?_⟩
    exact onNewInfo_same freq ⟨hserves.gotServerInfo.trans hsame.1, hserves.serverInfo.trans hsame.2⟩ now'
  · have hstored : (r.store s.document).serverInfo = s.document := strCopy_document hfits
    have hnewInfo := serves_onNewInfo freq hsame now
    refine ⟨hnewInfo.serverInfo.trans hstored, fun events hevents => ?_⟩
    have hserves := hnewInfo.trans (serves_run freq hevents _)
    obtain ⟨new, hnew, hbodies⟩ := hserves.requests
    refine ⟨⟨new, hnew, fun q hq => hstored ▸ hbodies q hq, fun _ q hq => ?_⟩, fun now' => ?_⟩
    · rcases hserves.first (fresh_store hsound s.document) with ⟨hnone, -⟩ | ⟨q', rest, hfirst, hbody⟩
      · have hnil : new = [] := List.append_right_eq_self.1 (hnew.symm.trans hnone)
        exact absurd hq (by simp [hnil])
      · rw [hnew, List.append_cancel_left_eq] at hfirst
        rw [hfirst, List.head?_cons, Option.mem_some_iff] at hq
        rw [← hq, hbody, hstored]
    · exact onNewInfo_same freq ⟨hserves.gotServerInfo, hserves.serverInfo.trans hstored⟩ now'

end CRegister

/-! ### A full server -/

/-- A client of 0.7 with the default skin in its own colors. -/
def coloredClient (name : List UInt8) : InfoClient where
  stateEmpty := false
  stateIngame := true
  debugDummy := false
  sixup := true
  name := name
  clan := []
  country := -1
  score := none
  player := some {
    teeInfos := {
      skinName := []
      useCustomColor := 0
      colorBody := 0
      colorFeet := 0
      skinParts := [(ofChars ['s', 't', 'a', 'n', 'd', 'a', 'r', 'd'], true, 1798004),
        ([], true, 0), ([], true, 0), (ofChars ['s', 't', 'a', 'n', 'd', 'a', 'r', 'd'], true, 1798004),
        (ofChars ['s', 't', 'a', 'n', 'd', 'a', 'r', 'd'], true, 1869630), (ofChars ['s', 't', 'a', 'n', 'd', 'a', 'r', 'd'], true, 0)]
      skinParts_length := rfl }
    isAfk := false
    team := 0
    ddraceTeam := 0 }

/-- A server with 64 such clients, whose names have two letters. -/
def fullServer : InfoSource where
  netMaxClients := 64
  svSpectatorSlots := 0
  svReservedSlots := 0
  password := []
  gameType := ofChars ['D', 'D', 'r', 'a', 'c', 'e', 'N', 'e', 't', 'w', 'o', 'r', 'k']
  svName := ofChars ['u', 'n', 'n', 'a', 'm', 'e', 'd', ' ', 's', 'e', 'r', 'v', 'e', 'r']
  mapName := ofChars ['S', 'u', 'n', 'n', 'y', ' ', 'S', 'i', 'd', 'e', ' ', 'U', 'p']
  mapSha256 := List.replicate 32 0
  mapSize := 0
  version := []
  isTeamPlay := false
  clients := (List.range 64).map fun i => coloredClient [UInt8.ofNat (97 + i / 10), UInt8.ofNat (97 + i % 10)]
  clients_length := by rw [List.length_map, List.length_range]

lemma le_clientSize (name : List UInt8) : 252 ≤ clientSize false (coloredClient name) := by
  have hskin : 252 ≤ skinSize true ⟨[], 0, 0, 0, [(ofChars ['s', 't', 'a', 'n', 'd', 'a', 'r', 'd'], true, 1798004),
      ([], true, 0), ([], true, 0), (ofChars ['s', 't', 'a', 'n', 'd', 'a', 'r', 'd'], true, 1798004),
      (ofChars ['s', 't', 'a', 'n', 'd', 'a', 'r', 'd'], true, 1869630),
      (ofChars ['s', 't', 'a', 'n', 'd', 'a', 'r', 'd'], true, 0)], rfl⟩ := by decide
  rw [clientSize]
  exact hskin.trans (by simp only [coloredClient]; omega)

/-- The document of the full server is cut. -/
theorem not_carries_fullServer : ¬CRegister.Carries 1000000000 CRegister.init 0 fullServer := by
  refine CRegister.not_carries_of_long 1000000000 (by decide) ?_ 0
  have hincluded : fullServer.included = fullServer.clients := by
    refine List.filter_eq_self.2 ?_
    rintro c hc
    obtain ⟨i, -, rfl⟩ := List.mem_map.1 hc
    rfl
  have hsum : ∀ l : List InfoClient, (∀ c ∈ l, ∃ name, c = coloredClient name) →
      l.length * 256 ≤ (l.map fun c => clientSize fullServer.isTeamPlay c + 4).sum := by
    intro l hl
    induction l with
    | nil => exact le_rfl
    | cons c l ih =>
      obtain ⟨name, rfl⟩ := hl c List.mem_cons_self
      have hfirst : 252 ≤ clientSize fullServer.isTeamPlay (coloredClient name) := le_clientSize name
      have hrest := ih fun c hc => hl c (List.mem_cons_of_mem _ hc)
      rw [List.map_cons, List.sum_cons, List.length_cons, Nat.add_mul, Nat.one_mul, Nat.add_comm]
      exact Nat.add_le_add (Nat.add_le_add_right hfirst 4) hrest
  have hclients := hsum fullServer.clients (by
    rintro c hc
    obtain ⟨i, -, rfl⟩ := List.mem_map.1 hc
    exact ⟨_, rfl⟩)
  rw [fullServer.clients_length] at hclients
  rw [infoSize, hincluded, serverInfoSize]
  generalize (fullServer.clients.map fun c => clientSize fullServer.isTeamPlay c + 4).sum = n at hclients ⊢
  omega

end DDNet
