/-
Server infos from JSON (`CServerInfo2::FromJson`, `engine/shared/serverinfo.cpp`).

A document may list more clients than `m_aClients` has room for: all of them are counted, the first ones are stored.  The
conversion to `CServerInfo` takes that into account and the comparison does not; and the check of a clan for control
characters looks at the name instead (`fromJson_safe_iff`).
-/
import DDNet.Base.Memory
import DDNet.Base.StrParse
import Mathlib.Data.Bool.AllAny
import Mathlib.Data.List.Forall2

namespace DDNet

/-- `json_value`; the value of a double is not used. -/
inductive JsonValue
  | none
  | object (members : List (List UInt8 × JsonValue))
  | array (values : List JsonValue)
  | integer (value : ℤ)
  | double
  | string (str : List UInt8)
  | boolean (value : Bool)
  | null

namespace JsonValue

/-- `operator[]` for the name of a member: the first one of this name. -/
def get (v : JsonValue) (name : List UInt8) : JsonValue :=
  match v with
  | object members => ((members.find? fun member => cstrOf member.1 = name).map Prod.snd).getD none
  | _ => none

/-- A string as the C string that it is used as. -/
def str : JsonValue → Option (List UInt8)
  | string s => some (cstrOf s)
  | _ => Option.none

/-- `json_int_get` of an integer. -/
def int : JsonValue → Option ℤ
  | integer value => some (toInt32 value)
  | _ => Option.none

/-- A boolean. -/
def bool : JsonValue → Option Bool
  | boolean value => some value
  | _ => Option.none

/-- The values of an array. -/
def values : JsonValue → Option (List JsonValue)
  | array values => some values
  | _ => Option.none

end JsonValue

/-- `str_has_cc`. -/
def strHasCc (s : List UInt8) : Bool := s.any fun c => c.toNat < 32

/-- `SERVERINFO_MAX_CLIENTS`. -/
def serverinfoMaxClients : ℕ := 128

/-- `CServerInfo::EClientScoreKind`, as far as it is in a document. -/
inductive ClientScoreKind
  | unspecified
  | points
  | time
deriving DecidableEq

/-- `CServerInfo2::CClient`. -/
structure ServerInfoClient where
  name : List UInt8
  clan : List UInt8
  country : ℤ
  score : ℤ
  isPlayer : Bool
  isAfk : Bool
  skin : List UInt8
  customSkinColors : Bool
  customSkinColorBody : ℤ
  customSkinColorFeet : ℤ

/-- A record that is zeroed. -/
def ServerInfoClient.zero : ServerInfoClient := ⟨[], [], 0, 0, false, false, [], false, 0, 0⟩

/-- `CServerInfo2`. -/
structure CServerInfo2 where
  clients : Vector ServerInfoClient serverinfoMaxClients
  maxClients : ℤ
  numClients : ℤ
  maxPlayers : ℤ
  numPlayers : ℤ
  clientScoreKind : ClientScoreKind
  passworded : Bool
  gameType : List UInt8
  name : List UInt8
  mapName : List UInt8
  version : List UInt8
  requiresLogin : Bool

namespace CServerInfo2

/-! ### Reading -/

/-- A string without control characters. -/
def checked (v : JsonValue) : Option (List UInt8) := v.str.filter fun s => !strHasCc s

/-- The skin of a client. -/
def withSkin (client : ServerInfoClient) (skinObj : JsonValue) : ServerInfoClient :=
  match (skinObj.get (ofChars "name".toList)).str with
  | none => { client with skin := [] }
  | some skinName =>
    let skin := strCopy 25 skinName
    let client := { client with skin := if skin = [] then ofChars "default".toList else skin }
    match (skinObj.get (ofChars "color_body".toList)).int, (skinObj.get (ofChars "color_feet".toList)).int with
    | some body, some feet =>
      { client with customSkinColors := true, customSkinColorBody := body, customSkinColorFeet := feet }
    | _, _ => { client with customSkinColors := false }

/-- The checks and the record of a client; the check of the clan has the name in it. -/
def parseClient (client : JsonValue) : Option ServerInfoClient :=
  (checked (client.get (ofChars "name".toList))).bind fun clientName =>
  ((client.get (ofChars "clan".toList)).str.filter fun _ => !strHasCc clientName).bind fun clan =>
  (client.get (ofChars "country".toList)).int.bind fun country =>
  (client.get (ofChars "score".toList)).int.bind fun score =>
  (client.get (ofChars "is_player".toList)).bool.map fun isPlayer =>
    withSkin
      { ServerInfoClient.zero with
        name := strCopy 16 clientName
        clan := strCopy 12 clan
        country := country
        score := score
        isPlayer := isPlayer
        isAfk := (client.get (ofChars "afk".toList)).bool.getD false }
      (client.get (ofChars "skin".toList))

/-- The loop over the clients, from the one with the index `i` on. -/
def addClients : List JsonValue → ℕ → CServerInfo2 → Option CServerInfo2
  | [], _, info => some info
  | client :: rest, i, info =>
    (parseClient client).bind fun parsed =>
      addClients rest (i + 1)
        { info with
          clients := info.clients.setIfInBounds i parsed
          numClients := info.numClients + 1
          numPlayers := if parsed.isPlayer then info.numPlayers + 1 else info.numPlayers }

/-- The kind of the scores. -/
def parseClientScoreKind (kind : JsonValue) : ClientScoreKind :=
  match kind.str with
  | none => .unspecified
  | some s =>
    if (strStartswith s (ofChars "points".toList)).isSome then .points
    else if (strStartswith s (ofChars "time".toList)).isSome then .time
    else .unspecified

/-- Whether the kind of the scores is none or a string. -/
def isKind : JsonValue → Bool
  | .none => true
  | .string _ => true
  | _ => false

/-- `FromJsonRaw`; `none` for an error. -/
def fromJsonRaw (json : JsonValue) : Option CServerInfo2 :=
  (json.get (ofChars "max_clients".toList)).int.bind fun maxClients =>
  (json.get (ofChars "max_players".toList)).int.bind fun maxPlayers =>
  (json.get (ofChars "passworded".toList)).bool.bind fun passworded =>
  (checked (json.get (ofChars "game_type".toList))).bind fun gameType =>
  (checked (json.get (ofChars "name".toList))).bind fun name =>
  (checked ((json.get (ofChars "map".toList)).get (ofChars "name".toList))).bind fun mapName =>
  (checked (json.get (ofChars "version".toList))).bind fun version =>
  (json.get (ofChars "clients".toList)).values.bind fun clients =>
  if isKind (json.get (ofChars "client_score_kind".toList)) then
    addClients clients 0
      { clients := Vector.replicate serverinfoMaxClients .zero
        maxClients := maxClients
        numClients := 0
        maxPlayers := maxPlayers
        numPlayers := 0
        clientScoreKind := parseClientScoreKind (json.get (ofChars "client_score_kind".toList))
        passworded := passworded
        gameType := strCopy 16 gameType
        name := strCopy 64 name
        mapName := strCopy 128 mapName
        version := strCopy 32 version
        requiresLogin := (json.get (ofChars "requires_login".toList)).bool.getD false }
  else none

/-- `Validate`: whether there is an error. -/
def validate (info : CServerInfo2) : Bool :=
  info.maxClients < info.maxPlayers || info.numClients < info.numPlayers || info.maxClients < info.numClients ||
    info.maxPlayers < info.numPlayers

/-- `FromJson`; `none` for an error. -/
def fromJson (json : JsonValue) : Option CServerInfo2 := (fromJsonRaw json).filter fun info => !info.validate

/-! ### Using -/

/-- Whether two clients are not told apart by `operator==`. -/
def sameClient (a b : ServerInfoClient) : Bool :=
  strComp a.name b.name == .eq && strComp a.clan b.clan == .eq && a.country == b.country && a.score == b.score &&
    a.isPlayer == b.isPlayer && a.isAfk == b.isAfk

/-- The loop of `operator==` over some number of clients, from the index `i` on; `none` if a record is read that is not
in the array. -/
def eqClients (a b : CServerInfo2) : ℕ → ℕ → Option Bool
  | 0, _ => some true
  | n + 1, i =>
    a.clients[i]?.bind fun x => b.clients[i]?.bind fun y =>
      if sameClient x y then eqClients a b n (i + 1) else some false

/-- `operator==`. -/
def eq (a b : CServerInfo2) : Option Bool :=
  if a.maxClients ≠ b.maxClients ∨ a.numClients ≠ b.numClients ∨ a.maxPlayers ≠ b.maxPlayers ∨
      a.numPlayers ≠ b.numPlayers ∨ a.clientScoreKind ≠ b.clientScoreKind ∨ a.passworded ≠ b.passworded ∨
      strComp a.gameType b.gameType ≠ .eq ∨ strComp a.name b.name ≠ .eq ∨ strComp a.mapName b.mapName ≠ .eq ∨
      strComp a.version b.version ≠ .eq ∨ a.requiresLogin ≠ b.requiresLogin then
    some false
  else eqClients a b a.numClients.toNat 0

/-- What the conversion to `CServerInfo` sets. -/
structure Converted where
  maxClients : ℤ
  numClients : ℤ
  maxPlayers : ℤ
  numPlayers : ℤ
  clientScoreKind : ClientScoreKind
  requiresLogin : Bool
  flags : ℤ
  gameType : List UInt8
  name : List UInt8
  map : List UInt8
  version : List UInt8
  clients : List ServerInfoClient
  numReceivedClients : ℤ
  latency : ℤ

/-- `SERVER_FLAG_PASSWORD`. -/
def serverFlagPassword : ℤ := 1

/-- The conversion to `CServerInfo`; `none` if a record is read that is not in the array. -/
def convert (info : CServerInfo2) : Option Converted :=
  let numReceivedClients := min info.numClients serverinfoMaxClients
  ((List.range numReceivedClients.toNat).mapM fun i => info.clients[i]?).map fun clients =>
    { maxClients := info.maxClients
      numClients := info.numClients
      maxPlayers := info.maxPlayers
      numPlayers := info.numPlayers
      clientScoreKind := info.clientScoreKind
      requiresLogin := info.requiresLogin
      flags := if info.passworded then serverFlagPassword else 0
      gameType := strCopy 16 info.gameType
      name := strCopy 64 info.name
      map := strCopy 128 info.mapName
      version := strCopy 32 info.version
      clients := clients.map fun client =>
        { client with name := strCopy 16 client.name, clan := strCopy 12 client.clan, skin := strCopy 25 client.skin }
      numReceivedClients := numReceivedClients
      latency := -1 }

/-! ### What is safe -/

/-- The clients that the document lists. -/
def listed (json : JsonValue) : List JsonValue := (json.get (ofChars "clients".toList)).values.getD []

/-- The clan of a client, as far as it is stored. -/
def storedClan (client : JsonValue) : List UInt8 :=
  strCopy 12 ((client.get (ofChars "clan".toList)).str.getD [])

/-- Whether a client is a player. -/
def listedPlayer (client : JsonValue) : Bool := (client.get (ofChars "is_player".toList)).bool.getD false

/-- The text fits into its array with a terminator behind it, and has no control characters, among them the
terminator. -/
def Displayed (size : ℕ) (text : List UInt8) : Prop := text.length < size ∧ ∀ c ∈ text, 32 ≤ c.toNat

/-- The info can be displayed, compared and converted, and its counts are right. -/
structure Safe (json : JsonValue) (info : CServerInfo2) : Prop where
  gameType : Displayed 16 info.gameType
  name : Displayed 64 info.name
  mapName : Displayed 128 info.mapName
  version : Displayed 32 info.version
  clients : ∀ client ∈ info.clients.toList, Displayed 16 client.name ∧ Displayed 12 client.clan
  numClients : info.numClients = (listed json).length
  numPlayers : info.numPlayers = (listed json).countP listedPlayer
  counts : 0 ≤ info.numPlayers ∧ info.numPlayers ≤ info.numClients ∧ info.numClients ≤ info.maxClients
  comparison : ∀ json' info', fromJson json' = some info' → (info.eq info').isSome ∧ (info'.eq info).isSome
  conversion : info.convert.isSome

/-- All clients have a record, and no clan that is stored has a control character. -/
def Fits (json : JsonValue) : Prop :=
  (listed json).length ≤ serverinfoMaxClients ∧ ∀ client ∈ listed json, ∀ c ∈ storedClan client, 32 ≤ c.toNat

/-! ### Reading is safe -/

lemma length_strCopy_lt (text : List UInt8) {size : ℕ} (hsize : 0 < size) : (strCopy size text).length < size := by
  have hlength : (strCopy size text).length ≤ (text.take (size - 1)).length :=
    (strUtf8FixTruncation_isPrefix _).length_le
  rw [List.length_take] at hlength
  omega

lemma displayed_strCopy {text : List UInt8} {size : ℕ} (h : ∀ c ∈ text, 32 ≤ c.toNat) (hsize : 0 < size) :
    Displayed size (strCopy size text) :=
  ⟨length_strCopy_lt text hsize, fun c hc => h c ((strCopy_isPrefix size text).subset hc)⟩

lemma checked_spec {v : JsonValue} {text : List UInt8} (h : checked v = some text) : ∀ c ∈ text, 32 ≤ c.toNat := by
  rw [checked, Option.filter_eq_some_iff] at h
  rintro c hc
  have hcc := h.2
  rw [strHasCc, Bool.not_eq_true', List.any_eq_false] at hcc
  exact Nat.le_of_not_lt fun hlt => hcc c hc (decide_eq_true hlt)

/-- The skin has no part in the rest of the record. -/
lemma withSkin_fields (client : ServerInfoClient) (skinObj : JsonValue) :
    (withSkin client skinObj).name = client.name ∧ (withSkin client skinObj).clan = client.clan ∧
      (withSkin client skinObj).isPlayer = client.isPlayer := by
  rw [withSkin]
  split
  · exact ⟨rfl, rfl, rfl⟩
  · dsimp only
    split
    · exact ⟨rfl, rfl, rfl⟩
    · exact ⟨rfl, rfl, rfl⟩

lemma parseClient_spec {client : JsonValue} {parsed : ServerInfoClient} (h : parseClient client = some parsed) :
    Displayed 16 parsed.name ∧ parsed.clan = storedClan client ∧ parsed.isPlayer = listedPlayer client := by
  rw [parseClient] at h
  obtain ⟨name, hname, h⟩ := Option.bind_eq_some_iff.1 h
  obtain ⟨clan, hclan, h⟩ := Option.bind_eq_some_iff.1 h
  obtain ⟨country, -, h⟩ := Option.bind_eq_some_iff.1 h
  obtain ⟨score, -, h⟩ := Option.bind_eq_some_iff.1 h
  obtain ⟨isPlayer, hisPlayer, rfl⟩ := Option.map_eq_some_iff.1 h
  obtain ⟨hwithName, hwithClan, hwithPlayer⟩ := withSkin_fields
    { ServerInfoClient.zero with
      name := strCopy 16 name
      clan := strCopy 12 clan
      country := country
      score := score
      isPlayer := isPlayer
      isAfk := (client.get (ofChars "afk".toList)).bool.getD false }
    (client.get (ofChars "skin".toList))
  rw [hwithName, hwithClan, hwithPlayer, storedClan, listedPlayer, hisPlayer, (Option.filter_eq_some_iff.1 hclan).1]
  exact ⟨displayed_strCopy (checked_spec hname) (by decide), rfl, rfl⟩

/-- The records from the index `i` on are set, as far as there are any. -/
def fill (clients : Vector ServerInfoClient serverinfoMaxClients) (i : ℕ) :
    List ServerInfoClient → Vector ServerInfoClient serverinfoMaxClients
  | [] => clients
  | parsed :: rest => fill (clients.setIfInBounds i parsed) (i + 1) rest

lemma getElem_fill (clients : Vector ServerInfoClient serverinfoMaxClients) (i : ℕ) (parsed : List ServerInfoClient)
    {k : ℕ} (hk : k < serverinfoMaxClients) :
    (fill clients i parsed)[k] = if i ≤ k then parsed.getD (k - i) clients[k] else clients[k] := by
  induction parsed generalizing clients i with
  | nil => rw [fill, List.getD_nil, ite_self]
  | cons p parsed ih =>
    rw [fill, ih, Vector.getElem_setIfInBounds]
    rcases Nat.lt_trichotomy i k with hlt | rfl | hlt
    · rw [if_pos (Nat.succ_le_of_lt hlt), if_neg (by omega), if_pos (by omega), show k - i = (k - (i + 1)) + 1 by omega,
        List.getD_cons_succ]
    · rw [if_neg (by omega), if_pos rfl, if_pos le_rfl, Nat.sub_self, List.getD_cons_zero]
    · rw [if_neg (by omega), if_neg (by omega), if_neg (by omega)]

/-- What the loop over the clients does. -/
lemma addClients_spec {clients : List JsonValue} {i : ℕ} {info info' : CServerInfo2}
    (h : addClients clients i info = some info') :
    ∃ parsed, List.Forall₂ (fun client p => parseClient client = some p) clients parsed ∧
      info' = { info with
        clients := fill info.clients i parsed
        numClients := info.numClients + clients.length
        numPlayers := info.numPlayers + parsed.countP ServerInfoClient.isPlayer } := by
  induction clients generalizing i info with
  | nil =>
    obtain rfl := Option.some.inj h
    exact ⟨[], .nil, by simp [fill]⟩
  | cons client clients ih =>
    obtain ⟨p, hp, hrest⟩ := Option.bind_eq_some_iff.1 h
    obtain ⟨parsed, hparsed, rfl⟩ := ih hrest
    refine ⟨p :: parsed, .cons hp hparsed, ?_⟩
    have hclients : info.numClients + 1 + (clients.length : ℤ) = info.numClients + ((client :: clients).length : ℤ) := by
      rw [List.length_cons]
      omega
    have hplayers : (if p.isPlayer then info.numPlayers + 1 else info.numPlayers) +
        (parsed.countP ServerInfoClient.isPlayer : ℤ) =
          info.numPlayers + ((p :: parsed).countP ServerInfoClient.isPlayer : ℤ) := by
      rw [List.countP_cons]
      split_ifs
      · omega
      · rfl
    dsimp only
    rw [hclients, hplayers]
    rfl

/-- What is read of a document. -/
lemma fromJson_spec {json : JsonValue} {info : CServerInfo2} (h : fromJson json = some info) :
    (Displayed 16 info.gameType ∧ Displayed 64 info.name ∧ Displayed 128 info.mapName ∧ Displayed 32 info.version) ∧
      info.validate = false ∧
      ∃ parsed, List.Forall₂ (fun client p => parseClient client = some p) (listed json) parsed ∧
        info.clients = fill (Vector.replicate serverinfoMaxClients .zero) 0 parsed ∧
        info.numClients = (listed json).length ∧ info.numPlayers = parsed.countP ServerInfoClient.isPlayer := by
  rw [fromJson, Option.filter_eq_some_iff, fromJsonRaw] at h
  obtain ⟨h, hvalid⟩ := h
  obtain ⟨maxClients, -, h⟩ := Option.bind_eq_some_iff.1 h
  obtain ⟨maxPlayers, -, h⟩ := Option.bind_eq_some_iff.1 h
  obtain ⟨passworded, -, h⟩ := Option.bind_eq_some_iff.1 h
  obtain ⟨gameType, hgameType, h⟩ := Option.bind_eq_some_iff.1 h
  obtain ⟨name, hname, h⟩ := Option.bind_eq_some_iff.1 h
  obtain ⟨mapName, hmapName, h⟩ := Option.bind_eq_some_iff.1 h
  obtain ⟨version, hversion, h⟩ := Option.bind_eq_some_iff.1 h
  obtain ⟨clients, hclients, h⟩ := Option.bind_eq_some_iff.1 h
  have hlisted : listed json = clients := congrArg (Option.getD · []) hclients
  split_ifs at h with hkind
  obtain ⟨parsed, hparsed, rfl⟩ := addClients_spec h
  rw [hlisted]
  refine ⟨⟨?_, ?_, ?_, ?_⟩, ?_, parsed, hparsed, rfl, Int.zero_add _, Int.zero_add _⟩
  · exact displayed_strCopy (checked_spec hgameType) (by decide)
  · exact displayed_strCopy (checked_spec hname) (by decide)
  · exact displayed_strCopy (checked_spec hmapName) (by decide)
  · exact displayed_strCopy (checked_spec hversion) (by decide)
  · rwa [Bool.not_eq_true'] at hvalid

lemma countP_isPlayer {clients : List JsonValue} {parsed : List ServerInfoClient}
    (h : List.Forall₂ (fun client p => parseClient client = some p) clients parsed) :
    parsed.countP ServerInfoClient.isPlayer = clients.countP listedPlayer := by
  induction h with
  | nil => rfl
  | cons hp _ ih => rw [List.countP_cons, List.countP_cons, ih, (parseClient_spec hp).2.2]

/-! ### Comparing and converting -/

lemma sameClient_self (client : ServerInfoClient) : sameClient client client = true := by
  simp [sameClient, strComp_self]

lemma getElem?_of_lt (info : CServerInfo2) {i : ℕ} (hi : i < serverinfoMaxClients) :
    info.clients[i]? = some info.clients[i] := by
  exact Vector.getElem?_eq_getElem hi

/-- Records that are in the array are compared. -/
lemma eqClients_isSome (a b : CServerInfo2) {n i : ℕ} (h : i + n ≤ serverinfoMaxClients) :
    (eqClients a b n i).isSome := by
  induction n generalizing i with
  | zero => rfl
  | succ n ih =>
    rw [eqClients, getElem?_of_lt a (by omega), getElem?_of_lt b (by omega), Option.bind_some, Option.bind_some]
    split_ifs
    · exact ih (by omega)
    · rfl

lemma eq_isSome (a b : CServerInfo2) (h : a.numClients ≤ serverinfoMaxClients) : (a.eq b).isSome := by
  rw [eq]
  split_ifs
  · rfl
  · exact eqClients_isSome a b (by omega)

/-- With itself, an info is compared up to the last client that is counted. -/
lemma eqClients_self_none (info : CServerInfo2) {n i : ℕ} (hi : i ≤ serverinfoMaxClients)
    (hn : serverinfoMaxClients < i + n) : eqClients info info n i = none := by
  induction n generalizing i with
  | zero => exact absurd hn (Nat.not_lt.2 hi)
  | succ n ih =>
    rw [eqClients]
    rcases Nat.lt_or_eq_of_le hi with hlt | rfl
    · rw [getElem?_of_lt info hlt, Option.bind_some, Option.bind_some, if_pos (sameClient_self _)]
      exact ih hlt (by omega)
    · rw [Vector.getElem?_eq_none le_rfl]
      rfl

lemma eq_self_none (info : CServerInfo2) (h : (serverinfoMaxClients : ℤ) < info.numClients) : info.eq info = none := by
  have hequal : ∀ text : List UInt8, ¬strComp text text ≠ .eq := fun text => not_not.2 (strComp_self text)
  rw [eq, if_neg]
  · exact eqClients_self_none info (Nat.zero_le _) (by omega)
  · simp only [hequal, ne_eq, not_true_eq_false, or_self, not_false_eq_true]

lemma convert_isSome (info : CServerInfo2) : info.convert.isSome := by
  have hread : ∀ indices : List ℕ, (∀ i ∈ indices, i < serverinfoMaxClients) →
      ∃ clients, (indices.mapM fun i => info.clients[i]?) = some clients := by
    intro indices hindices
    induction indices with
    | nil => exact ⟨[], rfl⟩
    | cons i indices ih =>
      rw [List.forall_mem_cons] at hindices
      obtain ⟨clients, hclients⟩ := ih hindices.2
      have hi := hindices.1
      refine ⟨info.clients[i] :: clients, ?_⟩
      rw [List.mapM_cons, hclients, getElem?_of_lt info hi]
      rfl
  obtain ⟨clients, hclients⟩ := hread (List.range (min info.numClients serverinfoMaxClients).toNat) fun i hi => by
    rw [List.mem_range] at hi
    omega
  rw [convert, hclients]
  rfl

/-! ### Safety -/

/-- The record of a listed client. -/
lemma getElem_clients {parsed : List ServerInfoClient} {k : ℕ} (hk : k < serverinfoMaxClients) :
    (fill (Vector.replicate serverinfoMaxClients .zero) 0 parsed)[k] = parsed.getD k .zero := by
  rw [getElem_fill _ _ _ hk, if_pos (Nat.zero_le k), Nat.sub_zero, Vector.getElem_replicate]

variable {json : JsonValue} {info : CServerInfo2}

lemma fits_of_safe (h : fromJson json = some info) (hsafe : Safe json info) : Fits json := by
  obtain ⟨-, -, parsed, hparsed, hclients, hnumClients, -⟩ := fromJson_spec h
  have hfits : (listed json).length ≤ serverinfoMaxClients := by
    by_contra hmany
    have hself := (hsafe.comparison json info h).1
    rw [eq_self_none info (by omega)] at hself
    exact Bool.false_ne_true hself
  refine ⟨hfits, fun client hclient c hc => ?_⟩
  obtain ⟨i, hi, rfl⟩ := List.getElem_of_mem hclient
  have hi' : i < parsed.length := hparsed.length_eq ▸ hi
  have hp := hparsed.get hi hi'
  rw [List.get_eq_getElem, List.get_eq_getElem] at hp
  have hrecord : i < serverinfoMaxClients := hi.trans_le hfits
  have hstored : info.clients[i] = parsed[i] := by
    simp only [hclients]
    rw [getElem_clients hrecord, List.getD_eq_getElem _ _ hi']
  have hmem : parsed[i] ∈ info.clients.toList := by
    rw [← hstored]
    exact Vector.mem_toList_iff.2 (Vector.getElem_mem _)
  have hdisplayed := (hsafe.clients _ hmem).2
  rw [(parseClient_spec hp).2.1] at hdisplayed
  exact hdisplayed.2 c hc

lemma safe_of_fits (h : fromJson json = some info) (hfits : Fits json) : Safe json info := by
  obtain ⟨⟨hgameType, hname, hmapName, hversion⟩, hvalid, parsed, hparsed, hclients, hnumClients, hnumPlayers⟩ :=
    fromJson_spec h
  obtain ⟨hmany, hclans⟩ := hfits
  have hcounts : info.numPlayers ≤ info.numClients ∧ info.numClients ≤ info.maxClients := by
    rw [validate, Bool.or_eq_false_iff, Bool.or_eq_false_iff, Bool.or_eq_false_iff] at hvalid
    obtain ⟨⟨⟨-, hplayers⟩, hmax⟩, -⟩ := hvalid
    rw [decide_eq_false_iff_not] at hplayers hmax
    omega
  refine ⟨hgameType, hname, hmapName, hversion, fun client hclient => ?_, hnumClients, ?_, ⟨?_, hcounts⟩,
    fun json' info' h' => ⟨?_, ?_⟩, convert_isSome info⟩
  · obtain ⟨k, hk, rfl⟩ := List.getElem_of_mem hclient
    rw [Vector.length_toList] at hk
    rw [Vector.getElem_toList]
    simp only [hclients]
    rw [getElem_clients hk]
    by_cases hkp : k < parsed.length
    · rw [List.getD_eq_getElem _ _ hkp]
      have hp := hparsed.get (hparsed.length_eq ▸ hkp) hkp
      rw [List.get_eq_getElem, List.get_eq_getElem] at hp
      obtain ⟨hdisplayed, hclan, -⟩ := parseClient_spec hp
      refine ⟨hdisplayed, ?_⟩
      rw [hclan]
      exact ⟨length_strCopy_lt _ (by decide), hclans _ (List.getElem_mem _)⟩
    · rw [List.getD_eq_default _ _ (Nat.le_of_not_lt hkp)]
      exact ⟨⟨by decide, fun c hc => absurd hc List.not_mem_nil⟩, by decide, fun c hc => absurd hc List.not_mem_nil⟩
  · rw [hnumPlayers, countP_isPlayer hparsed]
  · rw [hnumPlayers]
    exact Int.natCast_nonneg _
  · exact eq_isSome info info' (by omega)
  · by_cases hmany' : info'.numClients ≤ serverinfoMaxClients
    · exact eq_isSome info' info hmany'
    · rw [eq, if_pos (.inr (.inl (by omega)))]
      rfl

/-- A document that is read is safe if and only if every client has a record and the clans that are stored have no
control characters. -/
theorem fromJson_safe_iff (json : JsonValue) (info : CServerInfo2) (h : fromJson json = some info) :
    Safe json info ↔ Fits json := ⟨fits_of_safe h, safe_of_fits h⟩

/-! ### Samples -/

/-- A client of the samples. -/
def sampleClient (clan : List UInt8) : JsonValue :=
  .object [(ofChars "name".toList, .string (ofChars "nameless tee".toList)), (ofChars "clan".toList, .string clan),
    (ofChars "country".toList, .integer (-1)), (ofChars "score".toList, .integer 0),
    (ofChars "is_player".toList, .boolean true)]

/-- A document with some clients. -/
def sampleJson (clients : List JsonValue) : JsonValue :=
  .object [(ofChars "max_clients".toList, .integer 1000), (ofChars "max_players".toList, .integer 1000),
    (ofChars "passworded".toList, .boolean false), (ofChars "game_type".toList, .string (ofChars "DDNet".toList)),
    (ofChars "name".toList, .string (ofChars "server".toList)),
    (ofChars "map".toList, .object [(ofChars "name".toList, .string (ofChars "dm1".toList))]),
    (ofChars "version".toList, .string (ofChars "0.6.4".toList)), (ofChars "clients".toList, .array clients)]

/-- A document with a client in a clan is safe. -/
theorem fromJson_safe_sample :
    ∃ info, fromJson (sampleJson [sampleClient (ofChars "clan".toList)]) = some info ∧
      Safe (sampleJson [sampleClient (ofChars "clan".toList)]) info := by
  obtain ⟨info, hinfo⟩ := Option.isSome_iff_exists.1
    (rfl : (fromJson (sampleJson [sampleClient (ofChars "clan".toList)])).isSome = true)
  exact ⟨info, hinfo, (fromJson_safe_iff _ info hinfo).2 ⟨by decide,
    List.forall_mem_singleton.2 (List.all_iff_forall_prop.1 (by decide))⟩⟩

/-- A line break in a clan is stored. -/
theorem fromJson_not_safe : ¬∀ (json : JsonValue) (info : CServerInfo2), fromJson json = some info → Safe json info := by
  rintro h
  obtain ⟨info, hinfo⟩ := Option.isSome_iff_exists.1 (rfl : (fromJson (sampleJson [sampleClient [10]])).isSome = true)
  have hlisted : listed (sampleJson [sampleClient [10]]) = [sampleClient [10]] := rfl
  have hclan := (fits_of_safe hinfo (h _ info hinfo)).2 (sampleClient [10]) (hlisted ▸ List.mem_singleton.2 rfl)
  exact absurd (hclan 10 (by decide)) (by decide)

end CServerInfo2

end DDNet
