/-
The info document of the server (`CServer::UpdateRegisterServerInfo`, `engine/server/server.cpp`, and
`CGameContext::OnUpdatePlayerServerInfo`, `game/server/gamecontext.cpp`): the calls of the JSON writer, the document that
they write (`document_eq`), that it is JSON (`isText_document`), and its length (`length_document`).
-/
import DDNet.Shared.JsonWriter

namespace DDNet

open Lib Lib.Json CJsonStringWriter

/-- `TEAM_SPECTATORS`. -/
def teamSpectators : ℤ := -1

/-- `CTeeInfo`; the parts of a skin of 0.7 each with their name, whether they have a color, and the color. -/
structure CTeeInfo where
  skinName : List UInt8
  useCustomColor : ℤ
  colorBody : ℤ
  colorFeet : ℤ
  skinParts : List (List UInt8 × Bool × ℤ)
  skinParts_length : skinParts.length = 6

/-- What the info has of a `CPlayer`. -/
structure InfoPlayer where
  teeInfos : CTeeInfo
  isAfk : Bool
  team : ℤ
  ddraceTeam : ℤ

/-- What the info has of a `CServer::CClient`, and of the player in its slot. -/
structure InfoClient where
  stateEmpty : Bool
  stateIngame : Bool
  debugDummy : Bool
  sixup : Bool
  name : List UInt8
  clan : List UInt8
  country : ℤ
  score : Option ℤ
  player : Option InfoPlayer

/-- What `UpdateRegisterServerInfo` reads; there is a client for each of the `MAX_CLIENTS` slots. -/
structure InfoSource where
  netMaxClients : ℤ
  svSpectatorSlots : ℤ
  svReservedSlots : ℤ
  password : List UInt8
  gameType : List UInt8
  svName : List UInt8
  mapName : List UInt8
  mapSha256 : List UInt8
  mapSize : ℤ
  version : List UInt8
  isTeamPlay : Bool
  clients : List InfoClient
  clients_length : clients.length = 64

namespace InfoClient

/-- `IncludedInServerInfo`. -/
def includedInServerInfo (c : InfoClient) : Bool := !c.stateEmpty && !c.debugDummy

/-- `ClientName`. -/
def clientName (c : InfoClient) : List UInt8 :=
  if c.stateEmpty then ofChars ['(', 'i', 'n', 'v', 'a', 'l', 'i', 'd', ')']
  else if c.stateIngame then c.name
  else ofChars ['(', 'c', 'o', 'n', 'n', 'e', 'c', 't', 'i', 'n', 'g', ')']

/-- `ClientClan`. -/
def clientClan (c : InfoClient) : List UInt8 := if !c.stateEmpty && c.stateIngame then c.clan else []

/-- `IsClientPlayer`. -/
def isClientPlayer (c : InfoClient) : Bool := c.player.any fun p => p.team ≠ teamSpectators

end InfoClient

/-- `sha256_str`. -/
def sha256Str (digest : List UInt8) : List UInt8 :=
  digest.flatMap fun b => [hexDigit (b.toNat / 16), hexDigit (b.toNat % 16)]

/-- The calls between `BeginObject` and `EndObject`. -/
def inObject (members : JsonCall) : JsonCall := do
  beginObject
  members
  endObject

/-- The calls between `BeginArray` and `EndArray`. -/
def inArray (elements : JsonCall) : JsonCall := do
  beginArray
  elements
  endArray

/-- `apPartNames`. -/
def partNames : List (List UInt8) :=
  [ofChars ['b', 'o', 'd', 'y'],
    ofChars ['m', 'a', 'r', 'k', 'i', 'n', 'g'],
    ofChars ['d', 'e', 'c', 'o', 'r', 'a', 't', 'i', 'o', 'n'],
    ofChars ['h', 'a', 'n', 'd', 's'],
    ofChars ['f', 'e', 'e', 't'],
    ofChars ['e', 'y', 'e', 's']]

/-- The calls for a part of a skin of 0.7. -/
def writePart (part : List UInt8 × List UInt8 × Bool × ℤ) : JsonCall := do
  writeAttribute part.1
  inObject do
    writeAttribute (ofChars ['n', 'a', 'm', 'e'])
    writeStrValue part.2.1
    if part.2.2.1 then do
      writeAttribute (ofChars ['c', 'o', 'l', 'o', 'r'])
      writeIntValue part.2.2.2
    else pure ()

/-- The members of the skin. -/
def writeSkin (sixup : Bool) (t : CTeeInfo) : JsonCall :=
  if sixup then
    (partNames.zip t.skinParts).forM writePart
  else do
    writeAttribute (ofChars ['n', 'a', 'm', 'e'])
    writeStrValue t.skinName
    if t.useCustomColor ≠ 0 then do
      writeAttribute (ofChars ['c', 'o', 'l', 'o', 'r', '_', 'b', 'o', 'd', 'y'])
      writeIntValue t.colorBody
      writeAttribute (ofChars ['c', 'o', 'l', 'o', 'r', '_', 'f', 'e', 'e', 't'])
      writeIntValue t.colorFeet
    else pure ()

/-- The team that the info has. -/
def infoTeam (isTeamPlay : Bool) (p : InfoPlayer) : ℤ :=
  if isTeamPlay then p.team else if p.team = teamSpectators then -1 else p.ddraceTeam

/-- `OnUpdatePlayerServerInfo`. -/
def onUpdatePlayerServerInfo (isTeamPlay : Bool) (c : InfoClient) : JsonCall :=
  match c.player with
  | none => pure ()
  | some p => do
    writeAttribute (ofChars ['s', 'k', 'i', 'n'])
    inObject (writeSkin c.sixup p.teeInfos)
    writeAttribute (ofChars ['a', 'f', 'k'])
    writeBoolValue p.isAfk
    writeAttribute (ofChars ['t', 'e', 'a', 'm'])
    writeIntValue (infoTeam isTeamPlay p)

/-- The calls for a client. -/
def writeClient (isTeamPlay : Bool) (c : InfoClient) : JsonCall :=
  inObject do
    writeAttribute (ofChars ['n', 'a', 'm', 'e'])
    writeStrValue c.clientName
    writeAttribute (ofChars ['c', 'l', 'a', 'n'])
    writeStrValue c.clientClan
    writeAttribute (ofChars ['c', 'o', 'u', 'n', 't', 'r', 'y'])
    writeIntValue c.country
    writeAttribute (ofChars ['s', 'c', 'o', 'r', 'e'])
    writeIntValue (c.score.getD (-9999))
    writeAttribute (ofChars ['i', 's', '_', 'p', 'l', 'a', 'y', 'e', 'r'])
    writeBoolValue c.isClientPlayer
    onUpdatePlayerServerInfo isTeamPlay c

namespace InfoSource

variable (s : InfoSource)

/-- The clients in the info. -/
def included : List InfoClient := s.clients.filter (·.includedInServerInfo)

/-- `PlayerCount`. -/
def playerCount : ℤ := (s.included.filter (·.isClientPlayer)).length

/-- `ClientCount`. -/
def clientCount : ℤ := s.included.length

/-- `MaxPlayers`. -/
def maxPlayers : ℤ := max (s.netMaxClients - max s.svSpectatorSlots s.svReservedSlots) s.playerCount

/-- `MaxClients`. -/
def maxClients : ℤ := max (s.netMaxClients - s.svReservedSlots) s.clientCount

/-- `UpdateRegisterServerInfo`, the calls of the JSON writer. -/
def writeInfo : JsonCall :=
  inObject do
    writeAttribute (ofChars ['m', 'a', 'x', '_', 'c', 'l', 'i', 'e', 'n', 't', 's'])
    writeIntValue s.maxClients
    writeAttribute (ofChars ['m', 'a', 'x', '_', 'p', 'l', 'a', 'y', 'e', 'r', 's'])
    writeIntValue s.maxPlayers
    writeAttribute (ofChars ['p', 'a', 's', 's', 'w', 'o', 'r', 'd', 'e', 'd'])
    writeBoolValue (!s.password.isEmpty)
    writeAttribute (ofChars ['g', 'a', 'm', 'e', '_', 't', 'y', 'p', 'e'])
    writeStrValue s.gameType
    writeAttribute (ofChars ['n', 'a', 'm', 'e'])
    writeStrValue s.svName
    writeAttribute (ofChars ['m', 'a', 'p'])
    inObject do
      writeAttribute (ofChars ['n', 'a', 'm', 'e'])
      writeStrValue s.mapName
      writeAttribute (ofChars ['s', 'h', 'a', '2', '5', '6'])
      writeStrValue (sha256Str s.mapSha256)
      writeAttribute (ofChars ['s', 'i', 'z', 'e'])
      writeIntValue s.mapSize
    writeAttribute (ofChars ['v', 'e', 'r', 's', 'i', 'o', 'n'])
    writeStrValue s.version
    writeAttribute (ofChars ['c', 'l', 'i', 'e', 'n', 't', '_', 's', 'c', 'o', 'r', 'e', '_', 'k', 'i', 'n', 'd'])
    writeStrValue (ofChars ['t', 'i', 'm', 'e'])
    writeAttribute (ofChars ['r', 'e', 'q', 'u', 'i', 'r', 'e', 's', '_', 'l', 'o', 'g', 'i', 'n'])
    writeBoolValue false
    writeAttribute (ofChars ['c', 'l', 'i', 'e', 'n', 't', 's'])
    inArray (s.included.forM (writeClient s.isTeamPlay))

/-- `UpdateRegisterServerInfo`: the info that is passed to the register, `none` where an assertion fails. -/
def updateRegisterServerInfo : Option (List UInt8) := getOutputString s.writeInfo

end InfoSource

/-! ### The document -/

/-- A string. -/
def text (str : List UInt8) : Fragment := fun _ => jsonString str

/-- An integer. -/
def number (i : ℤ) : Fragment := fun _ => integer i

/-- A truth value. -/
def truth (b : Bool) : Fragment := fun _ => boolText b

/-- A member with the name. -/
def field (name : List UInt8) (value : Fragment) : Fragment := member (jsonString name) value

/-- A part of a skin of 0.7. -/
def partField (part : List UInt8 × List UInt8 × Bool × ℤ) : Fragment :=
  field part.1 (object (field (ofChars ['n', 'a', 'm', 'e']) (text part.2.1) ::
    if part.2.2.1 then [field (ofChars ['c', 'o', 'l', 'o', 'r']) (number part.2.2.2)] else []))

/-- The members of the skin. -/
def skinFields (sixup : Bool) (t : CTeeInfo) : List Fragment :=
  if sixup then
    (partNames.zip t.skinParts).flatMap fun part => [partField part]
  else
    field (ofChars ['n', 'a', 'm', 'e']) (text t.skinName) ::
      if t.useCustomColor ≠ 0 then
        [field (ofChars ['c', 'o', 'l', 'o', 'r', '_', 'b', 'o', 'd', 'y']) (number t.colorBody),
          field (ofChars ['c', 'o', 'l', 'o', 'r', '_', 'f', 'e', 'e', 't']) (number t.colorFeet)]
      else []

/-- The members that are only there for a player. -/
def playerFields (isTeamPlay : Bool) (c : InfoClient) : List Fragment :=
  match c.player with
  | none => []
  | some p =>
    [field (ofChars ['s', 'k', 'i', 'n']) (object (skinFields c.sixup p.teeInfos)),
      field (ofChars ['a', 'f', 'k']) (truth p.isAfk),
      field (ofChars ['t', 'e', 'a', 'm']) (number (infoTeam isTeamPlay p))]

/-- A client. -/
def clientObject (isTeamPlay : Bool) (c : InfoClient) : Fragment :=
  object (field (ofChars ['n', 'a', 'm', 'e']) (text c.clientName) ::
    field (ofChars ['c', 'l', 'a', 'n']) (text c.clientClan) ::
    field (ofChars ['c', 'o', 'u', 'n', 't', 'r', 'y']) (number c.country) ::
    field (ofChars ['s', 'c', 'o', 'r', 'e']) (number (c.score.getD (-9999))) ::
    field (ofChars ['i', 's', '_', 'p', 'l', 'a', 'y', 'e', 'r']) (truth c.isClientPlayer) ::
    playerFields isTeamPlay c)

namespace InfoSource

variable (s : InfoSource)

/-- The map. -/
def mapObject : Fragment :=
  object [field (ofChars ['n', 'a', 'm', 'e']) (text s.mapName),
    field (ofChars ['s', 'h', 'a', '2', '5', '6']) (text (sha256Str s.mapSha256)),
    field (ofChars ['s', 'i', 'z', 'e']) (number s.mapSize)]

/-- The info as a value. -/
def info : Fragment :=
  object [
    field (ofChars ['m', 'a', 'x', '_', 'c', 'l', 'i', 'e', 'n', 't', 's']) (number s.maxClients),
    field (ofChars ['m', 'a', 'x', '_', 'p', 'l', 'a', 'y', 'e', 'r', 's']) (number s.maxPlayers),
    field (ofChars ['p', 'a', 's', 's', 'w', 'o', 'r', 'd', 'e', 'd']) (truth (!s.password.isEmpty)),
    field (ofChars ['g', 'a', 'm', 'e', '_', 't', 'y', 'p', 'e']) (text s.gameType),
    field (ofChars ['n', 'a', 'm', 'e']) (text s.svName),
    field (ofChars ['m', 'a', 'p']) s.mapObject,
    field (ofChars ['v', 'e', 'r', 's', 'i', 'o', 'n']) (text s.version),
    field (ofChars ['c', 'l', 'i', 'e', 'n', 't', '_', 's', 'c', 'o', 'r', 'e', '_', 'k', 'i', 'n', 'd'])
      (text (ofChars ['t', 'i', 'm', 'e'])),
    field (ofChars ['r', 'e', 'q', 'u', 'i', 'r', 'e', 's', '_', 'l', 'o', 'g', 'i', 'n']) (truth false),
    field (ofChars ['c', 'l', 'i', 'e', 'n', 't', 's'])
      (array (s.included.flatMap fun c => [clientObject s.isTeamPlay c]))]

/-- The document. -/
def document : List UInt8 := s.info 0 ++ [10]

end InfoSource

lemma writes_inObject {members : JsonCall} {l : List Fragment} (h : WritesItems .stateObject members l) :
    Writes (inObject members) (object l) := writes_object h

lemma writes_inArray {elements : JsonCall} {l : List Fragment} (h : WritesItems .stateArray elements l) :
    Writes (inArray elements) (array l) := writes_array h

lemma writes_text (str : List UInt8) : Writes (writeStrValue str) (text str) := writes_writeValue _

lemma writes_number (i : ℤ) : Writes (writeIntValue i) (number i) := writes_writeValue _

lemma writes_truth (b : Bool) : Writes (writeBoolValue b) (truth b) := writes_writeValue _

lemma writesItems_writePart (part : List UInt8 × List UInt8 × Bool × ℤ) :
    WritesItems .stateObject (writePart part) [partField part] := by
  refine writesItems_attribute _ (writes_inObject (WritesItems.cons (writes_text _) ?_))
  exact writesItems_ite _ (writesItems_attribute _ (writes_number _))

lemma writesItems_writeSkin (sixup : Bool) (t : CTeeInfo) :
    WritesItems .stateObject (writeSkin sixup t) (skinFields sixup t) := by
  rw [writeSkin, skinFields]
  by_cases hsixup : sixup = true
  · rw [if_pos hsixup, if_pos hsixup]
    exact writesItems_forM _ writesItems_writePart
  · rw [if_neg hsixup, if_neg hsixup]
    refine WritesItems.cons (writes_text _) (writesItems_ite _ ?_)
    exact WritesItems.cons (writes_number _) (writesItems_attribute _ (writes_number _))

lemma writesItems_onUpdatePlayerServerInfo (isTeamPlay : Bool) (c : InfoClient) :
    WritesItems .stateObject (onUpdatePlayerServerInfo isTeamPlay c) (playerFields isTeamPlay c) := by
  rw [onUpdatePlayerServerInfo, playerFields]
  cases c.player with
  | none => exact writesItems_nil _
  | some p =>
    exact WritesItems.cons (writes_inObject (writesItems_writeSkin c.sixup p.teeInfos))
      (WritesItems.cons (writes_truth _) (writesItems_attribute _ (writes_number _)))

lemma writes_writeClient (isTeamPlay : Bool) (c : InfoClient) :
    Writes (writeClient isTeamPlay c) (clientObject isTeamPlay c) :=
  writes_inObject (WritesItems.cons (writes_text _) (WritesItems.cons (writes_text _) (WritesItems.cons (writes_number _)
    (WritesItems.cons (writes_number _) (WritesItems.cons (writes_truth _)
      (writesItems_onUpdatePlayerServerInfo isTeamPlay c))))))

/-- No assertion fails, and the document is what is passed to the register. -/
theorem updateRegisterServerInfo_eq (s : InfoSource) : s.updateRegisterServerInfo = some s.document := by
  have hmap : Writes (inObject do
      writeAttribute (ofChars ['n', 'a', 'm', 'e'])
      writeStrValue s.mapName
      writeAttribute (ofChars ['s', 'h', 'a', '2', '5', '6'])
      writeStrValue (sha256Str s.mapSha256)
      writeAttribute (ofChars ['s', 'i', 'z', 'e'])
      writeIntValue s.mapSize) s.mapObject :=
    writes_inObject (WritesItems.cons (writes_text _) (WritesItems.cons (writes_text _)
      (writesItems_attribute _ (writes_number _))))
  have hclients : Writes (inArray (s.included.forM (writeClient s.isTeamPlay)))
      (array (s.included.flatMap fun c => [clientObject s.isTeamPlay c])) :=
    writes_inArray (writesItems_forM _ fun c => writesItems_element (writes_writeClient s.isTeamPlay c))
  have hinfo : Writes s.writeInfo s.info :=
    writes_inObject (WritesItems.cons (writes_number _) (WritesItems.cons (writes_number _)
      (WritesItems.cons (writes_truth _) (WritesItems.cons (writes_text _) (WritesItems.cons (writes_text _)
        (WritesItems.cons hmap (WritesItems.cons (writes_text _) (WritesItems.cons (writes_text _)
          (WritesItems.cons (writes_truth _) (writesItems_attribute _ hclients))))))))))
  exact hinfo.getOutputString

/-! ### It is JSON -/

lemma isMember_field {name : List UInt8} {f : Fragment} {n : ℕ} (hf : IsValue (f n)) : IsMember (field name f n) :=
  isMember_member (isString_jsonString name) hf

lemma isValue_text (str : List UInt8) (n : ℕ) : IsValue (text str n) := IsValue.string (isString_jsonString str)

lemma isValue_number (i : ℤ) (n : ℕ) : IsValue (number i n) := isValue_integer i

lemma isValue_truth (b : Bool) (n : ℕ) : IsValue (truth b n) := isValue_boolText b

lemma isMember_partField (part : List UInt8 × List UInt8 × Bool × ℤ) (n : ℕ) : IsMember (partField part n) := by
  refine isMember_field (isValue_object ?_)
  rw [List.forall_mem_cons]
  refine ⟨isMember_field (isValue_text _ _), ?_⟩
  split_ifs
  · rw [List.forall_mem_singleton]
    exact isMember_field (isValue_number _ _)
  · simp

lemma isMember_skinFields (sixup : Bool) (t : CTeeInfo) (n : ℕ) : ∀ f ∈ skinFields sixup t, IsMember (f n) := by
  rw [skinFields]
  split_ifs with hsixup hcolor
  · rintro f hf
    obtain ⟨part, -, hpart⟩ := List.mem_flatMap.1 hf
    exact List.mem_singleton.1 hpart ▸ isMember_partField part n
  · simp only [List.forall_mem_cons, List.not_mem_nil, false_implies, implies_true, and_true]
    exact ⟨isMember_field (isValue_text _ _), isMember_field (isValue_number _ _), isMember_field (isValue_number _ _)⟩
  · rw [List.forall_mem_singleton]
    exact isMember_field (isValue_text _ _)

lemma isMember_playerFields (isTeamPlay : Bool) (c : InfoClient) (n : ℕ) :
    ∀ f ∈ playerFields isTeamPlay c, IsMember (f n) := by
  rw [playerFields]
  cases c.player with
  | none => simp
  | some p =>
    simp only [List.forall_mem_cons, List.not_mem_nil, false_implies, implies_true, and_true]
    exact ⟨isMember_field (isValue_object (isMember_skinFields _ _ _)), isMember_field (isValue_truth _ _),
      isMember_field (isValue_number _ _)⟩

lemma isValue_clientObject (isTeamPlay : Bool) (c : InfoClient) (n : ℕ) : IsValue (clientObject isTeamPlay c n) := by
  refine isValue_object ?_
  simp only [List.forall_mem_cons]
  exact ⟨isMember_field (isValue_text _ _), isMember_field (isValue_text _ _), isMember_field (isValue_number _ _),
    isMember_field (isValue_number _ _), isMember_field (isValue_truth _ _), isMember_playerFields _ _ _⟩

/-- The document is JSON. -/
theorem isText_document (s : InfoSource) : IsText s.document := by
  have hmap : IsValue (s.mapObject 1) := by
    refine isValue_object ?_
    simp only [List.forall_mem_cons, List.not_mem_nil, false_implies, implies_true, and_true]
    exact ⟨isMember_field (isValue_text _ _), isMember_field (isValue_text _ _), isMember_field (isValue_number _ _)⟩
  have hclients : IsValue (array (s.included.flatMap fun c => [clientObject s.isTeamPlay c]) 1) := by
    refine isValue_array ?_
    rintro f hf
    obtain ⟨c, -, hc⟩ := List.mem_flatMap.1 hf
    exact List.mem_singleton.1 hc ▸ isValue_clientObject _ c _
  have hinfo : IsValue (s.info 0) := by
    refine isValue_object ?_
    simp only [List.forall_mem_cons, List.not_mem_nil, false_implies, implies_true, and_true]
    exact ⟨isMember_field (isValue_number _ _), isMember_field (isValue_number _ _), isMember_field (isValue_truth _ _),
      isMember_field (isValue_text _ _), isMember_field (isValue_text _ _), isMember_field hmap,
      isMember_field (isValue_text _ _), isMember_field (isValue_text _ _), isMember_field (isValue_truth _ _),
      isMember_field hclients⟩
  exact ⟨[], s.info 0, [10], by simp [IsWs], hinfo, by simp [IsWs], rfl⟩

/-! ### Its length -/

/-- The bytes that a character takes in the document. -/
def charSize (c : UInt8) : ℕ :=
  if c = quote ∨ c = backslash ∨ c = 8 ∨ c = 10 ∨ c = 13 ∨ c = 9 then 2 else if c < 32 then 6 else 1

/-- The bytes that a string takes, with its quotes. -/
def textSize (str : List UInt8) : ℕ := (str.map charSize).sum + 2

/-- The bytes that an integer takes. -/
def numberSize (i : ℤ) : ℕ := (integer i).length

/-- The bytes that a truth value takes. -/
def truthSize (b : Bool) : ℕ := if b then 4 else 5

/-- The bytes of a skin. -/
def skinSize (sixup : Bool) (t : CTeeInfo) : ℕ :=
  if sixup then
    (t.skinParts.map fun part => 31 + textSize part.1 + if part.2.1 then 16 + numberSize part.2.2 else 0).sum + 39
  else
    19 + textSize t.skinName +
      if t.useCustomColor ≠ 0 then 40 + numberSize t.colorBody + numberSize t.colorFeet else 0

/-- The bytes of a client. -/
def clientSize (isTeamPlay : Bool) (c : InfoClient) : ℕ :=
  78 + textSize c.clientName + textSize c.clientClan + numberSize c.country + numberSize (c.score.getD (-9999)) +
    truthSize c.isClientPlayer +
    match c.player with
    | none => 0
    | some p => 38 + skinSize c.sixup p.teeInfos + truthSize p.isAfk + numberSize (infoTeam isTeamPlay p)

/-- The bytes of the document. -/
def infoSize (s : InfoSource) : ℕ :=
  221 + numberSize s.maxClients + numberSize s.maxPlayers + truthSize (!s.password.isEmpty) + textSize s.gameType +
    textSize s.svName + textSize s.mapName + textSize (sha256Str s.mapSha256) + numberSize s.mapSize +
    textSize s.version + (s.included.map fun c => clientSize s.isTeamPlay c + 4).sum + if s.included = [] then 1 else 0

lemma length_jsonChar (c : UInt8) : (jsonChar c).length = charSize c := by
  rw [jsonChar, escapeJsonChar, charSize]
  split_ifs <;> simp_all

@[simp] lemma length_text (str : List UInt8) (n : ℕ) : (text str n).length = textSize str := by
  have hbody : (str.flatMap jsonChar).length = (str.map charSize).sum := by
    rw [List.length_flatMap]
    exact congrArg List.sum (List.map_congr_left fun c _ => length_jsonChar c)
  rw [text, jsonString, textSize, List.length_cons, List.length_append, hbody, List.length_singleton]

@[simp] lemma length_number (i : ℤ) (n : ℕ) : (number i n).length = numberSize i := rfl

@[simp] lemma length_truth (b : Bool) (n : ℕ) : (truth b n).length = truthSize b := by cases b <;> rfl

@[simp] lemma length_field (name : List UInt8) (f : Fragment) (n : ℕ) :
    (field name f n).length = textSize name + 2 + (f n).length := by
  rw [field, length_member, ← length_text name n]
  rfl

/-- The bytes of an object or an array that is not empty. -/
lemma length_block_cons (left right : UInt8) (f : Fragment) (l : List Fragment) (n : ℕ) :
    (block left right (f :: l) n).length =
      (f (n + 1)).length + (l.map fun g => (g (n + 1)).length + n + 3).sum + 2 * n + 5 := by
  have hlen := length_block left right (f :: l) n
  rw [if_neg (List.cons_ne_nil _ _), List.map_cons, List.sum_cons] at hlen
  omega

/-- Names have no character that is escaped. -/
lemma textSize_ofChars {cs : List Char} (h : (ofChars cs).all (fun c => charSize c == 1) = true) :
    textSize (ofChars cs) = cs.length + 2 := by
  have hsum : ∀ str : List UInt8, str.all (fun c => charSize c == 1) = true → (str.map charSize).sum = str.length := by
    intro str hstr
    induction str with
    | nil => rfl
    | cons c str ih =>
      rw [List.all_cons, Bool.and_eq_true, beq_iff_eq] at hstr
      rw [List.map_cons, List.sum_cons, hstr.1, ih hstr.2, List.length_cons, Nat.add_comm]
  rw [textSize, hsum _ h, ofChars, List.length_map]

lemma length_partField (part : List UInt8 × List UInt8 × Bool × ℤ) :
    (partField part 4).length =
      textSize part.1 + 23 + textSize part.2.1 + if part.2.2.1 then 16 + numberSize part.2.2.2 else 0 := by
  rw [partField, length_field, object, length_block_cons, length_field, length_text]
  split_ifs <;> simp (disch := decide) only [textSize_ofChars, List.map_cons, List.map_nil, List.sum_cons, List.sum_nil,
    length_field, length_number, List.length_cons, List.length_nil] <;> omega

lemma length_skin (sixup : Bool) (t : CTeeInfo) : (object (skinFields sixup t) 3).length = skinSize sixup t := by
  rw [skinFields, skinSize]
  split_ifs with hsixup hcolor
  · obtain ⟨p₁, p₂, p₃, p₄, p₅, p₆, hparts⟩ : ∃ p₁ p₂ p₃ p₄ p₅ p₆, t.skinParts = [p₁, p₂, p₃, p₄, p₅, p₆] := by
      have hlen := t.skinParts_length
      match t.skinParts, hlen with
      | [p₁, p₂, p₃, p₄, p₅, p₆], _ => exact ⟨p₁, p₂, p₃, p₄, p₅, p₆, rfl⟩
    rw [hparts, partNames]
    simp (disch := decide) only [List.zip_cons_cons, List.zip_nil_left, List.flatMap_cons, List.flatMap_nil,
      List.cons_append, List.nil_append, object, length_block_cons, Nat.reduceAdd, length_partField, List.map_cons,
      List.map_nil, List.sum_cons, List.sum_nil, textSize_ofChars, List.length_cons, List.length_nil]
    omega
  · simp (disch := decide) only [object, length_block_cons, List.map_cons, List.map_nil, List.sum_cons, List.sum_nil,
      length_field, length_text, length_number, textSize_ofChars, List.length_cons, List.length_nil]
    omega
  · simp (disch := decide) only [object, length_block_cons, List.map_nil, List.sum_nil, length_field, length_text,
      textSize_ofChars, List.length_cons, List.length_nil]
    omega

lemma length_clientObject (isTeamPlay : Bool) (c : InfoClient) :
    (clientObject isTeamPlay c 2).length = clientSize isTeamPlay c := by
  rw [clientObject, clientSize, playerFields]
  cases c.player with
  | none =>
    simp (disch := decide) only [object, length_block_cons, List.map_cons, List.map_nil, List.sum_cons, List.sum_nil,
      length_field, length_text, length_number, length_truth, textSize_ofChars, List.length_cons, List.length_nil]
    omega
  | some p =>
    have hskin := length_skin c.sixup p.teeInfos
    simp (disch := decide) only [object, length_block_cons, List.map_cons, List.map_nil, List.sum_cons, List.sum_nil,
      length_field, length_text, length_number, length_truth, textSize_ofChars, List.length_cons, List.length_nil,
      Nat.reduceAdd] at hskin ⊢
    omega

/-- The length of the document. -/
theorem length_document (s : InfoSource) : s.document.length = infoSize s := by
  have hclients : (array (s.included.flatMap fun c => [clientObject s.isTeamPlay c]) 1).length =
      (s.included.map fun c => clientSize s.isTeamPlay c + 4).sum + 3 + if s.included = [] then 1 else 0 := by
    have hmap : s.included.flatMap (fun c => [clientObject s.isTeamPlay c]) = s.included.map (clientObject s.isTeamPlay) := by
      rw [← List.map_eq_flatMap]
    have hnil : s.included.map (clientObject s.isTeamPlay) = [] ↔ s.included = [] := List.map_eq_nil_iff
    have hlen := length_block 91 93 (s.included.map (clientObject s.isTeamPlay)) 1
    rw [List.map_map] at hlen
    simp only [Function.comp_def, Nat.reduceAdd, length_clientObject, hnil, Nat.add_assoc] at hlen
    rw [hmap, array]
    split_ifs at hlen ⊢ <;> omega
  rw [InfoSource.document, InfoSource.info, InfoSource.mapObject, infoSize]
  simp (disch := decide) only [object, length_block_cons, List.map_cons, List.map_nil, List.sum_cons, List.sum_nil,
    length_field, length_text, length_number, length_truth, textSize_ofChars, List.length_cons, List.length_nil,
    List.length_append, hclients]
  rw [show truthSize false = 5 from rfl]
  omega

end DDNet
