/-
The items of a `CDataFileWriter` after a run.

Besides the items that were added there is one item for every uuid, which describes it; the uuids have internal types
from the top downwards, in the order of their first items (`Written`).
-/
import Mathlib.Data.List.Dedup
import DDNet.Shared.DatafileFinish

namespace DDNet

open Lib Groups

/-! ### What is added -/

/-- What an item is added as. -/
inductive ItemKind where
  | plain (type : ℤ)
  | uuid (uuid : CUuid)
deriving DecidableEq

/-- An item that is added. -/
structure AddedItem where
  kind : ItemKind
  id : ℤ
  data : List UInt8
deriving DecidableEq

/-- What a type stands for, with the uuid of an unknown one. -/
def kindOf (m : CUuidManager) (type : ℤ) (uuid : Option CUuid) : Option ItemKind :=
  if type = -1 then uuid.map .uuid
  else if offsetUuid ≤ type then (m.getUuid type).map .uuid
  else some (.plain type)

def ItemKind.uuid? : ItemKind → Option CUuid
  | plain _ => none
  | uuid u => some u

namespace WriterCall

def item? (m : CUuidManager) : WriterCall → Option AddedItem
  | addItem type id data uuid => (kindOf m type uuid).map fun kind => ⟨kind, id, data⟩
  | addData _ _ => none

def data? : WriterCall → Option (List UInt8)
  | addItem _ _ _ _ => none
  | addData data _ => some data

end WriterCall

/-- The items that are added. -/
def addedItems (m : CUuidManager) (calls : List WriterCall) : List AddedItem := calls.filterMap (WriterCall.item? m)

/-- The data that is added. -/
def addedDatas (calls : List WriterCall) : List (List UInt8) := calls.filterMap WriterCall.data?

/-- The uuids of items. -/
def uuidsOf (items : List AddedItem) : List CUuid := (items.filterMap fun item => item.kind.uuid?).dedup

/-- A uuid is added with the same type every time. -/
def SameTypes (m : CUuidManager) (calls : List WriterCall) : Prop :=
  ∀ type id data uuid type' id' data' uuid' u, .addItem type id data uuid ∈ calls → .addItem type' id' data' uuid' ∈ calls →
    kindOf m type uuid = some (.uuid u) → kindOf m type' uuid' = some (.uuid u) → type = type'

/-- No item is added as a descriptor of a uuid. -/
def NoDescriptors (m : CUuidManager) (calls : List WriterCall) : Prop :=
  ∀ item ∈ addedItems m calls, item.kind ≠ .plain itemtypeEx

lemma SameTypes.of_subset {m : CUuidManager} {calls calls' : List WriterCall} (h : SameTypes m calls')
    (hsub : calls ⊆ calls') : SameTypes m calls :=
  fun _ _ _ _ _ _ _ _ _ hmem hmem' => h _ _ _ _ _ _ _ _ _ (hsub hmem) (hsub hmem')

lemma mem_uuidsOf {items : List AddedItem} {uuid : CUuid} :
    uuid ∈ uuidsOf items ↔ ∃ item ∈ items, item.kind = .uuid uuid := by
  rw [uuidsOf, List.mem_dedup, List.mem_filterMap]
  refine exists_congr fun item => and_congr_right fun _ => ?_
  cases item.kind <;> simp [ItemKind.uuid?]

namespace CDataFileWriter

variable {m : CUuidManager} {w : CDataFileWriter}

/-- The uuids of a writer. -/
def uuids (w : CDataFileWriter) : List CUuid := w.extendedItemTypes.map CExtendedItemType.uuid

/-- The internal type of a kind. -/
def internalOf (uuids : List CUuid) : ItemKind → ℤ
  | .plain type => type
  | .uuid uuid => getTypeFromIndex (uuids.idxOf uuid)

/-- An added item, as it is stored. -/
def storedItem (uuids : List CUuid) (item : AddedItem) : CItemInfo := ⟨internalOf uuids item.kind, item.id, item.data⟩

/-- The descriptors of uuids, the first one with this index. -/
def descriptors : List CUuid → ℕ → List CItemInfo
  | [], _ => []
  | uuid :: uuids, index => ⟨itemtypeEx, getTypeFromIndex index, itemExBytes uuid⟩ :: descriptors uuids (index + 1)

/-- The items and descriptors that a writer has stored. -/
structure Stored (items : List AddedItem) (w : CDataFileWriter) : Prop where
  links : w.Links
  fit : w.ItemsFit
  nodup : w.uuids.Nodup
  mem_uuids : ∀ item ∈ items, ∀ uuid, item.kind = .uuid uuid → uuid ∈ w.uuids
  room : (w.uuids.length : ℤ) ≤ itemtypeEx
  items : (w.items.filter fun item => item.type ≠ itemtypeEx) = items.map (storedItem w.uuids)
  descriptors : (w.items.filter fun item => item.type = itemtypeEx) = CDataFileWriter.descriptors w.uuids 0

/-- What the calls have written. -/
structure Written (m : CUuidManager) (calls : List WriterCall) (w : CDataFileWriter) : Prop where
  stored : Stored (addedItems m calls) w
  uuids : ∀ uuid ∈ w.uuids, uuid ∈ uuidsOf (addedItems m calls)
  /-- A uuid has the type that it was added with. -/
  types : ∀ e ∈ w.extendedItemTypes, ∃ id data uuid, .addItem e.type id data uuid ∈ calls ∧
    kindOf m e.type uuid = some (.uuid e.uuid)
  datas : w.datas.map CDataInfo.data = addedDatas calls
  data_size : ∀ info ∈ w.datas, info.data.length ≤ maxInt

lemma stored_empty : Stored [] empty where
  links := links_empty
  fit _ hitem := absurd hitem List.not_mem_nil
  nodup := List.nodup_nil
  mem_uuids _ hitem := absurd hitem List.not_mem_nil
  room := by decide
  items := rfl
  descriptors := rfl

lemma written_empty : Written m [] empty where
  stored := stored_empty
  uuids _ huuid := absurd huuid List.not_mem_nil
  types _ he := absurd he List.not_mem_nil
  datas := rfl
  data_size _ hinfo := absurd hinfo List.not_mem_nil

/-! ### Internal types -/

lemma getTypeFromIndex_lt (index : ℕ) : getTypeFromIndex index < itemtypeEx := by
  rw [getTypeFromIndex]
  omega

lemma descriptors_append (us us' : List CUuid) (index : ℕ) :
    descriptors (us ++ us') index = descriptors us index ++ descriptors us' (index + us.length) := by
  induction us generalizing index with
  | nil => rfl
  | cons uuid us ih =>
    rw [List.cons_append, descriptors, ih, descriptors, List.cons_append, List.length_cons, Nat.add_assoc,
      Nat.add_comm us.length 1]

/-- Uuids that come later do not change internal types. -/
lemma internalOf_append {us : List CUuid} {kind : ItemKind} (h : ∀ uuid, kind = .uuid uuid → uuid ∈ us) (uuid' : CUuid) :
    internalOf (us ++ [uuid']) kind = internalOf us kind := by
  cases kind with
  | plain type => rfl
  | uuid uuid => rw [internalOf, internalOf, List.idxOf_append_of_mem (h uuid rfl)]

lemma internalOf_fits {us : List CUuid} {kind : ItemKind} (h : ∀ uuid, kind = .uuid uuid → uuid ∈ us)
    (hroom : (us.length : ℤ) ≤ itemtypeEx) (hplain : ∀ type, kind = .plain type → 0 ≤ type ∧ type < maxItemTypes) :
    0 ≤ internalOf us kind ∧ internalOf us kind < maxItemTypes := by
  cases kind with
  | plain type => exact hplain type rfl
  | uuid uuid =>
    have hlt := List.idxOf_lt_length_of_mem (h uuid rfl)
    have hless := getTypeFromIndex_lt (us.idxOf uuid)
    rw [itemtypeEx] at hroom hless
    rw [internalOf, maxItemTypes]
    refine ⟨?_, by omega⟩
    rw [getTypeFromIndex, itemtypeEx]
    omega

lemma internalOf_ne {us : List CUuid} {kind : ItemKind} (h : kind ≠ .plain itemtypeEx) :
    internalOf us kind ≠ itemtypeEx := by
  cases kind with
  | plain type => exact fun heq => h (congrArg ItemKind.plain heq)
  | uuid uuid => exact (getTypeFromIndex_lt _).ne

/-! ### Storing -/

/-- An item is stored. -/
lemma Stored.add {items : List AddedItem} (h : Stored items w) {item : AddedItem} (hplain : item.kind ≠ .plain itemtypeEx)
    (huuid : ∀ uuid, item.kind = .uuid uuid → uuid ∈ w.uuids)
    (htype : ∀ type, item.kind = .plain type → 0 ≤ type ∧ type < maxItemTypes) (hid : 0 ≤ item.id ∧ item.id ≤ itemtypeEx) :
    Stored (items ++ [item]) (w.linkItem (internalOf w.uuids item.kind) item.id item.data) where
  links := h.links.linkItem _ _ _
  fit stored hstored := by
    rcases List.mem_append.1 hstored with hold | hnew
    · exact h.fit stored hold
    · rw [List.mem_singleton.1 hnew]
      exact ⟨internalOf_fits huuid h.room htype, hid⟩
  nodup := h.nodup
  mem_uuids added hadded uuid hkind := by
    rcases List.mem_append.1 hadded with hold | hnew
    · exact h.mem_uuids added hold uuid hkind
    · rw [List.mem_singleton.1 hnew] at hkind
      exact huuid uuid hkind
  room := h.room
  items := by
    have hne := @internalOf_ne w.uuids _ hplain
    have hstored : (w.linkItem (internalOf w.uuids item.kind) item.id item.data).items =
        w.items ++ [storedItem w.uuids item] := rfl
    rw [hstored, List.filter_append, h.items, List.map_append, List.filter_cons_of_pos (by simp [storedItem, hne])]
    rfl
  descriptors := by
    have hne := @internalOf_ne w.uuids _ hplain
    have hstored : (w.linkItem (internalOf w.uuids item.kind) item.id item.data).items =
        w.items ++ [storedItem w.uuids item] := rfl
    rw [hstored, List.filter_append, h.descriptors, List.filter_cons_of_neg (by simp [storedItem, hne])]
    exact List.append_nil _

/-- The writer with another uuid. -/
def addUuid (w : CDataFileWriter) (type : ℤ) (uuid : CUuid) : CDataFileWriter :=
  linkItem { w with extendedItemTypes := w.extendedItemTypes ++ [⟨type, uuid⟩] } itemtypeEx
    (getTypeFromIndex w.extendedItemTypes.length) (itemExBytes uuid)

lemma uuids_addUuid (type : ℤ) (uuid : CUuid) : (w.addUuid type uuid).uuids = w.uuids ++ [uuid] := List.map_append

lemma items_addUuid (type : ℤ) (uuid : CUuid) :
    (w.addUuid type uuid).items = w.items ++ [⟨itemtypeEx, getTypeFromIndex w.uuids.length, itemExBytes uuid⟩] := by
  rw [uuids, List.length_map]
  rfl

/-- A descriptor is stored. -/
lemma Stored.addUuid {items : List AddedItem} (h : Stored items w) (type : ℤ) {uuid : CUuid} (huuid : uuid ∉ w.uuids)
    (hroom : 0 ≤ getTypeFromIndex w.uuids.length) : Stored items (w.addUuid type uuid) := by
  have huuids := uuids_addUuid (w := w) type uuid
  have hitems := items_addUuid (w := w) type uuid
  have hlt := getTypeFromIndex_lt w.uuids.length
  refine ⟨?_, ?_, ?_, ?_, ?_, ?_, ?_⟩
  · exact Links.linkItem (w := { w with extendedItemTypes := w.extendedItemTypes ++ [⟨type, uuid⟩] }) h.links _ _ _
  · intro stored hstored
    rw [hitems] at hstored
    rcases List.mem_append.1 hstored with hold | hnew
    · exact h.fit stored hold
    · rw [List.mem_singleton.1 hnew]
      exact ⟨(by decide : 0 ≤ itemtypeEx ∧ itemtypeEx < maxItemTypes), hroom, hlt.le⟩
  · rw [huuids]
    exact List.Nodup.append h.nodup (List.nodup_singleton _) (List.disjoint_singleton.2 huuid)
  · intro item hitem u hkind
    rw [huuids]
    exact List.mem_append_left _ (h.mem_uuids item hitem u hkind)
  · rw [huuids, List.length_append, List.length_singleton]
    rw [getTypeFromIndex] at hroom
    push_cast
    omega
  · rw [hitems, List.filter_append, h.items, huuids, List.filter_cons_of_neg (by simp)]
    refine (List.append_nil _).trans (List.map_congr_left fun item hitem => ?_)
    rw [storedItem, storedItem, internalOf_append (h.mem_uuids item hitem)]
  · rw [hitems, List.filter_append, h.descriptors, huuids, descriptors_append, Nat.zero_add,
      List.filter_cons_of_pos (by simp)]
    rfl

/-! ### Adding -/

lemma addedItems_append (calls calls' : List WriterCall) :
    addedItems m (calls ++ calls') = addedItems m calls ++ addedItems m calls' := List.filterMap_append

lemma addedDatas_append (calls calls' : List WriterCall) :
    addedDatas (calls ++ calls') = addedDatas calls ++ addedDatas calls' := List.filterMap_append

lemma uuidsOf_append_left {items items' : List AddedItem} {uuid : CUuid} (h : uuid ∈ uuidsOf items) :
    uuid ∈ uuidsOf (items ++ items') := by
  obtain ⟨item, hitem, hkind⟩ := mem_uuidsOf.1 h
  exact mem_uuidsOf.2 ⟨item, List.mem_append_left _ hitem, hkind⟩

lemma kindOf_uuid {type : ℤ} {uuid : Option CUuid} {kind : ItemKind} (htype : type = -1 ∨ offsetUuid ≤ type)
    (h : kindOf m type uuid = some kind) : ∃ u, kind = .uuid u := by
  rw [kindOf] at h
  split_ifs at h with hunknown hregistered
  · obtain ⟨u, -, rfl⟩ := Option.map_eq_some_iff.1 h
    exact ⟨u, rfl⟩
  · obtain ⟨u, -, rfl⟩ := Option.map_eq_some_iff.1 h
    exact ⟨u, rfl⟩
  · exact absurd htype (not_or.2 ⟨hunknown, hregistered⟩)

/-- A search that finds a uuid finds its index. -/
lemma findIdx_uuid {es : List CExtendedItemType} {p : CExtendedItemType → Bool} {u : CUuid}
    (h : ∀ e ∈ es, p e = true ↔ e.uuid = u) : es.findIdx? p =
      if u ∈ es.map CExtendedItemType.uuid then some ((es.map CExtendedItemType.uuid).idxOf u) else none := by
  induction es with
  | nil => rfl
  | cons e es ih =>
    have hfirst := h e List.mem_cons_self
    rw [List.findIdx?_cons, List.map_cons, List.idxOf_cons]
    by_cases huuid : e.uuid = u
    · rw [if_pos (hfirst.2 huuid), if_pos (List.mem_cons.2 (.inl huuid.symm)), huuid, beq_self_eq_true]
      rfl
    · rw [if_neg fun hp => huuid (hfirst.1 hp), ih fun e' he' => h e' (List.mem_cons_of_mem _ he'),
        beq_eq_false_iff_ne.2 huuid]
      by_cases hmem : u ∈ es.map CExtendedItemType.uuid
      · rw [if_pos hmem, if_pos (List.mem_cons_of_mem _ hmem)]
        rfl
      · rw [if_neg hmem, if_neg fun hcons => hmem ((List.mem_cons.1 hcons).resolve_left (Ne.symm huuid))]
        rfl

section step

variable {before : List WriterCall} (h : Written m before w)

include h

/-- `GetExtendedItemTypeIndex` finds the uuid, or adds it. -/
lemma Written.getExtendedItemTypeIndex {type : ℤ} {uuid : Option CUuid} {u : CUuid}
    (hkind : kindOf m type uuid = some (.uuid u)) (hsame : ∀ e ∈ w.extendedItemTypes, e.uuid = u → e.type = type) :
    w.getExtendedItemTypeIndex m type uuid =
      if u ∈ w.uuids then some (w.uuids.idxOf u, w)
      else if 0 ≤ getTypeFromIndex w.uuids.length then some (w.uuids.length, w.addUuid type u) else none := by
  have hlength : w.extendedItemTypes.length = w.uuids.length := (List.length_map _).symm
  have hsearch : ∀ e ∈ w.extendedItemTypes,
      (if type = -1 then decide (some e.uuid = uuid) else decide (e.type = type)) = true ↔ e.uuid = u := by
    intro e he
    rw [kindOf] at hkind
    by_cases hunknown : type = -1
    · rw [if_pos hunknown] at hkind ⊢
      obtain ⟨u', rfl, hu⟩ := Option.map_eq_some_iff.1 hkind
      rw [ItemKind.uuid.inj hu, decide_eq_true_eq]
      exact Option.some_inj
    · rw [if_neg hunknown] at hkind ⊢
      rw [decide_eq_true_eq]
      refine ⟨fun htype => ?_, hsame e he⟩
      obtain ⟨-, -, uuid', -, hkind'⟩ := h.types e he
      rw [kindOf, htype, if_neg hunknown, hkind] at hkind'
      exact (ItemKind.uuid.inj (Option.some.inj hkind')).symm
  have huuid : (if type = -1 then uuid else m.getUuid type) = some u := by
    rw [kindOf] at hkind
    split_ifs at hkind ⊢
    · obtain ⟨u', rfl, hu⟩ := Option.map_eq_some_iff.1 hkind
      rw [ItemKind.uuid.inj hu]
    · obtain ⟨u', hget, hu⟩ := Option.map_eq_some_iff.1 hkind
      rw [hget, ItemKind.uuid.inj hu]
    · exact absurd hkind nofun
  have huuids : w.extendedItemTypes.map CExtendedItemType.uuid = w.uuids := rfl
  rw [CDataFileWriter.getExtendedItemTypeIndex, findIdx_uuid hsearch, huuids]
  by_cases hmem : u ∈ w.uuids
  · rw [if_pos hmem, if_pos hmem]
  · rw [if_neg hmem, if_neg hmem, huuid, hlength, addUuid, hlength]
    rfl

/-- A type that is added stands for something. -/
lemma Written.exists_kind {type id : ℤ} {data : List UInt8} {uuid : Option CUuid} {w' : CDataFileWriter}
    (hstep : w.addItem m type id data uuid = some w') : ∃ kind, kindOf m type uuid = some kind := by
  rw [addItem] at hstep
  split_ifs at hstep with hvalid htype
  · obtain ⟨extended, hextended, -⟩ := Option.bind_eq_some_iff.1 hstep
    rw [kindOf]
    by_cases hunknown : type = -1
    · have hsome : uuid.isSome = true := by
        rcases hvalid.1 with hplain | hregistered | hsome
        · omega
        · rw [offsetUuid] at hregistered
          omega
        · exact hsome.2
      obtain ⟨u, rfl⟩ := Option.isSome_iff_exists.1 hsome
      exact ⟨.uuid u, if_pos hunknown⟩
    · have hregistered := htype.resolve_left hunknown
      rw [if_neg hunknown, if_pos hregistered]
      cases hget : m.getUuid type with
      | some u => exact ⟨_, rfl⟩
      | none =>
        rw [CDataFileWriter.getExtendedItemTypeIndex, if_neg hunknown, hget] at hextended
        split at hextended
        · next index hindex =>
          obtain ⟨hlt, hfound, -⟩ := List.findIdx?_eq_some_iff_getElem.1 hindex
          rw [if_neg hunknown, decide_eq_true_eq] at hfound
          obtain ⟨-, -, uuid', -, hkind⟩ := h.types _ (List.getElem_mem hlt)
          rw [hfound, kindOf, if_neg hunknown, if_pos hregistered, hget] at hkind
          cases hkind
        · cases hextended
  · rw [kindOf, if_neg fun hunknown => htype (.inl hunknown), if_neg fun hregistered => htype (.inr hregistered)]
    exact ⟨_, rfl⟩

/-- An item that is added is stored, behind the descriptor of its uuid if there was none. -/
lemma Written.addItem {type id : ℤ} {data : List UInt8} {uuid : Option CUuid} {w' : CDataFileWriter}
    (hsame : SameTypes m (before ++ [.addItem type id data uuid]))
    (hno : NoDescriptors m (before ++ [.addItem type id data uuid]))
    (hstep : w.addItem m type id data uuid = some w') : Written m (before ++ [.addItem type id data uuid]) w' := by
  obtain ⟨kind, hkind⟩ := h.exists_kind hstep
  have hadded : addedItems m (before ++ [.addItem type id data uuid]) = addedItems m before ++ [⟨kind, id, data⟩] := by
    rw [addedItems_append]
    congr 1
    show List.filterMap _ [_] = _
    rw [List.filterMap_cons_some (b := ⟨kind, id, data⟩) (by rw [WriterCall.item?, hkind]; rfl)]
    rfl
  have hdatas : addedDatas (before ++ [.addItem type id data uuid]) = addedDatas before := by
    rw [addedDatas_append]
    exact List.append_nil _
  have hmem : ∀ call ∈ before, call ∈ before ++ [WriterCall.addItem type id data uuid] :=
    fun call hcall => List.mem_append_left _ hcall
  have hlast : WriterCall.addItem type id data uuid ∈ before ++ [.addItem type id data uuid] :=
    List.mem_append_right _ (List.mem_singleton_self _)
  have hplain : kind ≠ .plain itemtypeEx := by
    refine hno ⟨kind, id, data⟩ ?_
    rw [hadded]
    exact List.mem_append_right _ (List.mem_singleton_self _)
  have htypes : ∀ e ∈ w.extendedItemTypes, ∃ id' data' uuid', .addItem e.type id' data' uuid' ∈
      before ++ [.addItem type id data uuid] ∧ kindOf m e.type uuid' = some (.uuid e.uuid) := by
    intro e he
    obtain ⟨id', data', uuid', hcall, hkind'⟩ := h.types e he
    exact ⟨id', data', uuid', hmem _ hcall, hkind'⟩
  rw [CDataFileWriter.addItem] at hstep
  split_ifs at hstep with hvalid hextended
  · obtain ⟨u, rfl⟩ := kindOf_uuid hextended hkind
    have hsame' : ∀ e ∈ w.extendedItemTypes, e.uuid = u → e.type = type := by
      intro e he heq
      obtain ⟨id', data', uuid', hcall, hkind'⟩ := htypes e he
      rw [heq] at hkind'
      exact hsame _ _ _ _ _ _ _ _ _ hcall hlast hkind' hkind
    have htype : ∀ type', ItemKind.uuid u = .plain type' → 0 ≤ type' ∧ type' < maxItemTypes := fun _ => nofun
    rw [h.getExtendedItemTypeIndex hkind hsame'] at hstep
    split_ifs at hstep with huuid hroom
    · -- the uuid has a descriptor
      obtain rfl := Option.some.inj hstep
      have hstored := @Stored.add w _ h.stored ⟨.uuid u, id, data⟩ hplain (fun u' hu => ItemKind.uuid.inj hu ▸ huuid) htype
        hvalid.2.1
      refine ⟨by rw [hadded]; exact hstored, ?_, htypes, by rw [hdatas]; exact h.datas, h.data_size⟩
      intro u' hu'
      rw [hadded]
      exact uuidsOf_append_left (h.uuids u' hu')
    · obtain rfl := Option.some.inj hstep
      have huuids := uuids_addUuid (w := w) type u
      have hindex : (w.uuids ++ [u]).idxOf u = w.uuids.length := by
        rw [List.idxOf_append_of_notMem huuid, List.idxOf_cons_self, Nat.add_zero]
      have hin : u ∈ (w.addUuid type u).uuids := by
        rw [huuids]
        exact List.mem_append_right _ (List.mem_singleton_self _)
      have hstored := @Stored.add _ _ (h.stored.addUuid type huuid hroom) ⟨.uuid u, id, data⟩ hplain
        (fun u' hu => ItemKind.uuid.inj hu ▸ hin) htype hvalid.2.1
      rw [huuids, internalOf, hindex] at hstored
      refine ⟨by rw [hadded]; exact hstored, ?_, ?_, by rw [hdatas]; exact h.datas, h.data_size⟩
      · intro u' hu'
        have hu'' : u' ∈ w.uuids ++ [u] := huuids ▸ hu'
        rw [hadded]
        rcases List.mem_append.1 hu'' with hold | hnew
        · exact uuidsOf_append_left (h.uuids u' hold)
        · rw [List.mem_singleton.1 hnew]
          exact mem_uuidsOf.2 ⟨_, List.mem_append_right _ (List.mem_singleton_self _), rfl⟩
      · intro e he
        have he' : e ∈ w.extendedItemTypes ++ [⟨type, u⟩] := he
        rcases List.mem_append.1 he' with hold | hnew
        · exact htypes e hold
        · rw [List.mem_singleton.1 hnew]
          exact ⟨id, data, uuid, hlast, hkind⟩
    · exact absurd hstep nofun
  · obtain rfl := Option.some.inj hstep
    obtain ⟨hunknown, hregistered⟩ := not_or.1 hextended
    rw [kindOf, if_neg hunknown, if_neg hregistered] at hkind
    obtain rfl := Option.some.inj hkind
    have htype : 0 ≤ type ∧ type < maxItemTypes :=
      hvalid.1.resolve_right fun hbad => hextended (hbad.elim .inr fun hbad => .inl hbad.1)
    have hstored := @Stored.add w _ h.stored ⟨.plain type, id, data⟩ hplain (fun u => nofun)
      (fun type' htype' => ItemKind.plain.inj htype' ▸ htype) hvalid.2.1
    refine ⟨by rw [hadded]; exact hstored, ?_, htypes, by rw [hdatas]; exact h.datas, h.data_size⟩
    intro u' hu'
    rw [hadded]
    exact uuidsOf_append_left (h.uuids u' hu')

lemma Written.addData {data : List UInt8} {level : ECompressionLevel} {w' : CDataFileWriter}
    (hstep : w.addData data level = some w') : Written m (before ++ [.addData data level]) w' := by
  rw [CDataFileWriter.addData] at hstep
  split_ifs at hstep with hvalid
  obtain rfl := Option.some.inj hstep
  have hadded : addedItems m (before ++ [.addData data level]) = addedItems m before := by
    rw [addedItems_append]
    exact List.append_nil _
  obtain ⟨⟨hlinks, hfit, hnodup, hmem, hroom, hitems, hdescriptors⟩, huuids, htypes, hdatas, hsize⟩ := h
  rw [← hadded] at hmem hitems huuids
  refine ⟨⟨hlinks, hfit, hnodup, hmem, hroom, hitems, hdescriptors⟩, huuids, ?_, ?_, ?_⟩
  · intro e he
    obtain ⟨id, data', uuid, hcall, hkind⟩ := htypes e he
    exact ⟨id, data', uuid, List.mem_append_left _ hcall, hkind⟩
  · rw [addedDatas_append, List.map_append, hdatas]
    rfl
  · intro info hinfo
    rcases List.mem_append.1 hinfo with hold | hnew
    · exact hsize info hold
    · rw [List.mem_singleton.1 hnew]
      exact hvalid.2

end step

/-- A run writes what its calls add. -/
lemma written_run {before calls : List WriterCall} {w w' : CDataFileWriter} (h : Written m before w)
    (hsame : SameTypes m (before ++ calls)) (hno : NoDescriptors m (before ++ calls)) (hrun : w.run m calls = some w') :
    Written m (before ++ calls) w' := by
  induction calls generalizing before w with
  | nil =>
    obtain rfl := Option.some.inj hrun
    rwa [List.append_nil]
  | cons call calls ih =>
    obtain ⟨next, hstep, hrun⟩ := Option.bind_eq_some_iff.1 hrun
    have hsplit : before ++ call :: calls = (before ++ [call]) ++ calls := by
      rw [List.append_assoc]
      rfl
    rw [hsplit] at hsame hno ⊢
    have hsame' : SameTypes m (before ++ [call]) := hsame.of_subset (List.subset_append_left _ _)
    have hno' : NoDescriptors m (before ++ [call]) := by
      intro item hitem
      refine hno item ?_
      rw [addedItems_append]
      exact List.mem_append_left _ hitem
    refine ih ?_ hsame hno hrun
    cases call with
    | addItem type id data uuid => exact h.addItem hsame' hno' hstep
    | addData data level => exact h.addData hstep

end CDataFileWriter

end DDNet
