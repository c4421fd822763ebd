/-
What is added to a `CDataFileWriter` is what a `CDataFileReader` finds in the file (`finish_reads`).

The reader may know other uuids than the writer: a uuid that it does not know is read with the type `UUID_UNKNOWN`, for
every such uuid the same.
-/
import DDNet.Shared.DatafileWritten

namespace DDNet

open Lib Groups

/-! ### What is read -/

/-- The type and the uuid that a kind is read with. -/
def ItemKind.ReadAs (m : CUuidManager) (type : ℤ) (uuid : CUuid) : ItemKind → Prop
  | .plain t => type = t ∧ uuid = uuidZeroed
  | .uuid u => uuid = u ∧ (∀ t, offsetUuid ≤ t → m.getUuid t = some u → type = t) ∧
      (u ∉ m.names → type = uuidUnknown)

/-- The plain types are below the internal ones of the uuids. -/
def ItemKind.InRange (numUuids : ℕ) : ItemKind → Prop
  | plain type => type + numUuids < itemtypeEx
  | uuid _ => True

/-- The items of a kind, in the order in which they were added. -/
def ofKind (items : List AddedItem) (kind : ItemKind) : List AddedItem := items.filter fun item => item.kind = kind

/-- What `GetItem` has returned is the added item. -/
structure CDatafile.Item.Is (m : CUuidManager) (df : CDatafile) (found : CDatafile.Item) (item : AddedItem) : Prop where
  kind : item.kind.ReadAs m found.type found.uuid
  id : found.id = item.id
  pos : 0 ≤ found.pos
  data : (df.data.drop found.pos.toNat).take item.data.length = item.data

/-- The items are read one behind the other. -/
def ReadsItems (m : CUuidManager) (df : CDatafile) (start : ℕ) (items : List AddedItem) : Prop :=
  ∀ (k : ℕ) item, items[k]? = some item → df.getItemSize (start + k : ℕ) = some (BitVec.ofNat 32 item.data.length) ∧
    ∀ fuel, ∃ found, df.getItem m (fuel + 2) (start + k : ℕ) = some found ∧ found.Is m df item

/-- The sizes and contents of data, one read after the other. -/
def CDatafile.getDatas (uncompress : List UInt8 → ℕ → Option (List UInt8)) (df : CDatafile) :
    List ℤ → Option (List (BitVec 32 × Option (List UInt8)))
  | [] => some []
  | i :: is => do
      let size ← df.getDataSize i
      let data ← df.getData uncompress i
      let rest ← data.2.getDatas uncompress is
      return (size, data.1) :: rest

/-- The file has these items and data. -/
structure RoundTrip (m : CUuidManager) (uncompress : List UInt8 → ℕ → Option (List UInt8)) (items : List AddedItem)
    (datas : List (List UInt8)) (df : CDatafile) : Prop where
  /-- There are no other items than the added ones, and one for every uuid. -/
  numItems : df.numItems = items.length + (uuidsOf items).length
  kinds : ∀ kind, ∃ start, ReadsItems m df start (ofKind items kind)
  getType : ∀ type kind, kindOf m type none = some kind → kind.InRange (uuidsOf items).length → ∀ fuel,
    ∃ start : ℕ, df.getType m (df.getItem m (fuel + 2)) type = some ((start : ℤ), ((ofKind items kind).length : ℤ)) ∧
      ReadsItems m df start (ofKind items kind)
  /-- The first item with the id is found; there is only one if the ids of the type are distinct. -/
  findItem : ∀ type kind, kindOf m type none = some kind → kind.InRange (uuidsOf items).length → ∀ id fuel,
    ∃ found, df.findItem m (fuel + 2) type id = some found ∧
      match (ofKind items kind).find? fun item => item.id = id with
      | some item => ∃ it, found = some it ∧ it.Is m df item
      | none => found = none
  numRawData : df.numRawData = datas.length
  datas : ∀ is, df.getDatas uncompress is = some (is.map fun i =>
    (BitVec.ofNat 32 ((dataAt datas i).elim 0 List.length), dataAt datas i))

/-- The calls of a writer: no item is added as one of the internal types of the uuids. -/
structure WellTyped (m : CUuidManager) (calls : List WriterCall) : Prop where
  plain : ∀ item ∈ addedItems m calls, item.kind.InRange (uuidsOf (addedItems m calls)).length
  /-- The reader takes types up to this one for plain. -/
  room : offsetUuidType + (uuidsOf (addedItems m calls)).length < itemtypeEx
  same : SameTypes m calls

/-! ### Loops -/

namespace CDatafile

/-- The search for a uuid among its descriptors. -/
lemma uuidLoop_list {df : CDatafile} {getItem : ℤ → Option Item} {us : List CUuid} {ids : ℕ → ℤ} {i : ℤ} (uuid : CUuid)
    (h : ∀ (k : ℕ) u, us[k]? = some u → df.getItemSize (i + k) = some (BitVec.ofNat 32 sizeofItemEx) ∧
      df.itemEx (i + k) = some (CItemEx.fromUuid u) ∧ ∃ item, getItem (i + k) = some item ∧ item.id = ids k) :
    df.uuidLoop getItem uuid i us.length = some (if uuid ∈ us then ids (us.idxOf uuid) else -1) := by
  induction us generalizing i ids with
  | nil =>
    rw [if_neg List.not_mem_nil]
    rfl
  | cons u us ih =>
    obtain ⟨hsize, hitemEx, item, hitem, hid⟩ := h 0 u rfl
    rw [Nat.cast_zero, add_zero] at hsize hitemEx hitem
    have hlong : ¬ (BitVec.ofNat 32 sizeofItemEx).toInt < sizeofItemEx := by
      rw [toInt_ofNat_of_le (by rw [sizeofItemEx, maxInt]; omega)]
      exact lt_irrefl _
    rw [List.length_cons, uuidLoop, hsize, Option.bind_eq_bind, Option.bind_some, if_neg hlong, hitem, hitemEx]
    rw [Option.bind_eq_bind, Option.bind_some, Option.bind_eq_bind, Option.bind_some]
    have hback := CItemEx.toUuid_fromUuid u
    by_cases huuid : u = uuid
    · subst huuid
      rw [if_pos hback, if_pos List.mem_cons_self, List.idxOf_cons_self, hid, Option.pure_def]
    · rw [if_neg (by rwa [hback]), @ih (fun k => ids (k + 1)) (i + 1) fun k u' hu' => by
        have hnext := h (k + 1) u' hu'
        rwa [Nat.cast_add, Nat.cast_one, add_comm (k : ℤ), ← add_assoc] at hnext, List.idxOf_cons_ne _ huuid]
      by_cases hmem : uuid ∈ us
      · rw [if_pos hmem, if_pos (List.mem_cons_of_mem _ hmem)]
      · rw [if_neg hmem, if_neg fun hcons => hmem ((List.mem_cons.1 hcons).resolve_left (Ne.symm huuid))]

end CDatafile

/-- A uuid has the id that it is registered with. -/
lemma CUuidManager.lookupUuid_eq {m : CUuidManager} {u : CUuid} {type : ℤ} (hle : offsetUuid ≤ type)
    (hget : m.getUuid type = some u) : m.lookupUuid u = type := by
  obtain ⟨hlt, hfound⟩ := List.getElem?_eq_some_iff.1 hget
  have hindex : m.names.idxOf? u = some (type - offsetUuid).toNat := by
    rw [← hfound]
    refine List.idxOf?_eq_some_iff.2 ⟨hlt, rfl, fun j hj => ?_⟩
    have hne := (@List.Nodup.getElem_inj_iff _ _ m.nodup j (hj.trans hlt) _ hlt).not.2 hj.ne
    simpa using hne
  rw [lookupUuid, hindex]
  dsimp only
  omega

lemma CUuidManager.lookupUuid_of_notMem {m : CUuidManager} {u : CUuid} (h : u ∉ m.names) :
    m.lookupUuid u = uuidUnknown := by
  rw [lookupUuid, List.idxOf?_eq_none_iff.2 h]

/-! ### Items -/

namespace Layout

variable {m : CUuidManager} {df : CDatafile} {entries : List (ℤ × ℕ × ℕ)} {items : List CItemInfo}
  {datas : List (List UInt8)} {sizes : List ℕ} (h : Layout df entries items datas sizes)

include h

/-- An item is read with its id and data, and with the type that its internal type stands for. -/
lemma getItemStep_eq {i : ℕ} {item : CItemInfo} (hitem : items[i]? = some item) (hfits : item.Fits)
    {getItem : ℤ → Option CDatafile.Item} {external : ℤ × CUuid}
    (hexternal : df.getExternalItemType m getItem item.type = some external) :
    ∃ found, df.getItemStep m getItem i = some found ∧ found.type = external.1 ∧ found.uuid = external.2 ∧
      found.id = item.id ∧ 0 ≤ found.pos ∧ (df.data.drop found.pos.toNat).take item.data.length = item.data := by
  obtain ⟨hi, rfl⟩ := List.getElem?_eq_some_iff.1 hitem
  have hfile := h.fits
  have hle := sum_take_le (items.map storedSize) i
  have hpos : df.itemStart + (BitVec.ofNat 32 ((items.map storedSize).take i).sum).toInt + sizeofDatafileItem =
      ((df.itemStart + ((items.map storedSize).take i).sum + sizeofDatafileItem : ℕ) : ℤ) := by
    rw [toInt_ofNat_of_le (by omega)]
    push_cast
    ring
  refine ⟨⟨external.1, items[i].id, external.2, _⟩, ?_, rfl, rfl, rfl, Int.natCast_nonneg _, h.data_eq hi⟩
  rw [CDatafile.getItemStep, h.itemOffset_eq hi, h.internalType_eq hi hfits, h.itemId_eq hi hfits]
  simp only [Option.bind_eq_bind, Option.bind_some, hexternal, hpos]
  rfl

end Layout

namespace CDataFileWriter

lemma getElem?_descriptors (us : List CUuid) (index k : ℕ) :
    (descriptors us index)[k]? =
      us[k]?.map fun uuid => ⟨itemtypeEx, getTypeFromIndex (index + k), itemExBytes uuid⟩ := by
  induction us generalizing index k with
  | nil => rfl
  | cons uuid us ih =>
    cases k with
    | zero => rfl
    | succ k => rw [descriptors, List.getElem?_cons_succ, List.getElem?_cons_succ, ih, Nat.add_assoc, Nat.add_comm 1]

lemma length_descriptors (us : List CUuid) (index : ℕ) : (descriptors us index).length = us.length := by
  induction us generalizing index with
  | nil => rfl
  | cons uuid us ih => rw [descriptors, List.length_cons, ih, List.length_cons]

lemma length_itemExBytes (uuid : CUuid) : (itemExBytes uuid).length = sizeofItemEx := by
  rw [itemExBytes, length_tableBytes, List.length_ofFn]
  rfl

variable {m m' : CUuidManager} {calls : List WriterCall} {w : CDataFileWriter} {df : CDatafile}
  {datas : List (List UInt8)} {sizes : List ℕ}

section read

variable (h : Written m calls w) (hlayout : Layout df w.typeEntries w.sortedItems datas sizes)

include h

/-- There are as many uuids as descriptors. -/
lemma Written.length_uuids : w.uuids.length = (uuidsOf (addedItems m calls)).length := by
  refine ((List.perm_ext_iff_of_nodup h.stored.nodup (List.nodup_dedup _)).2 fun uuid => ⟨h.uuids uuid, ?_⟩).length_eq
  intro huuid
  obtain ⟨item, hitem, hkind⟩ := mem_uuidsOf.1 huuid
  exact h.stored.mem_uuids item hitem uuid hkind

lemma Written.fits_of_getElem {i : ℕ} {item : CItemInfo} (hitem : w.sortedItems[i]? = some item) : item.Fits :=
  h.stored.fit item ((sortedItems_perm h.stored.links h.stored.fit).mem_iff.1 (List.mem_of_getElem? hitem))

/-- The items of a kind are those of its internal type. -/
lemma Written.group_internalOf (htyped : WellTyped m calls) {kind : ItemKind} (hrange : kind.InRange w.uuids.length)
    (huuid : ∀ uuid, kind = .uuid uuid → uuid ∈ w.uuids) :
    group CItemInfo.type w.items (internalOf w.uuids kind) =
      (ofKind (addedItems m calls) kind).map (storedItem w.uuids) := by
  have hlow : ∀ uuid ∈ w.uuids, itemtypeEx - w.uuids.length ≤ internalOf w.uuids (.uuid uuid) := by
    intro uuid hmem
    have hlt := List.idxOf_lt_length_of_mem hmem
    rw [internalOf, getTypeFromIndex]
    omega
  have hne : internalOf w.uuids kind ≠ itemtypeEx := by
    refine internalOf_ne fun heq => ?_
    rw [heq] at hrange
    have hlt : itemtypeEx + w.uuids.length < itemtypeEx := hrange
    omega
  have hgroup : group CItemInfo.type w.items (internalOf w.uuids kind) =
      group CItemInfo.type (w.items.filter fun item => item.type ≠ itemtypeEx) (internalOf w.uuids kind) := by
    rw [group, group, List.filter_filter]
    refine List.filter_congr fun item _ => ?_
    by_cases htype : item.type = internalOf w.uuids kind <;> simp [htype, hne]
  rw [hgroup, h.stored.items, group, List.filter_map]
  refine congrArg _ (List.filter_congr fun item hitem => ?_)
  have hitemRange := htyped.plain item hitem
  rw [← h.length_uuids] at hitemRange
  refine decide_eq_decide.2 ⟨fun htype => ?_, fun hkind => congrArg (internalOf w.uuids) hkind⟩
  -- different kinds have different internal types
  have htype' : internalOf w.uuids item.kind = internalOf w.uuids kind := htype
  have hmem := h.stored.mem_uuids item hitem
  generalize item.kind = kind' at *
  cases kind with
  | plain type =>
    cases kind' with
    | plain type' => exact congrArg ItemKind.plain htype'
    | uuid uuid =>
      have hlow' := hlow uuid (hmem uuid rfl)
      rw [htype'] at hlow'
      have hlt : type + w.uuids.length < itemtypeEx := hrange
      have hle : itemtypeEx - w.uuids.length ≤ type := hlow'
      omega
  | uuid uuid =>
    cases kind' with
    | plain type =>
      have hlow' := hlow uuid (huuid uuid rfl)
      rw [← htype'] at hlow'
      have hlt : type + w.uuids.length < itemtypeEx := hitemRange
      have hle : itemtypeEx - w.uuids.length ≤ type := hlow'
      omega
    | uuid uuid' =>
      rw [internalOf, internalOf, getTypeFromIndex, getTypeFromIndex] at htype'
      exact congrArg ItemKind.uuid ((List.idxOf_inj (hmem uuid' rfl)).1 (by omega))

include hlayout

/-- The items of an internal type are found one behind the other. -/
lemma Written.exists_range (type : ℤ) : ∃ start : ℕ,
    df.lookupType type = some ((start : ℤ), ((group CItemInfo.type w.items type).length : ℤ)) ∧
      ∀ (k : ℕ) item, (group CItemInfo.type w.items type)[k]? = some item → w.sortedItems[start + k]? = some item := by
  have hperm := sortedItems_perm h.stored.links h.stored.fit
  have hfile := hlayout.fits
  have hitems : w.items.length ≤ maxInt := by
    rw [← hperm.length_eq]
    omega
  rw [hlayout.lookupType_eq (typeEntries_fit h.stored.links h.stored.fit hitems), typeEntries,
    find_entries w.numOf types_nodup]
  by_cases hentry : type ∈ CDataFileWriter.types ∧ w.numOf type ≠ 0
  · obtain ⟨front, rest, hsplit, hlength⟩ := grouped_split CItemInfo.type w.items hentry.1
    have hstart : front.length = start w.numOf CDataFileWriter.types type := hlength
    rw [if_pos hentry, Nat.zero_add, ← hstart]
    refine ⟨front.length, rfl, ?_⟩
    intro k item hitem
    obtain ⟨hk, -⟩ := List.getElem?_eq_some_iff.1 hitem
    rw [sortedItems_eq h.stored.links, hsplit, List.getElem?_append_right (Nat.le_add_right _ _),
      Nat.add_sub_cancel_left, List.getElem?_append_left hk, hitem]
  · have hnil : group CItemInfo.type w.items type = [] := by
      by_cases htype : type ∈ CDataFileWriter.types
      · exact List.length_eq_zero_iff.1 (not_not.1 fun hnum => hentry ⟨htype, hnum⟩)
      · refine List.eq_nil_iff_forall_not_mem.2 fun item hitem => ?_
        obtain ⟨hmem, rfl⟩ := mem_group.1 hitem
        exact htype (mem_types.2 (h.stored.fit item hmem).1)
    rw [if_neg hentry, hnil]
    exact ⟨0, rfl, fun k item hitem => absurd (List.mem_of_getElem? hitem) List.not_mem_nil⟩

variable (m') in
/-- The descriptors are read. -/
lemma Written.exists_descriptors : ∃ start : ℕ,
    df.lookupType itemtypeEx = some ((start : ℤ), (w.uuids.length : ℤ)) ∧
      ∀ (k : ℕ) uuid, w.uuids[k]? = some uuid →
        df.getItemSize ((start : ℤ) + k) = some (BitVec.ofNat 32 sizeofItemEx) ∧
          df.itemEx ((start : ℤ) + k) = some (CItemEx.fromUuid uuid) ∧
            ∀ fuel, ∃ found, df.getItem m' (fuel + 1) ((start : ℤ) + k) = some found ∧ found.id = getTypeFromIndex k := by
  obtain ⟨start, hlookup, hitems⟩ := h.exists_range hlayout itemtypeEx
  have hgroup : group CItemInfo.type w.items itemtypeEx = descriptors w.uuids 0 := h.stored.descriptors
  rw [hgroup] at hlookup hitems
  rw [length_descriptors] at hlookup
  refine ⟨start, hlookup, fun k uuid huuid => ?_⟩
  have hitem := hitems k ⟨itemtypeEx, getTypeFromIndex k, itemExBytes uuid⟩ (by
    rw [getElem?_descriptors, huuid, Nat.zero_add]
    rfl)
  have hfits := h.fits_of_getElem hitem
  obtain ⟨hi, hget⟩ := List.getElem?_eq_some_iff.1 hitem
  rw [← Nat.cast_add]
  refine ⟨?_, ?_, fun fuel => ?_⟩
  · rw [hlayout.getItemSize_eq hi, hget, length_itemExBytes]
  · exact hlayout.itemEx_eq hi (by rw [hget])
  · obtain ⟨found, hfound, -, -, hid, -⟩ := @Layout.getItemStep_eq m' _ _ _ _ _ hlayout _ _ hitem hfits
      (df.getItem m' fuel) (itemtypeEx, uuidZeroed) (by rw [CDatafile.getExternalItemType, if_pos (.inr rfl)]; rfl)
    exact ⟨found, hfound, hid⟩

variable (m') in
/-- The internal type of a kind is turned into the type that it is read with. -/
lemma Written.external_eq (htyped : WellTyped m calls) {kind : ItemKind} (hrange : kind.InRange w.uuids.length)
    (huuid : ∀ uuid, kind = .uuid uuid → uuid ∈ w.uuids) (fuel : ℕ) : ∃ external,
      df.getExternalItemType m' (df.getItem m' (fuel + 1)) (internalOf w.uuids kind) = some external ∧
        kind.ReadAs m' external.1 external.2 := by
  obtain ⟨start, hlookup, hdescriptors⟩ := h.exists_descriptors m' hlayout
  have hindex : ∀ type, df.findItemIndex m' (df.getItem m' (fuel + 1)) itemtypeEx type =
      CDatafile.findLoop (df.getItem m' (fuel + 1)) type start w.uuids.length := by
    intro type
    rw [CDatafile.findItemIndex, CDatafile.getType, CDatafile.getInternalItemType, if_pos CDatafile.itemtypeEx_lt,
      Option.bind_eq_bind, Option.pure_def, Option.bind_eq_bind, Option.bind_some, hlookup, Option.bind_some]
    rfl
  have hread : ∀ k < w.uuids.length, ∃ found, df.getItem m' (fuel + 1) ((start : ℤ) + (k : ℕ)) = some found ∧
      found.id = getTypeFromIndex k := by
    intro k hk
    obtain ⟨-, -, hget⟩ := hdescriptors k w.uuids[k] (List.getElem?_eq_getElem hk)
    exact hget fuel
  obtain ⟨r, hr⟩ := @CDatafile.exists_findLoop (df.getItem m' (fuel + 1)) (internalOf w.uuids kind) start
    w.uuids.length fun k hk _ => (hread k hk).imp fun _ h => h.1
  rw [CDatafile.getExternalItemType, hindex, hr]
  cases kind with
  | plain type =>
    split_ifs with hplain
    · exact ⟨_, rfl, rfl, rfl⟩
    · -- no descriptor has the type as its id
      have hlt : type + w.uuids.length < itemtypeEx := hrange
      rcases CDatafile.findLoop_spec hr with ⟨rfl, -⟩ | ⟨k, hk, rfl, ⟨found, hfound, hid⟩, -⟩
      · exact ⟨(type, uuidZeroed), rfl, rfl, rfl⟩
      · obtain ⟨found', hfound', hid'⟩ := hread k hk
        obtain rfl := Option.some.inj (hfound.symm.trans hfound')
        have heq : type = getTypeFromIndex k := hid.symm.trans hid'
        rw [getTypeFromIndex] at heq
        omega
  | uuid uuid =>
    have hmem := huuid uuid rfl
    have hlt := List.idxOf_lt_length_of_mem hmem
    have hroom := htyped.room
    rw [← h.length_uuids] at hroom
    have htype : ¬ (internalOf w.uuids (.uuid uuid) ≤ offsetUuidType ∨ internalOf w.uuids (.uuid uuid) = itemtypeEx) := by
      rw [internalOf, getTypeFromIndex]
      omega
    rw [if_neg htype, Option.bind_eq_bind, Option.bind_some]
    have hfoundIndex : r = (start : ℤ) + (w.uuids.idxOf uuid : ℕ) := by
      rcases CDatafile.findLoop_spec hr with ⟨-, hall⟩ | ⟨k, hk, rfl, ⟨found, hfound, hid⟩, -⟩
      · obtain ⟨found, hfound, hne⟩ := hall _ hlt
        obtain ⟨found', hfound', hid'⟩ := hread _ hlt
        obtain rfl := Option.some.inj (hfound.symm.trans hfound')
        exact absurd hid' hne
      · obtain ⟨found', hfound', hid'⟩ := hread k hk
        obtain rfl := Option.some.inj (hfound.symm.trans hfound')
        have heq : getTypeFromIndex (w.uuids.idxOf uuid) = getTypeFromIndex k := hid.symm.trans hid'
        rw [getTypeFromIndex, getTypeFromIndex] at heq
        omega
    obtain ⟨hsize, hitemEx, hget⟩ := hdescriptors _ uuid (by
      rw [List.getElem?_eq_getElem hlt, List.getElem_idxOf])
    obtain ⟨found, hfound, -⟩ := hget fuel
    have hlong : ¬ (BitVec.ofNat 32 sizeofItemEx).toInt < sizeofItemEx := by
      rw [toInt_ofNat_of_le (by rw [sizeofItemEx, maxInt]; omega)]
      exact lt_irrefl _
    rw [hfoundIndex, if_neg (by omega), hsize, Option.bind_eq_bind, Option.bind_some, if_neg hlong, hfound, hitemEx,
      Option.bind_eq_bind, Option.bind_some, Option.bind_eq_bind, Option.bind_some, CItemEx.toUuid_fromUuid]
    exact ⟨_, rfl, rfl, fun t hle hget => CUuidManager.lookupUuid_eq hle hget,
      fun hunknown => CUuidManager.lookupUuid_of_notMem hunknown⟩

variable (m') in
/-- The items of a kind are read one behind the other. -/
lemma Written.readsItems (htyped : WellTyped m calls) {kind : ItemKind} (hrange : kind.InRange w.uuids.length)
    (huuid : ∀ uuid, kind = .uuid uuid → uuid ∈ w.uuids) : ∃ start : ℕ,
      df.lookupType (internalOf w.uuids kind) =
        some ((start : ℤ), ((ofKind (addedItems m calls) kind).length : ℤ)) ∧
          ReadsItems m' df start (ofKind (addedItems m calls) kind) := by
  obtain ⟨start, hlookup, hitems⟩ := h.exists_range hlayout (internalOf w.uuids kind)
  rw [h.group_internalOf htyped hrange huuid] at hlookup hitems
  rw [List.length_map] at hlookup
  refine ⟨start, hlookup, fun k item hitem => ?_⟩
  have hstored := hitems k (storedItem w.uuids item) (by rw [List.getElem?_map, hitem]; rfl)
  have hfits := h.fits_of_getElem hstored
  obtain ⟨hi, hget⟩ := List.getElem?_eq_some_iff.1 hstored
  have hkind : item.kind = kind := of_decide_eq_true (List.mem_filter.1 (List.mem_of_getElem? hitem)).2
  refine ⟨?_, fun fuel => ?_⟩
  · rw [hlayout.getItemSize_eq hi, hget]
    rfl
  · obtain ⟨external, hexternal, hread⟩ := h.external_eq m' hlayout htyped hrange huuid fuel
    rw [← hkind] at hexternal hread
    obtain ⟨found, hfound, htype, huuid', hid, hpos, hdata⟩ := hlayout.getItemStep_eq hstored hfits hexternal
    refine ⟨found, hfound, ⟨?_, hid, hpos, hdata⟩⟩
    rw [htype, huuid']
    exact hread

/-- A kind that can be asked for has an internal type, -1 if there are no items of it. -/
lemma Written.getInternalItemType {type : ℤ} {kind : ItemKind} (hkind : kindOf m' type none = some kind) (fuel : ℕ) :
    (df.getInternalItemType m' (df.getItem m' (fuel + 1)) type = some (internalOf w.uuids kind) ∧
      ∀ uuid, kind = .uuid uuid → uuid ∈ w.uuids) ∨
    (df.getInternalItemType m' (df.getItem m' (fuel + 1)) type = some (-1) ∧ ∃ uuid, kind = .uuid uuid ∧ uuid ∉ w.uuids) := by
  rw [kindOf] at hkind
  split_ifs at hkind with hunknown hregistered
  · cases hkind
  · obtain ⟨uuid, huuid, rfl⟩ := Option.map_eq_some_iff.1 hkind
    obtain ⟨start, hlookup, hdescriptors⟩ := h.exists_descriptors m' hlayout
    have hloop := @CDatafile.uuidLoop_list df (df.getItem m' (fuel + 1)) w.uuids getTypeFromIndex start uuid
      fun k u hu => ⟨(hdescriptors k u hu).1, (hdescriptors k u hu).2.1, (hdescriptors k u hu).2.2 fuel⟩
    rw [CDatafile.getInternalItemType, if_neg (not_lt.2 hregistered), huuid, Option.bind_eq_bind, Option.bind_some,
      hlookup, Option.bind_eq_bind, Option.bind_some]
    dsimp only
    rw [Int.toNat_natCast, hloop]
    by_cases hmem : uuid ∈ w.uuids
    · exact .inl ⟨congrArg some (if_pos hmem), fun u hu => ItemKind.uuid.inj hu ▸ hmem⟩
    · exact .inr ⟨congrArg some (if_neg hmem), uuid, rfl, hmem⟩
  · obtain rfl := Option.some.inj hkind
    exact .inl ⟨if_pos (not_le.1 hregistered), fun _ huuid => ItemKind.noConfusion huuid⟩

lemma Written.getType (htyped : WellTyped m calls) {type : ℤ} {kind : ItemKind} (hkind : kindOf m' type none = some kind)
    (hrange : kind.InRange w.uuids.length) (fuel : ℕ) : ∃ start : ℕ,
      df.getType m' (df.getItem m' (fuel + 1)) type =
        some ((start : ℤ), ((ofKind (addedItems m calls) kind).length : ℤ)) ∧
          ReadsItems m' df start (ofKind (addedItems m calls) kind) := by
  rw [CDatafile.getType]
  rcases h.getInternalItemType hlayout hkind fuel with ⟨hinternal, huuid⟩ | ⟨hinternal, uuid, rfl, huuid⟩
  · obtain ⟨start, hlookup, hreads⟩ := h.readsItems m' hlayout htyped hrange huuid
    rw [hinternal]
    exact ⟨start, hlookup, hreads⟩
  · have hnil : ofKind (addedItems m calls) (.uuid uuid) = [] := by
      refine List.filter_eq_nil_iff.2 fun item hitem htrue => huuid ?_
      exact h.stored.mem_uuids item hitem uuid (of_decide_eq_true htrue)
    obtain ⟨start, hlookup, -⟩ := h.exists_range hlayout (-1)
    have hgroup : group CItemInfo.type w.items (-1) = [] := by
      refine List.eq_nil_iff_forall_not_mem.2 fun item hitem => ?_
      obtain ⟨hmem, htype⟩ := mem_group.1 hitem
      have hpos := (h.stored.fit item hmem).1.1
      omega
    rw [hgroup] at hlookup
    rw [hinternal, hnil]
    exact ⟨start, hlookup, fun k item hitem => absurd (List.mem_of_getElem? hitem) List.not_mem_nil⟩

/-- The first item with the id is found. -/
lemma Written.findItem (htyped : WellTyped m calls) {type : ℤ} {kind : ItemKind} (hkind : kindOf m' type none = some kind)
    (hrange : kind.InRange w.uuids.length) (id : ℤ) (fuel : ℕ) : ∃ found, df.findItem m' (fuel + 2) type id = some found ∧
      match (ofKind (addedItems m calls) kind).find? fun item => item.id = id with
      | some item => ∃ it, found = some it ∧ it.Is m' df item
      | none => found = none := by
  obtain ⟨start, hgetType, hreads⟩ := h.getType hlayout htyped hkind hrange (fuel + 1)
  generalize ofKind (addedItems m calls) kind = items at *
  have hread : ∀ k (hk : k < items.length), ∃ found, df.getItem m' (fuel + 2) ((start : ℤ) + (k : ℕ)) = some found ∧
      found.Is m' df items[k] := by
    intro k hk
    rw [← Nat.cast_add]
    exact (hreads k items[k] (List.getElem?_eq_getElem hk)).2 fuel
  obtain ⟨r, hr⟩ := @CDatafile.exists_findLoop (df.getItem m' (fuel + 2)) id start items.length
    fun k hk _ => (hread k hk).imp fun _ h => h.1
  have hindex : df.findItemIndex m' (df.getItem m' (fuel + 2)) type id = some r := by
    rw [CDatafile.findItemIndex, hgetType, Option.bind_eq_bind, Option.bind_some]
    exact hr
  rw [CDatafile.findItem, hindex, Option.bind_eq_bind, Option.bind_some]
  -- every item that is passed has another id
  have hother : ∀ k, k < items.length → ∀ found, df.getItem m' (fuel + 2) ((start : ℤ) + (k : ℕ)) = some found →
      ∀ item, items[k]? = some item → found.id = item.id := by
    intro k hk found hfound item hitem
    obtain ⟨found', hfound', his⟩ := hread k hk
    obtain rfl := Option.some.inj (hfound.symm.trans hfound')
    rw [List.getElem?_eq_getElem hk] at hitem
    rw [← Option.some.inj hitem]
    exact his.id
  rcases CDatafile.findLoop_spec hr with ⟨rfl, hall⟩ | ⟨k, hk, rfl, ⟨found, hfound, hid⟩, hbefore⟩
  · have hnone : (items.find? fun item => item.id = id) = none := by
      refine List.find?_eq_none.2 fun item hitem htrue => ?_
      obtain ⟨k, hk, rfl⟩ := List.mem_iff_getElem.1 hitem
      obtain ⟨found, hfound, hne⟩ := hall k hk
      exact hne ((hother k hk found hfound _ (List.getElem?_eq_getElem hk)).trans (of_decide_eq_true htrue))
    rw [if_pos (by decide), hnone]
    exact ⟨none, rfl, rfl⟩
  · have hsome : (items.find? fun item => item.id = id) = some items[k] := by
      refine List.find?_eq_some_iff_getElem.2 ⟨?_, k, hk, rfl, fun j hj => ?_⟩
      · exact decide_eq_true ((hother k hk found hfound _ (List.getElem?_eq_getElem hk)).symm.trans hid)
      · obtain ⟨found', hfound', hne⟩ := hbefore j hj
        have hidj := hother j (hj.trans hk) found' hfound' _ (List.getElem?_eq_getElem (hj.trans hk))
        rw [hidj] at hne
        simpa using hne
    obtain ⟨found', hfound', his⟩ := hread k hk
    obtain rfl := Option.some.inj (hfound.symm.trans hfound')
    rw [if_neg (by omega), hfound, hsome]
    exact ⟨some found, rfl, found, rfl, his⟩

end read

/-- What is read of data, whatever has been read before. -/
lemma getDatas_eq {entries : List (ℤ × ℕ × ℕ)} {items : List CItemInfo} {written : List (List UInt8)}
    {uncompress : List UInt8 → ℕ → Option (List UInt8)}
    (hlayout : Layout df entries items datas (written.map List.length)) (hcompressed : Compressed uncompress datas written)
    (hcached : Cached written df) (is : List ℤ) : df.getDatas uncompress is = some (is.map fun i =>
      (BitVec.ofNat 32 ((dataAt written i).elim 0 List.length), dataAt written i)) := by
  induction is generalizing df with
  | nil => rfl
  | cons i is ih =>
    obtain ⟨df', hdata, hlayout', hcached'⟩ := hlayout.getData_eq hcompressed hcached i
    rw [CDatafile.getDatas, hlayout.getDataSize_eq hcompressed hcached, hdata, Option.bind_eq_bind, Option.bind_some,
      Option.bind_eq_bind, Option.bind_some, ih hlayout' hcached']
    rfl

/-- What a run has written is read from the file of `Finish`. -/
lemma Written.roundTrip (h : Written m calls w) (htyped : WellTyped m calls)
    {compress : ECompressionLevel → List UInt8 → List UInt8} {uncompress : List UInt8 → ℕ → Option (List UInt8)}
    (hlossless : ∀ level data, uncompress (compress level data) data.length = some data)
    (hstreams : ∀ level data, 6 ≤ (compress level data).length) {bytes : List UInt8}
    (hfinish : w.finish compress = some bytes) : ∃ df, openDatafile bytes = .opened df ∧
      RoundTrip m' uncompress (addedItems m calls) (addedDatas calls) df := by
  obtain ⟨df, hopen, hlayout, hptrs, hsizes⟩ := finish_opens h.stored.links h.stored.fit hstreams hfinish
  have hnum := h.length_uuids
  have hlength : w.items.length = (addedItems m calls).length + (uuidsOf (addedItems m calls)).length := by
    have hsplit := List.length_eq_length_filter_add (l := w.items) fun item => decide (item.type = itemtypeEx)
    have hitems := congrArg List.length h.stored.items
    have hdescriptors := congrArg List.length h.stored.descriptors
    rw [List.length_map] at hitems
    rw [length_descriptors, hnum] at hdescriptors
    simp only [decide_not] at hitems
    omega
  refine ⟨df, hopen, ?_, ?_, ?_, ?_, ?_, ?_⟩
  · rw [hlayout.numItems_eq, (sortedItems_perm h.stored.links h.stored.fit).length_eq, hlength]
  · intro kind
    by_cases hadded : ∃ item ∈ addedItems m calls, item.kind = kind
    · obtain ⟨item, hitem, rfl⟩ := hadded
      have hrange := htyped.plain item hitem
      rw [← hnum] at hrange
      obtain ⟨start, -, hreads⟩ := h.readsItems m' hlayout htyped hrange (h.stored.mem_uuids item hitem)
      exact ⟨start, hreads⟩
    · have hnil : ofKind (addedItems m calls) kind = [] :=
        List.filter_eq_nil_iff.2 fun item hitem htrue => hadded ⟨item, hitem, of_decide_eq_true htrue⟩
      rw [hnil]
      exact ⟨0, fun k item hitem => absurd hitem nofun⟩
  · intro type kind hkind hrange fuel
    rw [← hnum] at hrange
    exact h.getType hlayout htyped hkind hrange (fuel + 1)
  · intro type kind hkind hrange id fuel
    rw [← hnum] at hrange
    exact h.findItem hlayout htyped hkind hrange id fuel
  · rw [hlayout.numRawData_eq, ← h.datas, List.length_map, List.length_map]
  · have hsizes' : (w.datas.map fun info => info.data.length) = (addedDatas calls).map List.length := by
      rw [← h.datas, List.map_map]
      rfl
    rw [hsizes'] at hlayout
    refine getDatas_eq hlayout ⟨?_, ?_, ?_⟩ ?_
    · rw [← h.datas, List.length_map, List.length_map]
    · intro i data bytes hbytes hdata
      rw [← h.datas, List.getElem?_map] at hdata
      obtain ⟨info, hinfo, rfl⟩ := Option.map_eq_some_iff.1 hdata
      rw [List.getElem?_map, hinfo] at hbytes
      obtain rfl := Option.some.inj hbytes
      exact hlossless _ _
    · intro data hdata
      rw [← h.datas] at hdata
      obtain ⟨info, hinfo, rfl⟩ := List.mem_map.1 hdata
      exact h.data_size info hinfo
    · intro i
      rw [hptrs, hsizes]
      exact .inl ⟨rfl, rfl⟩

end CDataFileWriter

open CDataFileWriter

lemma WellTyped.noDescriptors {m : CUuidManager} {calls : List WriterCall} (h : WellTyped m calls) :
    NoDescriptors m calls := by
  intro item hitem hkind
  have hrange := h.plain item hitem
  rw [hkind] at hrange
  have hlt : itemtypeEx + (uuidsOf (addedItems m calls)).length < itemtypeEx := hrange
  omega

/-- The items and data that are added are read from the file, whatever uuids the reader knows. -/
theorem finish_reads {m : CUuidManager} (m' : CUuidManager) {calls : List WriterCall} (htyped : WellTyped m calls)
    {compress : ECompressionLevel → List UInt8 → List UInt8} {uncompress : List UInt8 → ℕ → Option (List UInt8)}
    (hlossless : ∀ level data, uncompress (compress level data) data.length = some data)
    (hstreams : ∀ level data, 6 ≤ (compress level data).length) {w : CDataFileWriter} {bytes : List UInt8}
    (hrun : empty.run m calls = some w) (hfinish : w.finish compress = some bytes) :
    ∃ df, openDatafile bytes = .opened df ∧ RoundTrip m' uncompress (addedItems m calls) (addedDatas calls) df :=
  (written_run written_empty htyped.same htyped.noDescriptors hrun).roundTrip htyped hlossless hstreams hfinish

/-! ### Runs -/

/-- `Finish` writes a file if it cannot become too large. -/
lemma finish_of_small (compress : ECompressionLevel → List UInt8 → List UInt8) {w : CDataFileWriter}
    (h : sizeofDatafileHeader + maxItemTypes * sizeofDatafileItemType + (w.items.length + w.datas.length * 2) * 4 +
      (w.items.map fun item => item.data.length + sizeofDatafileItem).sum +
        ((w.datas.map fun info => compress info.compressionLevel info.data).map List.length).sum ≤ maxInt) :
    ∃ bytes, w.finish compress = some bytes := by
  have hcount : (types.countP fun type => decide ((w.itemTypes type).num ≠ 0)) ≤ maxItemTypes := by
    refine List.countP_le_length.trans ?_
    rw [types, List.length_map, List.length_range]
  have hsize := Nat.mul_le_mul_right sizeofDatafileItemType hcount
  exact ⟨_, if_pos (by omega)⟩

/-- zlib's result for one byte, and otherwise the data behind as many bytes as a stream has besides. -/
def sampleCompress (level : ECompressionLevel) (data : List UInt8) : List UInt8 :=
  if data = [0x41] then
    [0x78, if level = .compressionBest then 0xda else 0x9c, 0x73, 0x04, 0x00, 0x00, 0x42, 0x00, 0x42]
  else
    [0, 0, 0, 0, 0, 0] ++ data

@[inherit_doc sampleCompress] def sampleUncompress (bytes : List UInt8) (_size : ℕ) : Option (List UInt8) :=
  if bytes.head? = some 0x78 then some [0x41] else some (bytes.drop 6)

lemma sampleCompress_lossless (level : ECompressionLevel) (data : List UInt8) :
    sampleUncompress (sampleCompress level data) data.length = some data := by
  rw [sampleCompress]
  by_cases hdata : data = [0x41]
  · rw [if_pos hdata, hdata]
    rfl
  · rw [if_neg hdata, sampleUncompress, if_neg (by simp)]
    rfl

lemma sampleCompress_stream (level : ECompressionLevel) (data : List UInt8) : 6 ≤ (sampleCompress level data).length := by
  rw [sampleCompress]
  by_cases hdata : data = [0x41]
  · rw [if_pos hdata]
    simp
  · rw [if_neg hdata]
    simp

/-- Plain items, one with a registered uuid and one with another, and data. -/
def sampleCalls : List WriterCall :=
  [.addItem 3 1 [1, 0, 0, 0] none, .addItem 0x10000 7 [2, 0, 0, 0] none, .addItem (-1) 0 [] (some fun _ => 2),
    .addItem 3 0 [] none, .addData [0x41] .compressionDefault]

def sampleManager : CUuidManager := ⟨[fun _ => 1], List.nodup_singleton _⟩

lemma sameTypes_of_forall {m : CUuidManager} {calls : List WriterCall} (types : CUuid → ℤ)
    (h : ∀ type id data uuid u, .addItem type id data uuid ∈ calls → kindOf m type uuid = some (.uuid u) →
      type = types u) : SameTypes m calls := by
  intro type id data uuid type' id' data' uuid' u hcall hcall' hkind hkind'
  rw [h _ _ _ _ u hcall hkind, h _ _ _ _ u hcall' hkind']

lemma sampleCalls_wellTyped : WellTyped sampleManager sampleCalls where
  plain item hitem := by
    have hitems : addedItems sampleManager sampleCalls = [⟨.plain 3, 1, [1, 0, 0, 0]⟩,
      ⟨.uuid fun _ => 1, 7, [2, 0, 0, 0]⟩, ⟨.uuid fun _ => 2, 0, []⟩, ⟨.plain 3, 0, []⟩] := by rfl
    have hnum : (uuidsOf (addedItems sampleManager sampleCalls)).length = 2 := by
      rw [hitems]
      decide
    rw [hnum]
    rw [hitems] at hitem
    simp only [List.mem_cons, List.not_mem_nil, or_false] at hitem
    rcases hitem with rfl | rfl | rfl | rfl
    · show (3 : ℤ) + (2 : ℕ) < itemtypeEx
      decide
    · trivial
    · trivial
    · show (3 : ℤ) + (2 : ℕ) < itemtypeEx
      decide
  room := by decide
  same := sameTypes_of_forall (fun u => if u 0 = 1 then 0x10000 else -1) fun type id data uuid u hcall hkind => by
    simp only [sampleCalls, List.mem_cons, WriterCall.addItem.injEq, List.not_mem_nil, or_false, reduceCtorEq] at hcall
    rcases hcall with ⟨rfl, -, -, rfl⟩ | ⟨rfl, -, -, rfl⟩ | ⟨rfl, -, -, rfl⟩ | ⟨rfl, -, -, rfl⟩
    · exact absurd hkind nofun
    · obtain rfl := ItemKind.uuid.inj (Option.some.inj hkind)
      rfl
    · obtain rfl := ItemKind.uuid.inj (Option.some.inj hkind)
      rfl
    · exact absurd hkind nofun

theorem finish_reads_sample : ∃ w bytes df, empty.run sampleManager sampleCalls = some w ∧
    w.finish sampleCompress = some bytes ∧ openDatafile bytes = .opened df ∧
      RoundTrip sampleManager sampleUncompress (addedItems sampleManager sampleCalls) (addedDatas sampleCalls) df := by
  have hsizes : (empty.run sampleManager sampleCalls).map (fun w => (w.items.length, w.datas.length,
      (w.items.map fun item => item.data.length + sizeofDatafileItem).sum,
        ((w.datas.map fun info => sampleCompress info.compressionLevel info.data).map List.length).sum)) =
          some (6, 1, 88, 9) := by rfl
  obtain ⟨w, hrun, hw⟩ := Option.map_eq_some_iff.1 hsizes
  obtain ⟨hitems, hdatas, hitemSize, hdataSize⟩ := by simpa only [Prod.mk.injEq] using hw
  obtain ⟨bytes, hfinish⟩ := finish_of_small sampleCompress (by rw [hitems, hdatas, hitemSize, hdataSize]; decide)
  obtain ⟨df, hopen, hreads⟩ := finish_reads sampleManager sampleCalls_wellTyped sampleCompress_lossless
    sampleCompress_stream hrun hfinish
  exact ⟨w, bytes, df, hrun, hfinish, hopen, hreads⟩

/-- Two uuids that are not registered. -/
def unknownCalls : List WriterCall :=
  [.addItem (-1) 0 [] (some fun _ => 1), .addItem (-1) 0 [] (some fun _ => 2)]

def noManager : CUuidManager := ⟨[], List.nodup_nil⟩

lemma unknownCalls_wellTyped : WellTyped noManager unknownCalls where
  plain item hitem := by
    have hitems : addedItems noManager unknownCalls = [⟨.uuid fun _ => 1, 0, []⟩, ⟨.uuid fun _ => 2, 0, []⟩] := by rfl
    rw [hitems] at hitem
    simp only [List.mem_cons, List.not_mem_nil, or_false] at hitem
    rcases hitem with rfl | rfl
    · trivial
    · trivial
  room := by decide
  same := sameTypes_of_forall (fun _ => -1) fun type id data uuid u hcall hkind => by
    simp only [unknownCalls, List.mem_cons, WriterCall.addItem.injEq, List.not_mem_nil, or_false] at hcall
    rcases hcall with ⟨rfl, -⟩ | ⟨rfl, -⟩
    · rfl
    · rfl

/-- Items of two uuids that the reader does not know are read with the same type. -/
theorem unknownCalls_sameType : ∃ w bytes df, empty.run noManager unknownCalls = some w ∧
    w.finish sampleCompress = some bytes ∧ openDatafile bytes = .opened df ∧
      ∃ i j first second, df.getItem noManager 2 i = some first ∧ df.getItem noManager 2 j = some second ∧
        first.uuid ≠ second.uuid ∧ first.type = second.type := by
  have hsizes : (empty.run noManager unknownCalls).map (fun w => (w.items.length, w.datas.length,
      (w.items.map fun item => item.data.length + sizeofDatafileItem).sum,
        ((w.datas.map fun info => sampleCompress info.compressionLevel info.data).map List.length).sum)) =
          some (4, 0, 64, 0) := by rfl
  obtain ⟨w, hrun, hw⟩ := Option.map_eq_some_iff.1 hsizes
  obtain ⟨hitems, hdatas, hitemSize, hdataSize⟩ := by simpa only [Prod.mk.injEq] using hw
  obtain ⟨bytes, hfinish⟩ := finish_of_small sampleCompress (by rw [hitems, hdatas, hitemSize, hdataSize]; decide)
  have hwritten := written_run written_empty unknownCalls_wellTyped.same unknownCalls_wellTyped.noDescriptors hrun
  obtain ⟨df, hopen, hreads⟩ := @Written.roundTrip _ noManager _ _ hwritten unknownCalls_wellTyped _ _
    sampleCompress_lossless sampleCompress_stream _ hfinish
  obtain ⟨start, hfirst⟩ := hreads.kinds (.uuid fun _ => 1)
  obtain ⟨start', hsecond⟩ := hreads.kinds (.uuid fun _ => 2)
  obtain ⟨-, hfirst⟩ := hfirst 0 ⟨.uuid fun _ => 1, 0, []⟩ (by rfl)
  obtain ⟨-, hsecond⟩ := hsecond 0 ⟨.uuid fun _ => 2, 0, []⟩ (by rfl)
  obtain ⟨first, hget, his⟩ := hfirst 0
  obtain ⟨second, hget', his'⟩ := hsecond 0
  obtain ⟨huuid, -, htype⟩ := his.kind
  obtain ⟨huuid', -, htype'⟩ := his'.kind
  refine ⟨w, bytes, df, hrun, hfinish, hopen, _, _, first, second, hget, hget', ?_, ?_⟩
  · rw [huuid, huuid']
    exact fun heq => absurd (congrFun heq 0) (by decide)
  · rw [htype List.not_mem_nil, htype' List.not_mem_nil]

end DDNet
