/-
Finding the items of a finished snapshot (`engine/shared/snapshot.cpp`).

Within a snapshot an extended type has a number, which a hidden item of type 0 names.  The builder numbers the types in
the order in which it first meets them and keeps the numbers from one snapshot to the next, so that the numbering stays
one to one (`Numbering`).  The finished snapshot consists of the hidden items and the added ones (`Holds`), their keys
are distinct, and what was written is found (`finish_finds`).
-/
import DDNet.Shared.DatafileTables
import DDNet.Shared.Snapshot

namespace DDNet

/-! ### Looking up -/

namespace CSnapshot

open CSnapshotItem CSnapshotBuilder

variable (uuids : CUuidManager)

/-- `OFFSET_UUID_TYPE`: from here on the internal types of extended types may lie. -/
def offsetUuidType : ℤ := 0x4000

def getItem (s : CSnapshot) (index : ℕ) : CSnapshotItem := s[index]?.getD ⟨0, []⟩

/-- `Offsets()[Index]`. -/
def offset (s : CSnapshot) (index : ℕ) : ℕ := dataSize (s.take index)

def getItemSize (s : CSnapshot) (index : ℕ) : ℤ :=
  if index + 1 = s.length then ((dataSize s : ℤ) - offset s index) - 4
  else ((offset s (index + 1) : ℤ) - offset s index) - 4

/-- `none` for -1. -/
def getItemIndex (s : CSnapshot) (key : BitVec 32) : Option ℕ := s.findIdx? fun item => item.key = key

def getExternalItemType (s : CSnapshot) (internalType : ℤ) : ℤ :=
  if internalType < offsetUuidType then internalType
  else
    match getItemIndex s (BitVec.ofInt 32 internalType) with
    | none => internalType
    | some typeItemIndex =>
      if getItemSize s typeItemIndex < sizeofItemEx then internalType
      else uuids.lookupUuid (CItemEx.toUuid fun i => (getItem s typeItemIndex).data.getD i 0)

def getItemType (s : CSnapshot) (index : ℕ) : ℤ := getExternalItemType uuids s (getItem s index).type

/-- The hidden item of an extended type, as `FindItem` looks for it. -/
def isTypeItem (type : ℤ) (item : CSnapshotItem) : Bool :=
  item.type = 0 && offsetUuidType ≤ item.id && item.data.take 4 = uuidItem uuids type

/-- `InternalType` in `FindItem`; `none` if the type has no hidden item. -/
def getInternalType (s : CSnapshot) (type : ℤ) : Option ℤ :=
  if offsetUuid ≤ type then (s.find? (isTypeItem uuids type)).map CSnapshotItem.id else some type

/-- `Index` in `FindItem`. -/
def findItemIndex (s : CSnapshot) (type id : ℤ) : Option ℕ :=
  (getInternalType uuids s type).bind fun internalType => getItemIndex s (keyOf internalType id)

/-- `FindItem`; `none` for the null pointer. -/
def findItem (s : CSnapshot) (type id : ℤ) : Option (List (BitVec 32)) :=
  (findItemIndex uuids s type id).map fun index => (getItem s index).data

/-! ### What a lookup finds -/

variable {s : CSnapshot} {item : CSnapshotItem} {i : ℕ}

lemma getItem_of_getElem? (h : s[i]? = some item) : getItem s i = item := by
  rw [getItem, h, Option.getD_some]

lemma getItemSize_of_getElem? (h : s[i]? = some item) : getItemSize s i = 4 * item.data.length := by
  obtain ⟨hi, hitem⟩ := List.getElem?_eq_some_iff.1 h
  have hnext : offset s (i + 1) = offset s i + (4 + 4 * item.data.length) := by
    rw [offset, List.take_add_one, h, dataSize, List.map_append, List.sum_append]
    rfl
  have hlast : i + 1 = s.length → dataSize s = offset s (i + 1) := by
    intro hlast
    rw [offset, hlast, List.take_length]
  rw [getItemSize]
  split_ifs with hi'
  · rw [hlast hi', hnext]
    push_cast
    ring
  · rw [hnext]
    push_cast
    ring

/-- An item is found under its key, as no other item has that key. -/
lemma getItemIndex_of_mem (hnodup : (s.map CSnapshotItem.key).Nodup) (hitem : item ∈ s) :
    ∃ index, s[index]? = some item ∧ getItemIndex s item.key = some index := by
  cases hindex : getItemIndex s item.key with
  | none =>
    have hnone := List.findIdx?_eq_none_iff.1 hindex item hitem
    simp at hnone
  | some index =>
    obtain ⟨hlt, hkey, -⟩ := List.findIdx?_eq_some_iff_getElem.1 hindex
    have heq : s[index] = item :=
      List.inj_on_of_nodup_map hnodup (List.getElem_mem hlt) hitem (of_decide_eq_true hkey)
    exact ⟨index, by rw [List.getElem?_eq_getElem hlt, heq], rfl⟩

lemma getItemIndex_eq_none {key : BitVec 32} (h : ∀ item ∈ s, item.key ≠ key) : getItemIndex s key = none := by
  refine List.findIdx?_eq_none_iff.2 fun item hitem => ?_
  simpa using h item hitem

end CSnapshot

/-! ### Keys -/

namespace CSnapshotItem

/-- The type and the id can be read back from the key. -/
structure FitsKey (type id : ℤ) : Prop where
  type_nonneg : 0 ≤ type
  type_le : type ≤ CSnapshot.maxType
  id_nonneg : 0 ≤ id
  id_le : id ≤ 0xffff

variable {type id : ℤ}

lemma keyOf_eq (h : FitsKey type id) : keyOf type id = BitVec.ofNat 32 (type.toNat * 2 ^ 16 + id.toNat) := by
  have hid := h.id_le
  rw [keyOf, ← Int.toNat_of_nonneg h.type_nonneg, ← Int.toNat_of_nonneg h.id_nonneg, typeAndId_eq (by omega)]
  rfl

lemma toNat_keyOf (h : FitsKey type id) : (keyOf type id).toNat = type.toNat * 2 ^ 16 + id.toNat := by
  obtain ⟨htype₀, htype, hid₀, hid⟩ := h
  rw [keyOf_eq ⟨htype₀, htype, hid₀, hid⟩, BitVec.toNat_ofNat]
  rw [CSnapshot.maxType] at htype
  omega

@[simp] lemma type_keyOf (h : FitsKey type id) (data : List (BitVec 32)) :
    (⟨keyOf type id, data⟩ : CSnapshotItem).type = type := by
  have hword := toNat_keyOf h
  obtain ⟨htype₀, htype, hid₀, hid⟩ := h
  rw [CSnapshot.maxType] at htype
  have hint : (keyOf type id).toInt = type * 2 ^ 16 + id := by
    rw [BitVec.toInt_eq_toNat_of_lt (by omega), hword]
    omega
  rw [CSnapshotItem.type, BitVec.toInt_sshiftRight, hint, Int.shiftRight_eq_div_pow]
  omega

@[simp] lemma id_keyOf (h : FitsKey type id) (data : List (BitVec 32)) :
    (⟨keyOf type id, data⟩ : CSnapshotItem).id = id := by
  have hid := h.id_nonneg
  have hid' := h.id_le
  have hword : (keyOf type id &&& 0xffff).toNat = id.toNat := by
    rw [keyOf_eq h]
    exact id_of_typeAndId type.toNat (by omega)
  show (keyOf type id &&& 0xffff).toInt = id
  rw [BitVec.toInt_eq_toNat_of_lt (by omega), hword]
  omega

/-- A type is the key of its hidden item. -/
lemma ofInt_eq_keyOf (id : ℤ) : BitVec.ofInt 32 id = keyOf 0 id := by
  simp [keyOf]

lemma keyOf_inj {type' id' : ℤ} (h : FitsKey type id) (h' : FitsKey type' id') :
    keyOf type id = keyOf type' id' ↔ type = type' ∧ id = id' := by
  constructor
  · intro heq
    constructor
    · rw [← type_keyOf h [], heq, type_keyOf h']
    · rw [← id_keyOf h [], heq, id_keyOf h']
  · rintro ⟨rfl, rfl⟩
    rfl

end CSnapshotItem

/-! ### The numbers of extended types -/

namespace CSnapshotBuilder

open CSnapshot CSnapshotItem

-- `Obj_SixToSeven` and `g_UuidManager`
variable {sixToSeven : ℤ → ℤ} {uuids : CUuidManager}

/-- `MAX_EXTENDED_ITEM_TYPES`; an assertion stops the program when the builder would need more. -/
def maxExtendedItemTypes : ℕ := 64

/-- The id of an extended type that has a UUID. -/
def Registered (uuids : CUuidManager) (type : ℤ) : Prop := offsetUuid ≤ type ∧ (uuids.getUuid type).isSome

/-- The types of the builder are extended ones, each there once, so that a type and its number determine each other. -/
structure Numbering (uuids : CUuidManager) (types : List ℤ) : Prop where
  nodup : types.Nodup
  registered : ∀ type ∈ types, Registered uuids type

variable {b b' : CSnapshotBuilder} {type id : ℤ} {data : List (BitVec 32)} {types : List ℤ}

lemma newPlainItem_types (h : newPlainItem sixToSeven b type id data = some b') :
    b'.extendedItemTypes = b.extendedItemTypes := by
  rw [newPlainItem] at h
  dsimp only at h
  split_ifs at h <;> rw [← Option.some.inj h] <;> rfl

/-- A type that has a number keeps it; a new type is numbered after the others. -/
lemma getExtendedItemTypeIndex_cases {index : ℕ}
    (h : getExtendedItemTypeIndex sixToSeven uuids b type = some (index, b')) :
    (type ∈ b.extendedItemTypes ∧ index = b.extendedItemTypes.idxOf type ∧ b' = b) ∨
      (type ∉ b.extendedItemTypes ∧ index = b.extendedItemTypes.length ∧
        addExtendedItemType sixToSeven uuids { b with extendedItemTypes := b.extendedItemTypes ++ [type] } index =
          some b') := by
  rw [getExtendedItemTypeIndex] at h
  cases hfind : b.extendedItemTypes.findIdx? (· = type) with
  | some found =>
    rw [hfind] at h
    obtain ⟨rfl, rfl⟩ := Prod.mk.inj (Option.some.inj h)
    obtain ⟨hlt, htype, -⟩ := List.findIdx?_eq_some_iff_getElem.1 hfind
    have hmem : type ∈ b.extendedItemTypes := of_decide_eq_true htype ▸ List.getElem_mem hlt
    refine .inl ⟨hmem, ?_, rfl⟩
    rw [List.findIdx?_eq_some_iff_findIdx_eq] at hfind
    rw [List.idxOf, ← hfind.2]
    rfl
  | none =>
    rw [hfind] at h
    obtain ⟨added, hadded, heq⟩ := Option.map_eq_some_iff.1 h
    obtain ⟨rfl, rfl⟩ := Prod.mk.inj heq
    refine .inr ⟨fun hmem => ?_, rfl, hadded⟩
    simpa using List.findIdx?_eq_none_iff.1 hfind type hmem

lemma newItem_types (h : newItem sixToSeven uuids b type id data = some b') :
    b'.extendedItemTypes = b.extendedItemTypes ∨
      offsetUuid ≤ type ∧ type ∉ b.extendedItemTypes ∧ b'.extendedItemTypes = b.extendedItemTypes ++ [type] := by
  rw [newItem] at h
  split_ifs at h with hplain
  · exact .inl (newPlainItem_types h)
  · obtain ⟨⟨index, found⟩, hfound, rfl⟩ := Option.map_eq_some_iff.1 h
    rcases getExtendedItemTypeIndex_cases hfound with ⟨-, -, rfl⟩ | ⟨hnew, -, hadd⟩
    · exact .inl rfl
    · exact .inr ⟨le_of_not_gt hplain, hnew, newPlainItem_types hadd⟩

lemma Numbering.append (h : Numbering uuids types) (hnew : type ∉ types) (htype : Registered uuids type) :
    Numbering uuids (types ++ [type]) := by
  refine ⟨List.nodup_append.2 ⟨h.nodup, List.nodup_singleton type, ?_⟩, ?_⟩
  · rintro old hold new hmem rfl
    rw [List.mem_singleton.1 hmem] at hold
    exact hnew hold
  · intro old hold
    rcases List.mem_append.1 hold with hold | hold
    · exact h.registered old hold
    · rwa [List.mem_singleton.1 hold]

lemma Numbering.newItem (h : Numbering uuids b.extendedItemTypes)
    (htype : offsetUuid ≤ type → (uuids.getUuid type).isSome)
    (hb : newItem sixToSeven uuids b type id data = some b') : Numbering uuids b'.extendedItemTypes := by
  rcases newItem_types hb with heq | ⟨hextended, hnew, heq⟩
  · rwa [heq]
  · rw [heq]
    exact h.append hnew ⟨hextended, htype hextended⟩

lemma init_types (b : CSnapshotBuilder) (sixup : Bool) :
    (init sixToSeven uuids b sixup).extendedItemTypes = b.extendedItemTypes := by
  rw [init]
  refine List.foldlRecOn (motive := fun b' : CSnapshotBuilder => b'.extendedItemTypes = b.extendedItemTypes) _ _ rfl ?_
  intro b' htypes index _
  cases hadd : addExtendedItemType sixToSeven uuids b' index with
  | none => exact htypes
  | some added => exact (newPlainItem_types hadd).trans htypes

/-- The extended types of a call have UUIDs. -/
def Call.Registered (uuids : CUuidManager) : Call → Prop
  | .init _ => True
  | .newItem type _ _ => offsetUuid ≤ type → (uuids.getUuid type).isSome

lemma Numbering.exec (h : Numbering uuids b.extendedItemTypes) {call : Call} (hcall : call.Registered uuids) :
    Numbering uuids (exec sixToSeven uuids b call).extendedItemTypes := by
  cases call with
  | init sixup => rwa [CSnapshotBuilder.exec, init_types]
  | newItem type id data =>
    rw [CSnapshotBuilder.exec]
    cases hb : CSnapshotBuilder.newItem sixToSeven uuids b type id data with
    | none => exact h
    | some b' => exact h.newItem hcall hb

/-- Whatever was done with the builder, its types are numbered one to one. -/
lemma Numbering.run (calls : List Call) (hcalls : ∀ call ∈ calls, call.Registered uuids) :
    Numbering uuids (run sixToSeven uuids new calls).extendedItemTypes := by
  have hnew : Numbering uuids new.extendedItemTypes := ⟨List.nodup_nil, nofun⟩
  exact List.foldlRecOn (motive := fun b : CSnapshotBuilder => Numbering uuids b.extendedItemTypes) calls _ hnew
    fun b hb call hcall => hb.exec (hcalls call hcall)

/-! ### The items of a builder -/

/-- The arguments of a call of `NewItem`, and what the caller writes into the item. -/
structure NewItemArgs where
  type : ℤ
  id : ℤ
  data : List (BitVec 32)

/-- Calls of `NewItem`; `none` if one of them returns the null pointer. -/
def newItems (sixToSeven : ℤ → ℤ) (uuids : CUuidManager) (b : CSnapshotBuilder) (items : List NewItemArgs) :
    Option CSnapshotBuilder :=
  items.foldlM (fun b args => newItem sixToSeven uuids b args.type args.id args.data) b

/-- The hidden item of the type with a number. -/
def typeItem (uuids : CUuidManager) (types : List ℤ) (index : ℕ) : CSnapshotItem :=
  ⟨keyOf 0 (getTypeFromIndex index), uuidItem uuids (types[index]?.getD 0)⟩

def typeItems (uuids : CUuidManager) (types : List ℤ) : List CSnapshotItem :=
  (List.range types.length).map (typeItem uuids types)

/-- The type of an item within the snapshot. -/
def internalTypeOf (types : List ℤ) (type : ℤ) : ℤ :=
  if type < offsetUuid then type else getTypeFromIndex (types.idxOf type)

def itemOf (types : List ℤ) (args : NewItemArgs) : CSnapshotItem :=
  ⟨keyOf (internalTypeOf types args.type) args.id, args.data⟩

/-- A builder that is not for sixup has the hidden items of its types, and the items added so far. -/
structure Holds (uuids : CUuidManager) (b : CSnapshotBuilder) (items : List NewItemArgs) : Prop where
  sixup : b.sixup = false
  numbering : Numbering uuids b.extendedItemTypes
  numbered : ∀ args ∈ items, offsetUuid ≤ args.type → args.type ∈ b.extendedItemTypes
  perm : b.items.Perm (typeItems uuids b.extendedItemTypes ++ items.map (itemOf b.extendedItemTypes))

@[simp] lemma push_items : (b.push type id data).items = b.items ++ [⟨keyOf type id, data⟩] := rfl

@[simp] lemma push_types : (b.push type id data).extendedItemTypes = b.extendedItemTypes := rfl

lemma newPlainItem_eq (hsixup : b.sixup = false) (h : newPlainItem sixToSeven b type id data = some b') :
    b' = b.push type id data := by
  rw [newPlainItem, hsixup] at h
  simp only [Bool.false_eq_true, if_false] at h
  split_ifs at h
  exact (Option.some.inj h).symm

lemma typeItems_append (types : List ℤ) (type : ℤ) :
    typeItems uuids (types ++ [type]) =
      typeItems uuids types ++ [⟨keyOf 0 (getTypeFromIndex types.length), uuidItem uuids type⟩] := by
  have hold : (List.range types.length).map (typeItem uuids (types ++ [type])) = typeItems uuids types := by
    refine List.map_congr_left fun index hindex => ?_
    rw [typeItem, List.getElem?_append_left (List.mem_range.1 hindex), typeItem]
  rw [typeItems, List.length_append, List.length_singleton, List.range_succ, List.map_append, hold]
  simp [typeItem]

/-- A new type leaves the numbers of the others alone. -/
lemma itemOf_append {args : NewItemArgs} (hargs : offsetUuid ≤ args.type → args.type ∈ types) (type : ℤ) :
    itemOf (types ++ [type]) args = itemOf types args := by
  rw [itemOf, itemOf, internalTypeOf, internalTypeOf]
  split_ifs with hplain
  · rfl
  · rw [List.idxOf_append_of_mem (hargs (le_of_not_gt hplain))]

namespace Holds

variable {items : List NewItemArgs} {args : NewItemArgs}

lemma push (h : Holds uuids b items) (hnumbered : offsetUuid ≤ args.type → args.type ∈ b.extendedItemTypes)
    (htype : internalTypeOf b.extendedItemTypes args.type = type) :
    Holds uuids (b.push type args.id args.data) (items ++ [args]) where
  sixup := h.sixup
  numbering := h.numbering
  numbered := by
    intro args' hargs'
    rcases List.mem_append.1 hargs' with hargs' | hargs'
    · exact h.numbered args' hargs'
    · rwa [List.mem_singleton.1 hargs']
  perm := by
    have hitem : itemOf b.extendedItemTypes args = ⟨keyOf type args.id, args.data⟩ := by rw [itemOf, htype]
    rw [push_items, push_types, List.map_append, List.map_singleton, ← List.append_assoc, hitem]
    exact h.perm.append_right _

/-- The hidden item of a new type goes behind the items there are. -/
lemma addType (h : Holds uuids b items) (hnew : type ∉ b.extendedItemTypes) (htype : Registered uuids type)
    (hb : addExtendedItemType sixToSeven uuids { b with extendedItemTypes := b.extendedItemTypes ++ [type] }
      b.extendedItemTypes.length = some b') :
    Holds uuids b' items ∧ b'.extendedItemTypes = b.extendedItemTypes ++ [type] := by
  have hsixup : ({ b with extendedItemTypes := b.extendedItemTypes ++ [type] } : CSnapshotBuilder).sixup = false :=
    h.sixup
  obtain rfl := newPlainItem_eq hsixup hb
  refine ⟨⟨h.sixup, h.numbering.append hnew htype, ?_, ?_⟩, rfl⟩
  · intro args hargs hextended
    exact List.mem_append_left _ (h.numbered args hargs hextended)
  · have hitems : items.map (itemOf (b.extendedItemTypes ++ [type])) = items.map (itemOf b.extendedItemTypes) :=
      List.map_congr_left fun args hargs => itemOf_append (h.numbered args hargs) type
    rw [push_items, push_types, typeItems_append, hitems, List.getElem?_concat_length, Option.getD_some, List.append_assoc]
    refine (h.perm.append_right _).trans ?_
    rw [List.append_assoc]
    exact List.perm_append_comm.append_left _

lemma newItem (h : Holds uuids b items) (hargs : offsetUuid ≤ args.type → (uuids.getUuid args.type).isSome)
    (hb : newItem sixToSeven uuids b args.type args.id args.data = some b') : Holds uuids b' (items ++ [args]) := by
  rw [CSnapshotBuilder.newItem] at hb
  split_ifs at hb with hplain
  · obtain rfl := newPlainItem_eq h.sixup hb
    exact h.push (fun hextended => absurd hplain (not_lt.2 hextended)) (if_pos hplain)
  · have hextended := le_of_not_gt hplain
    obtain ⟨⟨index, found⟩, hfound, rfl⟩ := Option.map_eq_some_iff.1 hb
    rcases getExtendedItemTypeIndex_cases hfound with ⟨hmem, rfl, rfl⟩ | ⟨hnew, rfl, hadd⟩
    · exact h.push (fun _ => hmem) (if_neg hplain)
    · obtain ⟨hadded, htypes⟩ := h.addType hnew ⟨hextended, hargs hextended⟩ hadd
      have hmem : args.type ∈ found.extendedItemTypes := by
        rw [htypes]
        exact List.mem_append_right _ (List.mem_singleton_self _)
      refine hadded.push (fun _ => hmem) ?_
      rw [internalTypeOf, if_neg hplain, htypes, List.idxOf_append_of_notMem hnew, List.idxOf_cons_self, Nat.add_zero]

lemma newItems (h : Holds uuids b items) {more : List NewItemArgs}
    (hmore : ∀ args ∈ more, offsetUuid ≤ args.type → (uuids.getUuid args.type).isSome)
    (hb : newItems sixToSeven uuids b more = some b') : Holds uuids b' (items ++ more) := by
  induction more generalizing b items with
  | nil =>
    obtain rfl := Option.some.inj hb
    rwa [List.append_nil]
  | cons args more ih =>
    rw [CSnapshotBuilder.newItems, List.foldlM_cons] at hb
    obtain ⟨added, hadded, hrest⟩ := Option.bind_eq_some_iff.1 hb
    have hnext := ih (h.newItem (hmore args List.mem_cons_self) hadded)
      (fun args' hargs' => hmore args' (List.mem_cons_of_mem _ hargs')) hrest
    rwa [List.append_assoc, List.singleton_append] at hnext

end Holds

/-! ### A new snapshot -/

lemma length_uuidItem (uuids : CUuidManager) (type : ℤ) : (uuidItem uuids type).length = 4 := by
  rw [uuidItem, List.length_ofFn]

lemma dataSize_typeItems (types : List ℤ) (n : ℕ) :
    dataSize ((List.range n).map (typeItem uuids types)) = 20 * n := by
  induction n with
  | zero => rfl
  | succ n ih =>
    rw [List.range_succ, List.map_append, dataSize, List.map_append, List.sum_append, ← dataSize, ih]
    simp only [List.map_cons, List.map_nil, List.sum_singleton, CSnapshotItem.size, typeItem, length_uuidItem]
    omega

/-- There is room for the hidden items of all types. -/
lemma init_items (hlen : b.extendedItemTypes.length ≤ maxExtendedItemTypes) {n : ℕ}
    (hn : n ≤ b.extendedItemTypes.length) :
    (List.range n).foldl (fun b index => (addExtendedItemType sixToSeven uuids b index).getD b)
        { b with items := [], sixup := false } =
      { b with items := (List.range n).map (typeItem uuids b.extendedItemTypes), sixup := false } := by
  induction n with
  | zero => rfl
  | succ n ih =>
    rw [List.range_succ, List.foldl_append, ih (by omega), List.foldl_cons, List.foldl_nil]
    rw [maxExtendedItemTypes] at hlen
    have hroom : hasRoom { b with items := (List.range n).map (typeItem uuids b.extendedItemTypes), sixup := false }
        (uuidItem uuids (b.extendedItemTypes[n]?.getD 0)).length = true := by
      rw [hasRoom, dataSize_typeItems, List.length_map, List.length_range, length_uuidItem, Bool.and_eq_true,
        decide_eq_true_eq, decide_eq_true_eq, CSnapshot.maxItems, CSnapshot.maxSize_eq]
      omega
    have hid : getTypeFromIndex n ≠ -1 := by
      rw [getTypeFromIndex, maxType]
      omega
    have hadd : addExtendedItemType sixToSeven uuids
        { b with items := (List.range n).map (typeItem uuids b.extendedItemTypes), sixup := false } n =
        some { b with items := (List.range (n + 1)).map (typeItem uuids b.extendedItemTypes), sixup := false } := by
      rw [addExtendedItemType, newPlainItem, if_neg (by simp [hid, hroom])]
      simp [push, List.range_succ, typeItem]
    rw [hadd, Option.getD_some, List.range_succ]

/-- A new snapshot holds the hidden items of the types known so far. -/
lemma Holds.init (h : Numbering uuids b.extendedItemTypes) (hlen : b.extendedItemTypes.length ≤ maxExtendedItemTypes) :
    Holds uuids (init sixToSeven uuids b false) [] := by
  rw [CSnapshotBuilder.init, init_items hlen le_rfl]
  refine ⟨rfl, h, nofun, ?_⟩
  rw [List.map_nil, List.append_nil]
  exact List.Perm.refl _

lemma newItems_types_le {items : List NewItemArgs} (h : newItems sixToSeven uuids b items = some b') :
    b.extendedItemTypes.length ≤ b'.extendedItemTypes.length := by
  induction items generalizing b with
  | nil => rw [Option.some.inj h]
  | cons args items ih =>
    rw [newItems, List.foldlM_cons] at h
    obtain ⟨added, hadded, hrest⟩ := Option.bind_eq_some_iff.1 h
    refine le_trans ?_ (ih hrest)
    rcases newItem_types hadded with heq | ⟨-, -, heq⟩
    · rw [heq]
    · rw [heq, List.length_append]
      exact Nat.le_add_right _ _

/-! ### Types and their numbers -/

/-- A type of the protocol that is none of the numbers of extended types. -/
def Plain (type : ℤ) : Prop := 0 ≤ type ∧ type ≤ maxType - maxExtendedItemTypes

/-- The types that snapshots can have.  An item of type 0 with an id from `OFFSET_UUID_TYPE` on is a hidden item. -/
structure NewItemArgs.Valid (uuids : CUuidManager) (args : NewItemArgs) : Prop where
  type : Plain args.type ∨ Registered uuids args.type
  notHidden : args.type = 0 → args.id < CSnapshot.offsetUuidType
  id_nonneg : 0 ≤ args.id
  id_le : args.id ≤ 0xffff

lemma Plain.lt (h : Plain type) : type < offsetUuid := by
  have hle := h.2
  rw [maxType, maxExtendedItemTypes] at hle
  rw [offsetUuid]
  omega

namespace Numbering

variable (h : Numbering uuids types) (hlen : types.length ≤ maxExtendedItemTypes)

include h hlen

/-- The numbers lie between the plain types and `MAX_TYPE`. -/
lemma internalTypeOf_bounds (htype : Plain type ∨ type ∈ types) :
    0 ≤ internalTypeOf types type ∧ internalTypeOf types type ≤ maxType ∧
      (Plain type ↔ internalTypeOf types type ≤ maxType - maxExtendedItemTypes) := by
  rcases htype with hplain | hmem
  · have hle := hplain.2
    rw [internalTypeOf, if_pos hplain.lt]
    refine ⟨hplain.1, by omega, fun _ => hle, fun _ => hplain⟩
  · have hextended := (h.registered type hmem).1
    have hindex := List.idxOf_lt_length_of_mem hmem
    rw [internalTypeOf, if_neg (not_lt.2 hextended), getTypeFromIndex]
    rw [maxExtendedItemTypes] at hlen ⊢
    rw [maxType]
    refine ⟨by omega, by omega, fun hplain => absurd hplain.lt (not_lt.2 hextended), fun hle => ?_⟩
    omega

/-- A type and its number determine each other. -/
lemma internalTypeOf_inj {type' : ℤ} (htype : Plain type ∨ type ∈ types) (htype' : Plain type' ∨ type' ∈ types)
    (heq : internalTypeOf types type = internalTypeOf types type') : type = type' := by
  have hplain : Plain type ↔ Plain type' := by
    rw [(h.internalTypeOf_bounds hlen htype).2.2, (h.internalTypeOf_bounds hlen htype').2.2, heq]
  by_cases hp : Plain type
  · rwa [internalTypeOf, if_pos hp.lt, internalTypeOf, if_pos (hplain.1 hp).lt] at heq
  · have hmem := htype.resolve_left hp
    have hmem' := htype'.resolve_left (mt hplain.2 hp)
    rw [internalTypeOf, if_neg (not_lt.2 (h.registered type hmem).1), internalTypeOf,
      if_neg (not_lt.2 (h.registered type' hmem').1), getTypeFromIndex, getTypeFromIndex] at heq
    exact (List.idxOf_inj hmem).1 (by omega)

end Numbering

/-! ### UUIDs -/

lemma toUuid_uuidItem {uuid : CUuid} (h : uuids.getUuid type = some uuid) :
    (CItemEx.toUuid fun i => (uuidItem uuids type).getD i 0) = uuid := by
  have hitem : (fun i : Fin 4 => (uuidItem uuids type).getD i 0) = CItemEx.fromUuid uuid := by
    ext1 i
    rw [uuidItem, h, Option.getD_some, List.getD_eq_getElem?_getD, List.getElem?_ofFn, dif_pos i.isLt]
    rfl
  rw [hitem, CItemEx.toUuid_fromUuid]

lemma lookupUuid_getUuid (htype : offsetUuid ≤ type) {uuid : CUuid} (h : uuids.getUuid type = some uuid) :
    uuids.lookupUuid uuid = type := by
  have hindex : uuids.names.idxOf? uuid = some (type - offsetUuid).toNat := by
    obtain ⟨hlt, huuid⟩ := List.getElem?_eq_some_iff.1 h
    rw [List.idxOf?_eq_some_iff]
    refine ⟨hlt, huuid, fun j hj heq => ?_⟩
    have hsame := uuids.nodup.getElem_inj_iff.1 (heq.trans huuid.symm)
    omega
  rw [CUuidManager.lookupUuid, hindex]
  show ((type - offsetUuid).toNat : ℤ) + offsetUuid = type
  omega

/-- A type is determined by its hidden item. -/
lemma uuidItem_inj {type' : ℤ} (h : Registered uuids type) (h' : Registered uuids type')
    (heq : uuidItem uuids type = uuidItem uuids type') : type = type' := by
  obtain ⟨uuid, huuid⟩ := Option.isSome_iff_exists.1 h.2
  obtain ⟨uuid', huuid'⟩ := Option.isSome_iff_exists.1 h'.2
  rw [← lookupUuid_getUuid h.1 huuid, ← lookupUuid_getUuid h'.1 huuid', ← toUuid_uuidItem huuid, heq,
    toUuid_uuidItem huuid']

/-! ### What is found -/

namespace Holds

variable {items : List NewItemArgs} {args : NewItemArgs} (h : Holds uuids b items)
  (hlen : b.extendedItemTypes.length ≤ maxExtendedItemTypes) (hvalid : ∀ args ∈ items, args.Valid uuids)
  (hdistinct : (items.map fun args => (args.type, args.id)).Nodup)

include h hvalid in
lemma known (hargs : args ∈ items) : Plain args.type ∨ args.type ∈ b.extendedItemTypes :=
  (hvalid args hargs).type.imp_right fun hregistered => h.numbered args hargs hregistered.1

include h

lemma mem_items {item : CSnapshotItem} :
    item ∈ b.items ↔ (∃ index < b.extendedItemTypes.length, typeItem uuids b.extendedItemTypes index = item) ∨
      ∃ args ∈ items, itemOf b.extendedItemTypes args = item := by
  rw [h.perm.mem_iff, List.mem_append, typeItems, List.mem_map, List.mem_map]
  simp only [List.mem_range]

lemma typeItem_mem (hmem : type ∈ b.extendedItemTypes) :
    typeItem uuids b.extendedItemTypes (b.extendedItemTypes.idxOf type) ∈ b.items :=
  h.mem_items.2 (.inl ⟨_, List.idxOf_lt_length_of_mem hmem, rfl⟩)

include hlen

omit h in
lemma fits_typeItem {index : ℕ} (hindex : index < b.extendedItemTypes.length) :
    FitsKey 0 (getTypeFromIndex index) := by
  rw [maxExtendedItemTypes] at hlen
  refine ⟨le_rfl, by rw [maxType]; omega, ?_, ?_⟩
  · rw [getTypeFromIndex, maxType]
    omega
  · rw [getTypeFromIndex, maxType]
    omega

lemma fits {type id : ℤ} (htype : Plain type ∨ type ∈ b.extendedItemTypes) (hid : 0 ≤ id ∧ id ≤ 0xffff) :
    FitsKey (internalTypeOf b.extendedItemTypes type) id :=
  have hbounds := h.numbering.internalTypeOf_bounds hlen htype
  ⟨hbounds.1, hbounds.2.1, hid.1, hid.2⟩

/-- Only items of type 0 can be taken for hidden ones. -/
lemma internalTypeOf_eq_zero {type : ℤ} (htype : Plain type ∨ type ∈ b.extendedItemTypes) :
    internalTypeOf b.extendedItemTypes type = 0 ↔ type = 0 := by
  have hzero : internalTypeOf b.extendedItemTypes 0 = 0 := by
    rw [internalTypeOf, if_pos (by rw [offsetUuid]; omega)]
  have hplain : Plain 0 := ⟨le_rfl, by rw [maxType, maxExtendedItemTypes]; omega⟩
  constructor
  · intro heq
    exact h.numbering.internalTypeOf_inj hlen htype (.inl hplain) (heq.trans hzero.symm)
  · rintro rfl
    exact hzero

include hvalid

lemma fits_itemOf (hargs : args ∈ items) : FitsKey (internalTypeOf b.extendedItemTypes args.type) args.id :=
  h.fits hlen (h.known hvalid hargs) ⟨(hvalid args hargs).id_nonneg, (hvalid args hargs).id_le⟩

/-- The item with the id of a hidden item is that hidden item. -/
lemma eq_typeItem {item : CSnapshotItem} (hitem : item ∈ b.items) (htype : item.type = 0)
    (hid : CSnapshot.offsetUuidType ≤ item.id) :
    ∃ index < b.extendedItemTypes.length, typeItem uuids b.extendedItemTypes index = item := by
  rcases h.mem_items.1 hitem with htypeItem | ⟨args, hargs, rfl⟩
  · exact htypeItem
  · have hfits := h.fits_itemOf hlen hvalid hargs
    rw [itemOf, type_keyOf hfits, h.internalTypeOf_eq_zero hlen (h.known hvalid hargs)] at htype
    rw [itemOf, id_keyOf hfits] at hid
    exact absurd ((hvalid args hargs).notHidden htype) (not_lt.2 hid)

/-- `FindItem` takes no other item for the hidden item of a type. -/
lemma isTypeItem_iff (htype : Registered uuids type) {item : CSnapshotItem} (hitem : item ∈ b.items) :
    isTypeItem uuids type item = true ↔
      type ∈ b.extendedItemTypes ∧
        item = typeItem uuids b.extendedItemTypes (b.extendedItemTypes.idxOf type) := by
  rw [isTypeItem, Bool.and_eq_true, Bool.and_eq_true, decide_eq_true_eq, decide_eq_true_eq, decide_eq_true_eq]
  constructor
  · rintro ⟨⟨hzero, hid⟩, hdata⟩
    obtain ⟨index, hindex, rfl⟩ := h.eq_typeItem hlen hvalid hitem hzero hid
    have hmem := List.getElem_mem hindex
    have htypes : b.extendedItemTypes[index] = type := by
      refine uuidItem_inj (h.numbering.registered _ hmem) htype ?_
      rw [← hdata, typeItem, List.getElem?_eq_getElem hindex, Option.getD_some, List.take_of_length_le]
      rw [length_uuidItem]
    rw [← htypes, h.numbering.nodup.idxOf_getElem index hindex]
    exact ⟨hmem, rfl⟩
  · rintro ⟨hmem, rfl⟩
    have hfits := fits_typeItem hlen (List.idxOf_lt_length_of_mem hmem)
    rw [typeItem, type_keyOf hfits, id_keyOf hfits, List.getElem?_idxOf hmem, Option.getD_some,
      List.take_of_length_le (length_uuidItem uuids type).le]
    have hindex := List.idxOf_lt_length_of_mem hmem
    rw [maxExtendedItemTypes] at hlen
    refine ⟨⟨rfl, ?_⟩, rfl⟩
    rw [getTypeFromIndex, maxType, CSnapshot.offsetUuidType]
    omega

/-- `FindItem` finds the number of each type that has one. -/
lemma getInternalType_eq (htype : Plain type ∨ type ∈ b.extendedItemTypes) :
    getInternalType uuids b.items type = some (internalTypeOf b.extendedItemTypes type) := by
  rw [getInternalType, internalTypeOf]
  by_cases hplain : type < offsetUuid
  · rw [if_neg (not_le.2 hplain), if_pos hplain]
  · have hmem := htype.resolve_left fun hplain' => hplain hplain'.lt
    have hregistered := h.numbering.registered type hmem
    have hfits := fits_typeItem hlen (List.idxOf_lt_length_of_mem hmem)
    rw [if_pos (not_lt.1 hplain), if_neg hplain]
    cases hfind : b.items.find? (isTypeItem uuids type) with
    | none =>
      have hnone := List.find?_eq_none.1 hfind _ (h.typeItem_mem hmem)
      exact absurd ((h.isTypeItem_iff hlen hvalid hregistered (h.typeItem_mem hmem)).2 ⟨hmem, rfl⟩) hnone
    | some item =>
      obtain ⟨-, rfl⟩ := (h.isTypeItem_iff hlen hvalid hregistered (List.mem_of_find?_eq_some hfind)).1
        (List.find?_some hfind)
      rw [Option.map_some, typeItem, id_keyOf hfits]

lemma mem_of_getInternalType (htype : Registered uuids type) {internalType : ℤ}
    (hinternal : getInternalType uuids b.items type = some internalType) : type ∈ b.extendedItemTypes := by
  rw [getInternalType, if_pos htype.1] at hinternal
  obtain ⟨item, hitem, -⟩ := Option.map_eq_some_iff.1 hinternal
  exact ((h.isTypeItem_iff hlen hvalid htype (List.mem_of_find?_eq_some hitem)).1 (List.find?_some hitem)).1

include hdistinct

lemma keys_nodup : (b.items.map CSnapshotItem.key).Nodup := by
  rw [(h.perm.map CSnapshotItem.key).nodup_iff, List.map_append, List.nodup_append]
  refine ⟨?_, ?_, ?_⟩
  · rw [typeItems, List.map_map]
    refine List.Nodup.map_on ?_ List.nodup_range
    intro i hi j hj heq
    have hids := ((keyOf_inj (fits_typeItem hlen (List.mem_range.1 hi)) (fits_typeItem hlen (List.mem_range.1 hj))).1
      heq).2
    rw [getTypeFromIndex, getTypeFromIndex] at hids
    omega
  · rw [List.map_map]
    refine List.Nodup.map_on ?_ hdistinct.of_map
    intro args hargs args' hargs' heq
    obtain ⟨htypes, hids⟩ := (keyOf_inj (h.fits_itemOf hlen hvalid hargs) (h.fits_itemOf hlen hvalid hargs')).1 heq
    have htype := h.numbering.internalTypeOf_inj hlen (h.known hvalid hargs) (h.known hvalid hargs') htypes
    exact List.inj_on_of_nodup_map hdistinct hargs hargs' (Prod.ext htype hids)
  · rintro key hkey key' hkey' rfl
    rw [typeItems, List.map_map] at hkey
    obtain ⟨index, hindex, rfl⟩ := List.mem_map.1 hkey
    rw [List.map_map] at hkey'
    obtain ⟨args, hargs, heq⟩ := List.mem_map.1 hkey'
    have hfits := fits_typeItem hlen (List.mem_range.1 hindex)
    obtain ⟨htype, hid⟩ := (keyOf_inj (h.fits_itemOf hlen hvalid hargs) hfits).1 heq
    have hlow := (hvalid args hargs).notHidden ((h.internalTypeOf_eq_zero hlen (h.known hvalid hargs)).1 htype)
    have hindex := List.mem_range.1 hindex
    rw [hid, getTypeFromIndex, maxType, CSnapshot.offsetUuidType] at hlow
    rw [maxExtendedItemTypes] at hlen
    omega

/-- A type can be read back from its number. -/
lemma getExternalItemType_eq (htype : Plain type ∨ type ∈ b.extendedItemTypes) :
    getExternalItemType uuids b.items (internalTypeOf b.extendedItemTypes type) = type := by
  rw [getExternalItemType]
  split_ifs with hlow
  · have hbounds := h.numbering.internalTypeOf_bounds hlen htype
    have hplain : Plain type := hbounds.2.2.2 (by
      rw [CSnapshot.offsetUuidType] at hlow
      rw [maxType, maxExtendedItemTypes]
      omega)
    rw [internalTypeOf, if_pos hplain.lt]
  · rw [ofInt_eq_keyOf]
    by_cases hmem : type ∈ b.extendedItemTypes
    · obtain ⟨index, hindex, hfound⟩ := getItemIndex_of_mem (h.keys_nodup hlen hvalid hdistinct) (h.typeItem_mem hmem)
      have hregistered := h.numbering.registered type hmem
      obtain ⟨uuid, huuid⟩ := Option.isSome_iff_exists.1 hregistered.2
      have hdata : (typeItem uuids b.extendedItemTypes (b.extendedItemTypes.idxOf type)).data = uuidItem uuids type := by
        rw [typeItem, List.getElem?_idxOf hmem, Option.getD_some]
      have hkey : getItemIndex b.items (keyOf 0 (internalTypeOf b.extendedItemTypes type)) = some index := by
        rw [internalTypeOf, if_neg (not_lt.2 hregistered.1)]
        exact hfound
      simp only [hkey]
      rw [getItemSize_of_getElem? hindex, getItem_of_getElem? hindex, hdata, length_uuidItem, if_neg (by decide),
        toUuid_uuidItem huuid, lookupUuid_getUuid hregistered.1 huuid]
    · have hplain := htype.resolve_right hmem
      have hbounds := hplain.2
      rw [internalTypeOf, if_pos hplain.lt] at hlow ⊢
      rw [maxType, maxExtendedItemTypes] at hbounds
      have hfits : FitsKey 0 type := ⟨le_rfl, by rw [maxType]; omega, hplain.1, by omega⟩
      -- an item with this key would be the hidden item of an extended type
      have hnone : getItemIndex b.items (keyOf 0 type) = none := by
        refine getItemIndex_eq_none fun item hitem hkey => ?_
        obtain ⟨typeAndId, data⟩ := item
        obtain rfl : typeAndId = keyOf 0 type := hkey
        obtain ⟨index, hindex, heq⟩ := h.eq_typeItem hlen hvalid hitem (type_keyOf hfits data)
          (by rw [id_keyOf hfits data]; exact not_lt.1 hlow)
        have hid := congrArg CSnapshotItem.id heq
        rw [typeItem, id_keyOf (fits_typeItem hlen hindex), id_keyOf hfits data, getTypeFromIndex, maxType] at hid
        rw [maxExtendedItemTypes] at hlen
        omega
      simp only [hnone]

/-- An added item is found, with its type and its size. -/
lemma finds (hargs : args ∈ items) :
    ∃ index, findItemIndex uuids b.items args.type args.id = some index ∧
      findItem uuids b.items args.type args.id = some args.data ∧
      getItemType uuids b.items index = args.type ∧ getItemSize b.items index = 4 * args.data.length := by
  have hknown := h.known hvalid hargs
  have hitem : itemOf b.extendedItemTypes args ∈ b.items := h.mem_items.2 (.inr ⟨args, hargs, rfl⟩)
  obtain ⟨index, hindex, hfound⟩ := getItemIndex_of_mem (h.keys_nodup hlen hvalid hdistinct) hitem
  have hfind : findItemIndex uuids b.items args.type args.id = some index := by
    rw [findItemIndex, h.getInternalType_eq hlen hvalid hknown]
    exact hfound
  refine ⟨index, hfind, ?_, ?_, ?_⟩
  · rw [findItem, hfind, Option.map_some, getItem_of_getElem? hindex]
    rfl
  · rw [getItemType, getItem_of_getElem? hindex, itemOf, type_keyOf (h.fits_itemOf hlen hvalid hargs)]
    exact h.getExternalItemType_eq hlen hvalid hdistinct hknown
  · rw [getItemSize_of_getElem? hindex]
    rfl

omit hdistinct in
/-- Nothing is found for a type and an id that were not added. -/
lemma finds_nothing {id : ℤ} (htype : Plain type ∨ Registered uuids type) (hid : 0 ≤ id ∧ id ≤ 0xffff)
    (habsent : ∀ args ∈ items, ¬(args.type = type ∧ args.id = id))
    (hhidden : ¬(type = 0 ∧ ∃ index < b.extendedItemTypes.length, id = getTypeFromIndex index)) :
    findItem uuids b.items type id = none := by
  rw [findItem, Option.map_eq_none_iff, findItemIndex, Option.bind_eq_none_iff]
  intro internalType hinternal
  have hknown : Plain type ∨ type ∈ b.extendedItemTypes :=
    htype.imp_right fun hregistered => h.mem_of_getInternalType hlen hvalid hregistered hinternal
  rw [h.getInternalType_eq hlen hvalid hknown] at hinternal
  obtain rfl := Option.some.inj hinternal
  have hfits := h.fits hlen hknown hid
  refine getItemIndex_eq_none fun item hitem hkey => ?_
  rcases h.mem_items.1 hitem with ⟨index, hindex, rfl⟩ | ⟨args, hargs, rfl⟩
  · obtain ⟨hzero, hid'⟩ := (keyOf_inj (fits_typeItem hlen hindex) hfits).1 hkey
    exact hhidden ⟨(h.internalTypeOf_eq_zero hlen hknown).1 hzero.symm, index, hindex, hid'.symm⟩
  · obtain ⟨htypes, hids⟩ := (keyOf_inj (h.fits_itemOf hlen hvalid hargs) hfits).1 hkey
    exact habsent args hargs ⟨h.numbering.internalTypeOf_inj hlen (h.known hvalid hargs) hknown htypes, hids⟩

end Holds

/-- After any calls of a builder, a new snapshot whose calls of `NewItem` all succeed has the items they added, and no
others but the hidden ones. -/
theorem finish_finds (calls : List Call) (hcalls : ∀ call ∈ calls, call.Registered uuids) {items : List NewItemArgs}
    (hvalid : ∀ args ∈ items, args.Valid uuids) (hdistinct : (items.map fun args => (args.type, args.id)).Nodup)
    (hadded : newItems sixToSeven uuids (init sixToSeven uuids (run sixToSeven uuids new calls) false) items = some b)
    (hlen : b.extendedItemTypes.length ≤ maxExtendedItemTypes) {s : CSnapshot} (hfinish : b.finish = some s) :
    (∀ args ∈ items, ∃ index, findItemIndex uuids s args.type args.id = some index ∧
        findItem uuids s args.type args.id = some args.data ∧
        getItemType uuids s index = args.type ∧ getItemSize s index = 4 * args.data.length) ∧
      ∀ type id, Plain type ∨ Registered uuids type → 0 ≤ id ∧ id ≤ 0xffff →
        (∀ args ∈ items, ¬(args.type = type ∧ args.id = id)) →
        ¬(type = 0 ∧ ∃ index < b.extendedItemTypes.length, id = getTypeFromIndex index) →
        findItem uuids s type id = none := by
  have hbefore : (run sixToSeven uuids new calls).extendedItemTypes.length ≤ maxExtendedItemTypes := by
    have hmore := newItems_types_le hadded
    rw [init_types] at hmore
    exact hmore.trans hlen
  have hregistered : ∀ args ∈ items, offsetUuid ≤ args.type → (uuids.getUuid args.type).isSome := by
    intro args hargs hextended
    rcases (hvalid args hargs).type with hplain | hregistered
    · exact absurd hplain.lt (not_lt.2 hextended)
    · exact hregistered.2
  have hholds : Holds uuids b items :=
    ((Holds.init (Numbering.run calls hcalls) hbefore).newItems hregistered hadded)
  obtain rfl : b.items = s := by
    rw [finish] at hfinish
    split_ifs at hfinish
    exact Option.some.inj hfinish
  exact ⟨fun args hargs => hholds.finds hlen hvalid hdistinct hargs,
    fun type id htype hid habsent hhidden => hholds.finds_nothing hlen hvalid htype hid habsent hhidden⟩

end CSnapshotBuilder

namespace CSnapshotBuilder

open CSnapshot

deriving instance DecidableEq for CSnapshotBuilder

/-- Two names, as the generated list of names registers them. -/
def twoUuids : CUuidManager := ⟨[fun _ => 1, fun _ => 2], by decide⟩

/-- A snapshot with the second extended type, then one for sixup with both. -/
def twoRounds : List Call :=
  [.init false, .newItem (offsetUuid + 1) 3 [7], .init true, .newItem offsetUuid 0 [], .newItem (offsetUuid + 1) 0 [5]]

def twoRoundsItems : List NewItemArgs := [⟨5, 1, [1, 2]⟩, ⟨offsetUuid, 4, []⟩, ⟨offsetUuid + 1, 4, [9]⟩]

def twoRoundsBuilder : CSnapshotBuilder :=
  (newItems id twoUuids (init id twoUuids (run id twoUuids new twoRounds) false) twoRoundsItems).getD new

theorem finish_finds_twoRounds :
    (∀ args ∈ twoRoundsItems, findItem twoUuids twoRoundsBuilder.items args.type args.id = some args.data) ∧
      findItem twoUuids twoRoundsBuilder.items offsetUuid 1 = none := by
  have hregistered : ∀ type, type = offsetUuid ∨ type = offsetUuid + 1 → Registered twoUuids type := by
    rintro type (rfl | rfl)
    · exact ⟨by decide, by decide⟩
    · exact ⟨by decide, by decide⟩
  have hvalid : ∀ args ∈ twoRoundsItems, args.Valid twoUuids := by
    intro args hargs
    simp only [twoRoundsItems, List.mem_cons, List.not_mem_nil, or_false] at hargs
    rcases hargs with rfl | rfl | rfl
    · exact ⟨.inl ⟨by decide, by decide⟩, by decide, by decide, by decide⟩
    · exact ⟨.inr (hregistered _ (.inl rfl)), by decide, by decide, by decide⟩
    · exact ⟨.inr (hregistered _ (.inr rfl)), by decide, by decide, by decide⟩
  have hcalls : ∀ call ∈ twoRounds, call.Registered twoUuids := by
    intro call hcall
    simp only [twoRounds, List.mem_cons, List.not_mem_nil, or_false] at hcall
    rcases hcall with rfl | rfl | rfl | rfl | rfl
    · trivial
    · exact fun _ => (hregistered _ (.inr rfl)).2
    · trivial
    · exact fun _ => (hregistered _ (.inl rfl)).2
    · exact fun _ => (hregistered _ (.inr rfl)).2
  have hadded : newItems id twoUuids (init id twoUuids (run id twoUuids new twoRounds) false) twoRoundsItems =
      some twoRoundsBuilder := by decide +kernel
  have hfinish : twoRoundsBuilder.finish = some twoRoundsBuilder.items := by decide +kernel
  have hfinds := finish_finds twoRounds hcalls hvalid (by decide) hadded (by decide +kernel) hfinish
  refine ⟨fun args hargs => ?_, hfinds.2 offsetUuid 1 (.inr (hregistered _ (.inl rfl))) (by decide) (by decide) ?_⟩
  · obtain ⟨index, -, hdata, -⟩ := hfinds.1 args hargs
    exact hdata
  · rintro ⟨hzero, -⟩
    exact absurd hzero (by decide)

end CSnapshotBuilder

end DDNet
