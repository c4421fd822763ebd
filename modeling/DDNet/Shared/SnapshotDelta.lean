/-
Unpacking the delta between two snapshots (`CSnapshotDelta::UnpackDelta`, `engine/shared/snapshot.cpp`).

The receiver copies the items of its old snapshot that are not deleted and then applies the records of the delta.  It
finds the items by their keys, while the sender looks them up in a hash list whose buckets keep 64 items each.  The
receiver ends up with the new snapshot if and only if no item that the hash lists leave out is lost or treated as new
(`unpackDelta_iff`).
-/
import DDNet.Shared.SnapshotCapacity

namespace DDNet

namespace CSnapshot

def maxId : ℤ := 0xffff

end CSnapshot

namespace CSnapshotDelta

open CSnapshot CSnapshotBuilder
open CSnapshotItem (keyOf FitsKey)

-- `m_aItemSizes` or `m_aItemSizes7`, in bytes
variable (itemSizes : ℤ → ℤ)

/-! ### Unpacking -/

/-- A record of a delta. -/
structure Update where
  type : ℤ
  id : ℤ
  data : List (BitVec 32)

def Update.key (u : Update) : BitVec 32 := keyOf u.type u.id

/-- The size of the item of a record and what follows it, or the error. -/
def readSize (type : ℤ) (data : List (BitVec 32)) : Except ℤ (ℤ × List (BitVec 32)) :=
  if type < maxNetobjSizes ∧ itemSizes type ≠ 0 then .ok (itemSizes type, data)
  else
    match data with
    | [] => .error (-103)
    | size :: data =>
      if size.toInt < 0 ∨ (2 ^ 31 - 1) / 4 < size.toInt then .error (-204) else .ok (4 * size.toInt, data)

/-- A record and what follows it, or the error. -/
def readUpdate : List (BitVec 32) → Except ℤ (Update × List (BitVec 32))
  | type :: id :: data =>
    if type.toInt < 0 ∨ maxType < type.toInt then .error (-202)
    else if id.toInt < 0 ∨ maxId < id.toInt then .error (-203)
    else
      match readSize itemSizes type.toInt data with
      | .error code => .error code
      | .ok (itemSize, data) =>
        if itemSize < 0 ∨ 4 * data.length < itemSize then .error (-205)
        else .ok (⟨type.toInt, id.toInt, data.take (itemSize / 4).toNat⟩, data.drop (itemSize / 4).toNat)
  | _ => .error (-102)

/-- The place of `pNewData`, `GetItemData` of the key or a new item; `none` for the null pointer. -/
def makeItem (b : CSnapshotBuilder) (u : Update) : Option (CSnapshotBuilder × ℕ) :=
  match getItemIndex b.items u.key with
  | some index => some (b, index)
  | none => (newPlainItem id b u.type u.id (List.replicate u.data.length 0)).map fun b' => (b', b.items.length)

/-- The data of the new item; `none` if the item of the old snapshot is read behind its end. -/
def unpackData (old : CSnapshot) (u : Update) : Option (List (BitVec 32)) :=
  match getItemIndex old u.key with
  | some index =>
    let past := (getItem old index).data
    if u.data.length ≤ past.length then some (undiffItem past u.data) else none
  | none => some u.data

/-- Data is written into an item; `none` if it is written behind the end of the item. -/
def writeItem (b : CSnapshotBuilder) (index : ℕ) (data : List (BitVec 32)) : Option CSnapshotBuilder :=
  let item := getItem b.items index
  if data.length ≤ item.data.length then
    some { b with items := b.items.set index { item with data := data ++ item.data.drop data.length } }
  else none

/-- What a record does to the builder. -/
def applyUpdate (old : CSnapshot) (b : CSnapshotBuilder) (u : Update) : Option (Except ℤ CSnapshotBuilder) :=
  match makeItem b u with
  | none => some (.error (-302))
  | some (b, index) => (unpackData old u).bind fun data => (writeItem b index data).map .ok

/-- The loop over the records. -/
def unpackUpdates (old : CSnapshot) :
    ℕ → CSnapshotBuilder → List (BitVec 32) → Option (Except ℤ CSnapshotBuilder)
  | 0, b, _ => some (.ok b)
  | n + 1, b, data =>
    match readUpdate itemSizes data with
    | .error code => some (.error code)
    | .ok (u, data) =>
      (applyUpdate old b u).bind fun
        | .error code => some (.error code)
        | .ok b => unpackUpdates old n b data

/-- One round of the loop over the items of the old snapshot; `none` if there is no room. -/
def keepItem (deleted : List (BitVec 32)) (b : CSnapshotBuilder) (item : CSnapshotItem) : Option CSnapshotBuilder :=
  if item.key ∈ deleted then some b else newPlainItem id b item.type item.id item.data

/-- `UnpackDelta` of a delta with a header: the snapshot or the error; `none` if an item is read or written behind its
end, or if an assertion of `Finish` fails. -/
def unpackDelta (old : CSnapshot) : List (BitVec 32) → Option (Except ℤ CSnapshot)
  | numDeletedItems :: numUpdateItems :: _ :: data =>
    if numDeletedItems.toInt < 0 then some (.error (-201))
    else if data.length < numDeletedItems.toInt then some (.error (-101))
    else
      match old.foldlM (keepItem (data.take numDeletedItems.toInt.toNat)) .new with
      | none => some (.error (-301))
      | some b =>
        (unpackUpdates itemSizes old numUpdateItems.toInt.toNat b (data.drop numDeletedItems.toInt.toNat)).bind fun
          | .error code => some (.error code)
          | .ok b => b.finish.map .ok
  | _ => none

/-! ### Keys -/

section Keys

variable {s : CSnapshot} {item : CSnapshotItem} {key : BitVec 32}

lemma toInt_of_type_nonneg (h : 0 ≤ item.type) : 0 ≤ item.typeAndId.toInt := by
  rw [CSnapshotItem.type, BitVec.toInt_sshiftRight, Int.shiftRight_eq_div_pow] at h
  omega

/-- An item whose type is not negative has a type and an id that fit a key. -/
lemma fitsKey_of_type_nonneg (h : 0 ≤ item.type) :
    FitsKey item.type item.id ∧ keyOf item.type item.id = item.typeAndId := by
  have hnonneg := toInt_of_type_nonneg h
  have hlt := item.typeAndId.isLt
  have hword : item.typeAndId.toInt = item.typeAndId.toNat := by
    rw [BitVec.toInt_eq_toNat_cond] at hnonneg ⊢
    split_ifs at hnonneg ⊢ with hsmall
    · rfl
    · omega
  have hsmall : item.typeAndId.toNat < 2 ^ 31 := by
    have hmax := BitVec.toInt_lt (x := item.typeAndId)
    omega
  have htype : item.type = item.typeAndId.toNat / 2 ^ 16 := by
    rw [CSnapshotItem.type, BitVec.toInt_sshiftRight, Int.shiftRight_eq_div_pow, hword]
    rfl
  have hmask : (item.typeAndId &&& 0xffff).toNat = item.typeAndId.toNat % 2 ^ 16 :=
    Nat.and_two_pow_sub_one_eq_mod item.typeAndId.toNat 16
  have hid : item.id = item.typeAndId.toNat % 2 ^ 16 := by
    rw [CSnapshotItem.id, BitVec.toInt_eq_toNat_of_lt (by omega), hmask]
    rfl
  have hfits : FitsKey item.type item.id :=
    { type_nonneg := h
      type_le := by rw [htype, CSnapshot.maxType]; omega
      id_nonneg := by omega
      id_le := by omega }
  refine ⟨hfits, BitVec.eq_of_toNat_eq ?_⟩
  rw [CSnapshotItem.toNat_keyOf hfits, htype, hid]
  omega

/-- The item that is found is the one with the key. -/
lemma getItemIndex_cases (s : CSnapshot) (key : BitVec 32) :
    (∃ index item, getItemIndex s key = some index ∧ s[index]? = some item ∧ item.key = key) ∨
      getItemIndex s key = none ∧ ∀ item ∈ s, item.key ≠ key := by
  cases hindex : getItemIndex s key with
  | none => exact .inr ⟨rfl, fun item hitem => by simpa using List.findIdx?_eq_none_iff.1 hindex item hitem⟩
  | some index =>
    obtain ⟨hlt, hkey, -⟩ := List.findIdx?_eq_some_iff_getElem.1 hindex
    exact .inl ⟨index, s[index], rfl, List.getElem?_eq_getElem hlt, of_decide_eq_true hkey⟩

/-! ### The hash list -/

/-- A bucket keeps the first items with its hash. -/
lemma generateHash_eq (s : CSnapshot) (hash : ℕ) :
    generateHash s hash =
      ((s.zipIdx.filter fun entry => calcHashId entry.1.key = hash).map fun entry => (entry.1.key, entry.2)).take
        hashlistBucketSize := by
  rw [generateHash]
  induction s.zipIdx using List.reverseRecOn with
  | nil => rfl
  | append_singleton entries entry ih =>
    rw [List.foldl_append, List.foldl_cons, List.foldl_nil, addToHash, List.filter_append, List.map_append]
    set hashlist := entries.foldl addToHash fun _ => []
    by_cases hhash : calcHashId entry.1.key = hash
    · subst hhash
      rw [List.filter_cons_of_pos (by simp), List.filter_nil, List.map_singleton]
      split_ifs with hroom
      · rw [Function.update_self, ih, List.take_append]
        rw [ih, List.length_take] at hroom
        rw [List.take_of_length_le (by omega), List.take_of_length_le]
        rw [List.length_singleton]
        omega
      · rw [ih, List.length_take] at hroom
        rw [ih, List.take_append_of_le_length (by omega)]
    · rw [List.filter_cons_of_neg (by simpa using hhash), List.filter_nil, List.map_nil, List.append_nil, ← ih]
      split_ifs
      · rw [Function.update_of_ne (Ne.symm hhash)]
      · rfl

/-- The hash list of a snapshot finds the item with the key. -/
def Hashed (s : CSnapshot) (key : BitVec 32) : Prop := (getItemIndexHashed key (generateHash s)).isSome = true

instance : Decidable (Hashed s key) := inferInstanceAs (Decidable (_ = true))

lemma getItemIndexHashed_some {index : ℕ} (h : getItemIndexHashed key (generateHash s) = some index) :
    ∃ item, s[index]? = some item ∧ item.key = key := by
  rw [getItemIndexHashed, generateHash_eq] at h
  obtain ⟨entry, hfind, rfl⟩ := Option.map_eq_some_iff.1 h
  have hmem := List.mem_of_mem_take (List.mem_of_find?_eq_some hfind)
  have hkey := List.find?_some hfind
  obtain ⟨item, hitem, rfl⟩ := List.mem_map.1 hmem
  exact ⟨item.1, List.mem_zipIdx_iff_getElem?.1 (List.mem_filter.1 hitem).1, of_decide_eq_true hkey⟩

lemma Hashed.mem (h : Hashed s key) : ∃ item ∈ s, item.key = key := by
  obtain ⟨index, hindex⟩ := Option.isSome_iff_exists.1 h
  obtain ⟨item, hitem, hkey⟩ := getItemIndexHashed_some hindex
  exact ⟨item, List.mem_of_getElem? hitem, hkey⟩

/-- No item is left out if no bucket gets too many. -/
lemma hashed_of_uncrowded (huncrowded : ∀ hash, (s.filter fun item => calcHashId item.key = hash).length ≤
    hashlistBucketSize) (hitem : item ∈ s) : Hashed s item.key := by
  have hlength : ((s.zipIdx.filter fun entry => calcHashId entry.1.key = calcHashId item.key).map
      fun entry => (entry.1.key, entry.2)).length ≤ hashlistBucketSize := by
    have hmap : (s.zipIdx.filter fun entry => calcHashId entry.1.key = calcHashId item.key).map Prod.fst =
        s.filter fun other => calcHashId other.key = calcHashId item.key := by
      conv_rhs => rw [← List.zipIdx_map_fst 0 s]
      rw [List.filter_map]
      rfl
    rw [List.length_map, ← List.length_map (f := Prod.fst), hmap]
    exact huncrowded _
  obtain ⟨index, hindex⟩ := List.mem_iff_getElem?.1 hitem
  rw [Hashed, getItemIndexHashed, Option.isSome_map, generateHash_eq, List.take_of_length_le hlength]
  refine List.find?_isSome.2 ⟨(item.key, index), List.mem_map.2 ⟨(item, index), ?_, rfl⟩, by simp⟩
  exact List.mem_filter.2 ⟨List.mem_zipIdx_iff_getElem?.2 hindex, by simp⟩

lemma mem_deletedItems {old new : CSnapshot} :
    key ∈ deletedItems old new ↔ (∃ item ∈ old, item.key = key) ∧ ¬ Hashed new key := by
  rw [deletedItems, List.mem_filter, List.mem_map, Hashed, Option.isNone_iff_eq_none, Option.not_isSome_iff_eq_none]

/-- The past item is the one with the key, if the hash list has it. -/
lemma pastItem_eq (hnodup : (s.map CSnapshotItem.key).Nodup) (hitem : item ∈ s) (hkey : item.key = key) :
    pastItem s key = if Hashed s key then some item else none := by
  rw [pastItem]
  cases hindex : getItemIndexHashed key (generateHash s) with
  | none =>
    rw [if_neg (by rw [Hashed, hindex]; exact Bool.false_ne_true)]
    rfl
  | some index =>
    obtain ⟨other, hother, hkey'⟩ := getItemIndexHashed_some hindex
    rw [if_pos (by rw [Hashed, hindex]; rfl), Option.bind_some, hother,
      List.inj_on_of_nodup_map hnodup (List.mem_of_getElem? hother) hitem (hkey'.trans hkey.symm)]

lemma pastItem_eq_none (h : ∀ item ∈ s, item.key ≠ key) : pastItem s key = none := by
  rw [pastItem]
  cases hindex : getItemIndexHashed key (generateHash s) with
  | none => rfl
  | some index =>
    obtain ⟨item, hitem, hkey⟩ := getItemIndexHashed_some hindex
    exact absurd hkey (h item (List.mem_of_getElem? hitem))

end Keys

/-! ### Snapshots that fit a delta -/

/-- A snapshot as the builder makes it: it is valid, and its keys are distinct and not negative. -/
structure Keyed (s : CSnapshot) : Prop where
  nodup : (s.map CSnapshotItem.key).Nodup
  type_nonneg : ∀ item ∈ s, 0 ≤ item.type
  length_le : s.length ≤ maxItems
  totalSize_le : totalSize s ≤ maxSize

/-- Items of the same key have the same size, and items of a type with a static size have that size. -/
structure SameSizes (old new : CSnapshot) : Prop where
  agree : ∀ past ∈ old, ∀ item ∈ new, past.key = item.key → past.data.length = item.data.length
  static : ∀ item ∈ new, includeSize itemSizes item = false → itemSizes item.type = 4 * item.data.length

section Room

variable {s t : CSnapshot}

/-- Items with distinct keys, all of them keys of a snapshot with the same sizes, fit where the snapshot fits. -/
lemma sizes_le (hnodup : (s.map CSnapshotItem.key).Nodup)
    (hembed : ∀ x ∈ s, ∃ item ∈ t, item.key = x.key ∧ item.data.length = x.data.length) :
    s.length ≤ t.length ∧ totalSize s ≤ totalSize t := by
  have hsizes : (s.map fun x => (x.key, x.data.length)).Nodup := by
    refine List.Nodup.of_map Prod.fst ?_
    rw [List.map_map]
    exact hnodup
  have hsub : (s.map fun x => (x.key, x.data.length)).Subperm (t.map fun x => (x.key, x.data.length)) := by
    refine List.subperm_of_subset hsizes fun entry hentry => ?_
    obtain ⟨x, hx, rfl⟩ := List.mem_map.1 hentry
    obtain ⟨item, hitem, hkey, hlength⟩ := hembed x hx
    exact List.mem_map.2 ⟨item, hitem, by rw [hkey, hlength]⟩
  have hlength : s.length ≤ t.length := by
    simpa using hsub.length_le
  have hdata : ∀ u : CSnapshot, dataSize u =
      ((u.map fun x => (x.key, x.data.length)).map fun entry => 4 + 4 * entry.2).sum := by
    intro u
    rw [dataSize, List.map_map]
    rfl
  have hsum : dataSize s ≤ dataSize t := by
    obtain ⟨u, hperm, hsublist⟩ := hsub
    rw [hdata, hdata, ← (hperm.map _).sum_eq]
    exact (hsublist.map _).sum_le_sum fun _ _ => Nat.zero_le _
  exact ⟨hlength, by rw [totalSize, totalSize]; omega⟩

variable {b : CSnapshotBuilder} {item : CSnapshotItem}

/-- The builder takes an item with a new key of a snapshot that fits. -/
lemma newPlainItem_of_embed (ht : Keyed t) (hsixup : b.sixup = false) (hitem : 0 ≤ item.type)
    (hnodup : ((b.items ++ [item]).map CSnapshotItem.key).Nodup)
    (hembed : ∀ x ∈ b.items ++ [item], ∃ y ∈ t, y.key = x.key ∧ y.data.length = x.data.length) :
    newPlainItem id b item.type item.id item.data = some { b with items := b.items ++ [item] } := by
  obtain ⟨hlength, hsize⟩ := sizes_le hnodup hembed
  obtain ⟨hfits, hkey⟩ := fitsKey_of_type_nonneg hitem
  have hpush : b.push item.type item.id item.data = { b with items := b.items ++ [item] } := by
    rw [CSnapshotBuilder.push, hkey]
  have hroom : b.hasRoom item.data.length = true := by
    refine fits_push_iff.1 (⟨?_, ?_⟩ : CSnapshotBuilder.Fits (b.push item.type item.id item.data))
    · rw [hpush]
      exact hlength.trans ht.length_le
    · rw [hpush]
      exact hsize.trans ht.totalSize_le
  have hid := hfits.id_nonneg
  rw [newPlainItem, if_neg (by rw [hroom]; simp; omega), hsixup, if_neg (by simp), if_neg (not_lt.2 hitem), hpush,
    hsixup]

end Room

/-! ### What the receiver gets -/

/-- What the receiver has under the key of an item of the new snapshot. -/
def delivered (old new : CSnapshot) (item : CSnapshotItem) : Option CSnapshotItem :=
  match old.find? fun past => past.key = item.key with
  | none => some item
  | some past =>
    if Hashed old item.key then if past.data = item.data ∧ ¬ Hashed new item.key then none else some item
    else some ⟨item.typeAndId, undiffItem past.data item.data⟩

/-- No item is lost because the sender counts it as deleted, and none is taken for new unless its old data are zeros. -/
def Survives (old new : CSnapshot) : Prop :=
  ∀ past ∈ old, ∀ item ∈ new, past.key = item.key →
    (Hashed old item.key → past.data = item.data → Hashed new item.key) ∧
      (¬ Hashed old item.key → past.data = List.replicate item.data.length 0)

section Delivered

variable {old new : CSnapshot} {item past x : CSnapshotItem}

lemma find_eq_some (hold : Keyed old) (hpast : past ∈ old) (hkey : past.key = item.key) :
    (old.find? fun past => past.key = item.key) = some past := by
  cases hfind : old.find? fun past => past.key = item.key with
  | none => exact absurd hkey (by simpa using List.find?_eq_none.1 hfind past hpast)
  | some other =>
    have hother := List.find?_some hfind
    rw [List.inj_on_of_nodup_map hold.nodup (List.mem_of_find?_eq_some hfind) hpast
      ((of_decide_eq_true hother).trans hkey.symm)]

lemma find_eq_none (h : ∀ past ∈ old, past.key ≠ item.key) : (old.find? fun past => past.key = item.key) = none :=
  List.find?_eq_none.2 fun past hpast => by simpa using h past hpast

lemma undiffItem_eq_self_iff {past data : List (BitVec 32)} (h : past.length = data.length) :
    undiffItem past data = data ↔ past = List.replicate data.length 0 := by
  induction past generalizing data with
  | nil =>
    obtain rfl := List.length_eq_zero_iff.1 h.symm
    simp [undiffItem]
  | cons p past ih =>
    obtain ⟨d, data, rfl⟩ := List.exists_cons_of_length_pos (by rw [← h, List.length_cons]; omega)
    have hrest := ih (Nat.succ.inj h)
    rw [undiffItem] at hrest ⊢
    rw [List.zipWith_cons_cons, List.length_cons, List.replicate_succ, List.cons.injEq, List.cons.injEq, hrest,
      add_eq_right]

lemma length_undiffItem {past data : List (BitVec 32)} (h : past.length = data.length) :
    (undiffItem past data).length = data.length := by
  rw [undiffItem, List.length_zipWith, h, Nat.min_self]

/-- What is delivered has the key and the size of the item. -/
lemma delivered_shape (hsizes : SameSizes itemSizes old new) (hitem : item ∈ new)
    (h : delivered old new item = some x) : x.key = item.key ∧ x.data.length = item.data.length := by
  rw [delivered] at h
  cases hfind : old.find? fun past => past.key = item.key with
  | none =>
    rw [hfind] at h
    obtain rfl := Option.some.inj h
    exact ⟨rfl, rfl⟩
  | some past =>
    rw [hfind] at h
    dsimp only at h
    have hpast := List.mem_of_find?_eq_some hfind
    have hkey := List.find?_some hfind
    split_ifs at h
    · obtain rfl := Option.some.inj h
      exact ⟨rfl, rfl⟩
    · obtain rfl := Option.some.inj h
      exact ⟨rfl, length_undiffItem (hsizes.agree past hpast item hitem (of_decide_eq_true hkey))⟩

lemma delivered_eq_some_iff (hold : Keyed old) (hsizes : SameSizes itemSizes old new) (hitem : item ∈ new) :
    delivered old new item = some item ↔ ∀ past ∈ old, past.key = item.key →
      (Hashed old item.key → past.data = item.data → Hashed new item.key) ∧
        (¬ Hashed old item.key → past.data = List.replicate item.data.length 0) := by
  by_cases hnew : ∀ past ∈ old, past.key ≠ item.key
  · rw [delivered, find_eq_none hnew]
    exact iff_of_true rfl fun past hpast hkey => absurd hkey (hnew past hpast)
  · simp only [not_forall, not_not] at hnew
    obtain ⟨past, hpast, hkey⟩ := hnew
    have hunique : ∀ other ∈ old, other.key = item.key → other = past := fun other hother hkey' =>
      List.inj_on_of_nodup_map hold.nodup hother hpast (hkey'.trans hkey.symm)
    rw [delivered, find_eq_some hold hpast hkey]
    have hlength := hsizes.agree past hpast item hitem hkey
    by_cases hhashed : Hashed old item.key
    · simp only [if_pos hhashed]
      constructor
      · intro h other hother hkey'
        rw [hunique other hother hkey']
        refine ⟨fun _ hdata => ?_, fun hnot => absurd hhashed hnot⟩
        by_contra hnot
        rw [if_pos ⟨hdata, hnot⟩] at h
        cases h
      · intro h
        rw [if_neg fun hlost => hlost.2 ((h past hpast hkey).1 hhashed hlost.1)]
    · simp only [if_neg hhashed, Option.some.injEq]
      have hself : (⟨item.typeAndId, undiffItem past.data item.data⟩ : CSnapshotItem) = item ↔
          undiffItem past.data item.data = item.data := by
        cases item
        simp
      rw [hself, undiffItem_eq_self_iff hlength]
      constructor
      · intro h other hother hkey'
        rw [hunique other hother hkey']
        exact ⟨fun hold => absurd hold hhashed, fun _ => h⟩
      · intro h
        exact (h past hpast hkey).2 hhashed

end Delivered

/-! ### One record -/

section Record

variable {itemSizes} {old new : CSnapshot} {item : CSnapshotItem}

lemma foldl_or_eq_zero_iff (l : List (BitVec 32)) (a : BitVec 32) :
    l.foldl (· ||| ·) a = 0 ↔ a = 0 ∧ ∀ x ∈ l, x = 0 := by
  induction l generalizing a with
  | nil => simp
  | cons x l ih =>
    have hor : a ||| x = 0 ↔ a = 0 ∧ x = 0 := BitVec.or_eq_zero_iff
    rw [List.foldl_cons, ih, hor, List.forall_mem_cons, and_assoc]

/-- Nothing has changed if all differences are zero. -/
lemma diffItem_eq_zero_iff {past data : List (BitVec 32)} (h : past.length = data.length) :
    (diffItem past data).foldl (· ||| ·) 0 = 0 ↔ past = data := by
  rw [foldl_or_eq_zero_iff, and_iff_right rfl]
  induction past generalizing data with
  | nil =>
    obtain rfl := List.length_eq_zero_iff.1 h.symm
    simp [diffItem]
  | cons p past ih =>
    obtain ⟨d, data, rfl⟩ := List.exists_cons_of_length_pos (by rw [← h, List.length_cons]; omega)
    have hrest := ih (Nat.succ.inj h)
    rw [diffItem] at hrest ⊢
    rw [List.zipWith_cons_cons, List.forall_mem_cons, hrest, List.cons.injEq, sub_eq_zero, eq_comm (a := d)]

lemma data_length_lt (hnew : Keyed new) (hitem : item ∈ new) : item.data.length < 2 ^ 16 := by
  have hsize := hnew.totalSize_le
  have hle : item.size ≤ dataSize new := List.single_le_sum (by simp) _ (List.mem_map_of_mem hitem)
  rw [CSnapshotItem.size] at hle
  rw [totalSize, maxSize_eq] at hsize
  omega

/-- The receiver reads a record as it was written. -/
lemma readUpdate_record (hnew : Keyed new) (hsizes : SameSizes itemSizes old new) (hitem : item ∈ new)
    {body : List (BitVec 32)} (hbody : body.length = item.data.length) (rest : List (BitVec 32)) :
    readUpdate itemSizes (recordHead itemSizes item ++ body ++ rest) = .ok (⟨item.type, item.id, body⟩, rest) := by
  have hlt := data_length_lt hnew hitem
  obtain ⟨⟨htype₀, htype, hid₀, hid⟩, -⟩ := fitsKey_of_type_nonneg (hnew.type_nonneg item hitem)
  have htypeInt : (BitVec.ofInt 32 item.type).toInt = item.type := by
    rw [maxType] at htype
    rw [BitVec.toInt_ofInt, Int.bmod_eq_of_le (by omega) (by omega)]
  have hidInt : (BitVec.ofInt 32 item.id).toInt = item.id := by
    rw [BitVec.toInt_ofInt, Int.bmod_eq_of_le (by omega) (by omega)]
  have htake : ∀ size : ℤ, size = 4 * item.data.length →
      (size < 0 ∨ 4 * ((body ++ rest).length : ℤ) < size) = False ∧
        (body ++ rest).take (size / 4).toNat = body ∧ (body ++ rest).drop (size / 4).toNat = rest := by
    rintro size rfl
    rw [show (4 * (item.data.length : ℤ) / 4).toNat = body.length by omega, List.take_left, List.drop_left,
      List.length_append, hbody]
    refine ⟨eq_false ?_, rfl, rfl⟩
    push_cast
    omega
  have hread : readSize itemSizes item.type
      ((if includeSize itemSizes item then [BitVec.ofNat 32 item.data.length] else []) ++ (body ++ rest)) =
        .ok (4 * item.data.length, body ++ rest) := by
    cases hinclude : includeSize itemSizes item with
    | false =>
      have hstatic := hsizes.static item hitem hinclude
      rw [includeSize, Bool.or_eq_false_iff, decide_eq_false_iff_not, decide_eq_false_iff_not] at hinclude
      rw [if_neg (by simp), List.nil_append, readSize.eq_def, if_pos ⟨not_le.1 hinclude.1, hinclude.2⟩, hstatic]
    | true =>
      have hnot : ¬ (item.type < maxNetobjSizes ∧ itemSizes item.type ≠ 0) := by
        rw [includeSize, Bool.or_eq_true, decide_eq_true_eq, decide_eq_true_eq] at hinclude
        rintro ⟨hlow, hzero⟩
        exact hinclude.elim (not_le.2 hlow) hzero
      have hint : (BitVec.ofNat 32 item.data.length).toInt = item.data.length := by
        rw [BitVec.toInt_ofNat', Int.bmod_eq_of_le (by omega) (by omega)]
      rw [if_pos rfl, List.singleton_append, readSize, if_neg hnot, hint, if_neg (by omega)]
  obtain ⟨hfalse, hbodyTake, hrestDrop⟩ := htake _ rfl
  rw [recordHead, List.append_assoc, List.append_assoc, List.cons_append, List.cons_append, List.nil_append, readUpdate]
  rw [htypeInt, hidInt, if_neg (by omega), if_neg (by rw [maxId]; omega), hread]
  dsimp only
  rw [hbodyTake, hrestDrop, if_neg (by rw [hfalse]; exact id)]

/-- The key of the record of an item is the key of the item. -/
lemma key_update (hnew : Keyed new) (hitem : item ∈ new) (body : List (BitVec 32)) :
    (⟨item.type, item.id, body⟩ : Update).key = item.key :=
  (fitsKey_of_type_nonneg (hnew.type_nonneg item hitem)).2

/-- An item of the new snapshot has no record if it has not changed; else its record unpacks to what is delivered. -/
lemma updateRecord_cases (hold : Keyed old) (hnew : Keyed new) (hsizes : SameSizes itemSizes old new)
    (hitem : item ∈ new) :
    updateRecord itemSizes (pastItem old item.key) item = none ∧ item ∈ old ∧
        delivered old new item = (if Hashed new item.key then some item else none) ∨
      ∃ body data, updateRecord itemSizes (pastItem old item.key) item = some (recordHead itemSizes item ++ body) ∧
        body.length = item.data.length ∧ data.length = item.data.length ∧
        unpackData old ⟨item.type, item.id, body⟩ = some data ∧
        delivered old new item = some ⟨item.typeAndId, data⟩ := by
  by_cases hpast : ∀ past ∈ old, past.key ≠ item.key
  · refine .inr ⟨item.data, item.data, ?_, rfl, rfl, ?_, ?_⟩
    · rw [pastItem_eq_none hpast]
      rfl
    · rw [unpackData, key_update hnew hitem, getItemIndex_eq_none hpast]
    · rw [delivered, find_eq_none hpast]
  simp only [not_forall, not_not] at hpast
  obtain ⟨past, hmem, hkey⟩ := hpast
  have hlength := hsizes.agree past hmem item hitem hkey
  obtain ⟨index, hindex, hfound⟩ := getItemIndex_of_mem hold.nodup hmem
  rw [hkey] at hfound
  have hunpack : ∀ body : List (BitVec 32), body.length = item.data.length →
      unpackData old ⟨item.type, item.id, body⟩ = some (undiffItem past.data body) := by
    intro body hbody
    rw [unpackData, key_update hnew hitem, hfound]
    dsimp only
    rw [getItem_of_getElem? hindex, if_pos (by rw [hbody, hlength])]
  rw [pastItem_eq hold.nodup hmem hkey, delivered, find_eq_some hold hmem hkey]
  by_cases hhashed : Hashed old item.key
  · simp only [if_pos hhashed, updateRecord]
    by_cases hsame : past.data = item.data
    · obtain rfl : past = item := by
        cases past
        cases item
        exact congrArg₂ _ hkey hsame
      refine .inl ⟨if_pos ((diffItem_eq_zero_iff rfl).2 rfl), hmem, ?_⟩
      split_ifs with hlost hnewHashed hnewHashed
      · exact absurd hnewHashed hlost.2
      · rfl
      · rfl
      · exact absurd ⟨rfl, hnewHashed⟩ hlost
    · refine .inr ⟨diffItem past.data item.data, item.data, ?_, length_diffItem hlength, rfl, ?_, ?_⟩
      · rw [if_neg fun hzero => hsame ((diffItem_eq_zero_iff hlength).1 hzero)]
      · rw [hunpack _ (length_diffItem hlength), undiffItem_diffItem hlength]
      · rw [if_neg fun hlost => hsame hlost.1]
  · simp only [if_neg hhashed]
    exact .inr ⟨item.data, undiffItem past.data item.data, rfl, rfl, length_undiffItem hlength, hunpack _ rfl, rfl⟩

end Record

/-! ### The builder during unpacking -/

section Builder

variable {itemSizes} {old held new done todo : CSnapshot} {item x y : CSnapshotItem} {b : CSnapshotBuilder}

variable (old new done b) in
/-- What the builder has when the records of some items have been applied: what is delivered for these items, and the
other items of the old snapshot that are not deleted. -/
structure Unpacked : Prop where
  sixup : b.sixup = false
  nodup : (b.items.map CSnapshotItem.key).Nodup
  mem : ∀ x, x ∈ b.items ↔
    (∃ item ∈ done, delivered old new item = some x) ∨
      x ∈ old ∧ Hashed new x.key ∧ ∀ item ∈ done, item.key ≠ x.key

lemma Unpacked.embed (h : Unpacked old new done b) (hsizes : SameSizes itemSizes old new) (hdone : done ⊆ new) :
    ∀ x ∈ b.items, ∃ item ∈ new, item.key = x.key ∧ item.data.length = x.data.length := by
  intro x hx
  rcases (h.mem x).1 hx with ⟨item, hitem, hdelivered⟩ | ⟨hmem, hhashed, -⟩
  · obtain ⟨hkey, hlength⟩ := delivered_shape itemSizes hsizes (hdone hitem) hdelivered
    exact ⟨item, hdone hitem, hkey.symm, hlength.symm⟩
  · obtain ⟨item, hitem, hkey⟩ := hhashed.mem
    exact ⟨item, hitem, hkey, (hsizes.agree x hmem item hitem hkey.symm).symm⟩

/-- The items that are not deleted are kept. -/
lemma foldlM_keepItem (hold : Keyed old) (hnew : Keyed new) (hsizes : SameSizes itemSizes old new)
    (hheld : held.Perm old) :
    ∀ rest kept : CSnapshot, held = kept ++ rest →
      rest.foldlM (keepItem (deletedItems old new)) ⟨kept.filter fun x => Hashed new x.key, [], false⟩ =
        some ⟨held.filter fun x => Hashed new x.key, [], false⟩ := by
  have hnodup : (held.map CSnapshotItem.key).Nodup := (hheld.map _).nodup_iff.2 hold.nodup
  intro rest
  induction rest with
  | nil =>
    rintro kept rfl
    rw [List.append_nil]
    rfl
  | cons item rest ih =>
    intro kept hsplit
    have hitem : item ∈ old := hheld.subset (hsplit ▸ List.mem_append_right kept List.mem_cons_self)
    have hnext := ih (kept ++ [item]) (by rw [hsplit, List.append_assoc, List.singleton_append])
    rw [List.filter_append] at hnext
    rw [List.foldlM_cons, keepItem]
    by_cases hhashed : Hashed new item.key
    · have hkept : kept.filter (fun x => Hashed new x.key) ++ [item] =
          (kept ++ [item]).filter fun x => Hashed new x.key := by
        rw [List.filter_append, List.filter_cons_of_pos (by simpa using hhashed), List.filter_nil]
      have hsub : ((kept ++ [item]).filter fun x => Hashed new x.key).Sublist held := by
        rw [hsplit, List.append_cons kept item rest]
        exact List.filter_sublist.trans (List.sublist_append_left _ _)
      have htake := newPlainItem_of_embed (b := ⟨kept.filter fun x => Hashed new x.key, [], false⟩) hnew rfl
        (hold.type_nonneg item hitem) (by rw [hkept]; exact hnodup.sublist (hsub.map _)) (by
          rw [hkept]
          intro x hx
          obtain ⟨other, hother, hkey⟩ := Hashed.mem (of_decide_eq_true (List.mem_filter.1 hx).2)
          exact ⟨other, hother, hkey, (hsizes.agree x (hheld.subset (hsub.subset hx)) other hother hkey.symm).symm⟩)
      rw [if_neg fun hdeleted => (mem_deletedItems.1 hdeleted).2 hhashed, htake]
      rw [List.filter_cons_of_pos (by simpa using hhashed), List.filter_nil] at hnext
      exact hnext
    · rw [if_pos (mem_deletedItems.2 ⟨⟨item, hitem, rfl⟩, hhashed⟩)]
      rw [List.filter_cons_of_neg (by simpa using hhashed), List.filter_nil, List.append_nil] at hnext
      exact hnext

lemma unpacked_nil (hold : Keyed old) (hheld : held.Perm old) :
    Unpacked old new [] ⟨held.filter fun x => Hashed new x.key, [], false⟩ where
  sixup := rfl
  nodup := ((hheld.map _).nodup_iff.2 hold.nodup).sublist (List.filter_sublist.map _)
  mem x := by simp [List.mem_filter, hheld.mem_iff]

/-- The order of the old items does not matter. -/
lemma unpackData_perm (hold : Keyed old) (hheld : held.Perm old) (u : Update) :
    unpackData held u = unpackData old u := by
  have hnodup : (held.map CSnapshotItem.key).Nodup := (hheld.map _).nodup_iff.2 hold.nodup
  rw [unpackData, unpackData]
  rcases getItemIndex_cases held u.key with ⟨index, item, hindex, hitem, hkey⟩ | ⟨hnone, hfresh⟩
  · obtain ⟨index', hitem', hindex'⟩ := getItemIndex_of_mem hold.nodup (hheld.subset (List.mem_of_getElem? hitem))
    rw [hkey] at hindex'
    rw [hindex, hindex']
    dsimp only
    rw [getItem_of_getElem? hitem, getItem_of_getElem? hitem']
  · rw [hnone, getItemIndex_eq_none fun item hitem => hfresh item (hheld.symm.subset hitem)]

lemma mem_set_iff {s : CSnapshot} {index : ℕ} (hnodup : (s.map CSnapshotItem.key).Nodup) (hindex : s[index]? = some y)
    (z : CSnapshotItem) : x ∈ s.set index z ↔ x = z ∨ x ∈ s ∧ x.key ≠ y.key := by
  obtain ⟨hlt, hy⟩ := List.getElem?_eq_some_iff.1 hindex
  have hsplit : s = s.take index ++ y :: s.drop (index + 1) := by
    rw [← hy, ← List.drop_eq_getElem_cons hlt, List.take_append_drop]
  have hset : s.set index z = s.take index ++ z :: s.drop (index + 1) :=
    List.set_eq_take_append_cons_drop.trans (if_pos hlt)
  have hother : ∀ x ∈ s.take index ++ s.drop (index + 1), x.key ≠ y.key := by
    rw [hsplit, List.map_append, List.map_cons, List.nodup_middle, ← List.map_append, List.nodup_cons] at hnodup
    exact fun x hx hkey => hnodup.1 (hkey ▸ List.mem_map_of_mem hx)
  rw [hset, List.mem_append, List.mem_cons]
  conv_rhs => rw [hsplit]
  rw [List.mem_append, List.mem_cons]
  simp only [List.mem_append] at hother
  constructor
  · rintro (hx | rfl | hx)
    · exact .inr ⟨.inl hx, hother x (.inl hx)⟩
    · exact .inl rfl
    · exact .inr ⟨.inr (.inr hx), hother x (.inr hx)⟩
  · rintro (rfl | ⟨hx | rfl | hx, hkey⟩)
    · exact .inr (.inl rfl)
    · exact .inl hx
    · exact absurd rfl hkey
    · exact .inr (.inr hx)

/-- The receiver finds an item with the key or makes one, of the size of the record. -/
lemma Unpacked.makeItem (h : Unpacked old new done b) (hnew : Keyed new)
    (hsizes : SameSizes itemSizes old new) (hsplit : new = done ++ item :: todo) {body : List (BitVec 32)}
    (hbody : body.length = item.data.length) :
    ∃ b' index y, CSnapshotDelta.makeItem b ⟨item.type, item.id, body⟩ = some (b', index) ∧
      b'.items[index]? = some y ∧ y.key = item.key ∧ y.data.length = item.data.length ∧ b'.sixup = false ∧
      (b'.items.map CSnapshotItem.key).Nodup ∧ ∀ x, x.key ≠ item.key → (x ∈ b'.items ↔ x ∈ b.items) := by
  have hitem : item ∈ new := hsplit ▸ List.mem_append_right done List.mem_cons_self
  have hdone : done ⊆ new := hsplit ▸ List.subset_append_left done _
  have hembed := h.embed hsizes hdone
  rw [CSnapshotDelta.makeItem, key_update hnew hitem]
  rcases getItemIndex_cases b.items item.key with ⟨index, y, hindex, hy, hkey⟩ | ⟨hindex, hfresh⟩
  · rw [hindex]
    refine ⟨b, index, y, rfl, hy, hkey, ?_, h.sixup, h.nodup, fun _ _ => Iff.rfl⟩
    obtain ⟨other, hother, hkey', hlength⟩ := hembed y (List.mem_of_getElem? hy)
    rw [← hlength, List.inj_on_of_nodup_map hnew.nodup hother hitem (hkey'.trans hkey)]
  · rw [hindex]
    set zeros : CSnapshotItem := ⟨item.typeAndId, List.replicate body.length 0⟩
    have hzeros : zeros.data.length = item.data.length := by
      rw [List.length_replicate, hbody]
    have hnodup : ((b.items ++ [zeros]).map CSnapshotItem.key).Nodup := by
      rw [List.map_append, List.map_singleton, ← List.concat_eq_append]
      refine List.Nodup.concat (fun hmem => ?_) h.nodup
      obtain ⟨x, hx, hkey⟩ := List.mem_map.1 hmem
      exact hfresh x hx hkey
    have hmake := newPlainItem_of_embed hnew h.sixup (show 0 ≤ zeros.type from hnew.type_nonneg item hitem) hnodup (by
      intro x hx
      rcases List.mem_append.1 hx with hx | hx
      · exact hembed x hx
      · rw [List.mem_singleton.1 hx]
        exact ⟨item, hitem, rfl, hzeros.symm⟩)
    refine ⟨_, b.items.length, zeros, Option.map_eq_some_iff.2 ⟨_, hmake, rfl⟩, List.getElem?_concat_length, rfl, hzeros,
      h.sixup, hnodup, fun x hx => ?_⟩
    rw [List.mem_append, List.mem_singleton, or_iff_left]
    rintro rfl
    exact hx rfl

/-- The record of an item is applied. -/
lemma Unpacked.applyUpdate (h : Unpacked old new done b) (hold : Keyed old) (hnew : Keyed new)
    (hsizes : SameSizes itemSizes old new) (hheld : held.Perm old) (hsplit : new = done ++ item :: todo)
    {body data : List (BitVec 32)}
    (hbody : body.length = item.data.length) (hdata : data.length = item.data.length)
    (hunpack : unpackData old ⟨item.type, item.id, body⟩ = some data)
    (hdelivered : delivered old new item = some ⟨item.typeAndId, data⟩) :
    ∃ b', CSnapshotDelta.applyUpdate held b ⟨item.type, item.id, body⟩ = some (.ok b') ∧
      Unpacked old new (done ++ [item]) b' := by
  obtain ⟨b', index, y, hmake, hy, hkey, hlength, hsixup, hnodup, hmem⟩ := h.makeItem hnew hsizes hsplit hbody
  have hfresh : ∀ other ∈ done, other.key ≠ item.key := by
    have hkeys := hnew.nodup
    rw [hsplit, List.map_append, List.map_cons, List.nodup_middle, List.nodup_cons, List.mem_append] at hkeys
    exact fun other hother hkey => hkeys.1 (.inl (hkey ▸ List.mem_map_of_mem hother))
  have hdone : done ⊆ new := hsplit ▸ List.subset_append_left done _
  have hwritten : ({ y with data := data ++ y.data.drop data.length } : CSnapshotItem) = ⟨item.typeAndId, data⟩ := by
    rw [hdata, ← hlength, List.drop_length, List.append_nil]
    exact congrArg (CSnapshotItem.mk · data) hkey
  refine ⟨{ b' with items := b'.items.set index ⟨item.typeAndId, data⟩ }, ?_, hsixup, ?_, fun x => ?_⟩
  · rw [CSnapshotDelta.applyUpdate, hmake]
    dsimp only
    rw [unpackData_perm hold hheld, hunpack, Option.bind_some, writeItem, getItem_of_getElem? hy,
      if_pos (by rw [hdata, hlength]), hwritten]
    rfl
  · have hkeys : (b'.items.set index ⟨item.typeAndId, data⟩).map CSnapshotItem.key = b'.items.map CSnapshotItem.key := by
      rw [List.map_set]
      obtain ⟨hlt, rfl⟩ := List.getElem?_eq_some_iff.1 hy
      refine (congrArg (List.set _ index) (hkey.symm : item.typeAndId = _)).trans ?_
      rw [← List.getElem_map CSnapshotItem.key (h := by simpa using hlt), List.set_getElem_self]
    rw [hkeys]
    exact hnodup
  · rw [mem_set_iff hnodup hy, hkey]
    have hrest : x ∈ b'.items ∧ x.key ≠ item.key ↔ x ∈ b.items ∧ x.key ≠ item.key :=
      and_congr_left fun hne => hmem x hne
    rw [hrest, h.mem x]
    constructor
    · rintro (rfl | ⟨⟨other, hother, hx⟩ | ⟨hx, hhashed, hnone⟩, hne⟩)
      · exact .inl ⟨item, by simp, hdelivered⟩
      · exact .inl ⟨other, List.mem_append_left _ hother, hx⟩
      · refine .inr ⟨hx, hhashed, fun other hother => ?_⟩
        rcases List.mem_append.1 hother with hother | hother
        · exact hnone other hother
        · rw [List.mem_singleton.1 hother]
          exact hne.symm
    · rintro (⟨other, hother, hx⟩ | ⟨hx, hhashed, hnone⟩)
      · rcases List.mem_append.1 hother with hother | hother
        · refine .inr ⟨.inl ⟨other, hother, hx⟩, ?_⟩
          rw [(delivered_shape itemSizes hsizes (hdone hother) hx).1]
          exact hfresh other hother
        · rw [List.mem_singleton.1 hother, hdelivered] at hx
          exact .inl (Option.some.inj hx).symm
      · exact .inr ⟨.inr ⟨hx, hhashed, fun other hother => hnone other (List.mem_append_left _ hother)⟩,
          (hnone item (by simp)).symm⟩

/-- An item without a record stays as it is. -/
lemma Unpacked.unchanged (h : Unpacked old new done b) (hold : Keyed old) (hnew : Keyed new)
    (hsplit : new = done ++ item :: todo) (hitem : item ∈ old)
    (hdelivered : delivered old new item = if Hashed new item.key then some item else none) :
    Unpacked old new (done ++ [item]) b where
  sixup := h.sixup
  nodup := h.nodup
  mem x := by
    have hfresh : ∀ other ∈ done, other.key ≠ item.key := by
      have hkeys := hnew.nodup
      rw [hsplit, List.map_append, List.map_cons, List.nodup_middle, List.nodup_cons, List.mem_append] at hkeys
      exact fun other hother hkey => hkeys.1 (.inl (hkey ▸ List.mem_map_of_mem hother))
    rw [h.mem x]
    constructor
    · rintro (⟨other, hother, hx⟩ | ⟨hx, hhashed, hnone⟩)
      · exact .inl ⟨other, List.mem_append_left _ hother, hx⟩
      · by_cases hkey : item.key = x.key
        · obtain rfl := List.inj_on_of_nodup_map hold.nodup hitem hx hkey
          exact .inl ⟨item, by simp, by rw [hdelivered, if_pos hhashed]⟩
        · refine .inr ⟨hx, hhashed, fun other hother => ?_⟩
          rcases List.mem_append.1 hother with hother | hother
          · exact hnone other hother
          · rwa [List.mem_singleton.1 hother]
    · rintro (⟨other, hother, hx⟩ | ⟨hx, hhashed, hnone⟩)
      · rcases List.mem_append.1 hother with hother | hother
        · exact .inl ⟨other, hother, hx⟩
        · rw [List.mem_singleton.1 hother, hdelivered] at hx
          split_ifs at hx with hhashed
          obtain rfl := Option.some.inj hx
          exact .inr ⟨hitem, hhashed, hfresh⟩
      · exact .inr ⟨hx, hhashed, fun other hother => hnone other (List.mem_append_left _ hother)⟩

/-- The records are applied one after the other. -/
lemma Unpacked.unpackUpdates (hold : Keyed old) (hnew : Keyed new) (hsizes : SameSizes itemSizes old new)
    (hheld : held.Perm old) (h : Unpacked old new done b) (hsplit : new = done ++ todo) :
    ∃ b', CSnapshotDelta.unpackUpdates itemSizes held (updateRecords itemSizes old todo).length b
        (updateRecords itemSizes old todo).flatten = some (.ok b') ∧ Unpacked old new new b' := by
  induction todo generalizing done b with
  | nil =>
    rw [List.append_nil] at hsplit
    exact ⟨b, rfl, hsplit ▸ h⟩
  | cons item todo ih =>
    have hitem : item ∈ new := hsplit ▸ List.mem_append_right done List.mem_cons_self
    have hnext : new = (done ++ [item]) ++ todo := by rw [hsplit, List.append_assoc, List.singleton_append]
    rcases updateRecord_cases hold hnew hsizes hitem with
      ⟨hrecord, hmem, hdelivered⟩ | ⟨body, data, hrecord, hbody, hdata, hunpack, hdelivered⟩
    · have hrecords : updateRecords itemSizes old (item :: todo) = updateRecords itemSizes old todo :=
        List.filterMap_cons_none hrecord
      rw [hrecords]
      exact ih (h.unchanged hold hnew hsplit hmem hdelivered) hnext
    · obtain ⟨b', happly, hb'⟩ := h.applyUpdate hold hnew hsizes hheld hsplit hbody hdata hunpack hdelivered
      have hrecords : updateRecords itemSizes old (item :: todo) =
          (recordHead itemSizes item ++ body) :: updateRecords itemSizes old todo := List.filterMap_cons_some hrecord
      rw [hrecords, List.length_cons, List.flatten_cons, CSnapshotDelta.unpackUpdates,
        readUpdate_record hnew hsizes hitem hbody]
      dsimp only
      rw [happly, Option.bind_some]
      exact ih hb' hnext

end Builder

/-! ### The round trip -/

section RoundTrip

variable {itemSizes} {old held new : CSnapshot}

/-- If there is no delta, nothing has changed. -/
lemma perm_of_createDelta_eq_none (hold : Keyed old) (hnew : Keyed new) (hsizes : SameSizes itemSizes old new)
    (h : createDelta itemSizes old new = none) : old.Perm new := by
  have hnone : deletedItems old new = [] ∧ updateRecords itemSizes old new = [] := by
    rw [createDelta] at h
    split_ifs at h with hnone
    exact hnone
  obtain ⟨hdeleted, hrecords⟩ := hnone
  have hsame : ∀ item ∈ new, item ∈ old := by
    intro item hitem
    have hrecord := List.forall_none_of_filterMap_eq_nil hrecords item hitem
    rcases updateRecord_cases hold hnew hsizes hitem with ⟨-, hmem, -⟩ | ⟨body, data, hsome, -⟩
    · exact hmem
    · exact absurd (hrecord.symm.trans hsome) (Option.some_ne_none _).symm
  rw [List.perm_ext_iff_of_nodup hold.nodup.of_map hnew.nodup.of_map]
  refine fun x => ⟨fun hx => ?_, hsame x⟩
  have hhashed : Hashed new x.key := by
    by_contra hnot
    have hmem := mem_deletedItems.2 ⟨⟨x, hx, rfl⟩, hnot⟩
    rw [hdeleted] at hmem
    exact absurd hmem List.not_mem_nil
  obtain ⟨item, hitem, hkey⟩ := hhashed.mem
  rwa [← List.inj_on_of_nodup_map hold.nodup (hsame item hitem) hx hkey]

/-- A delta is always unpacked, to what is delivered for the items of the new snapshot. -/
lemma unpackDelta_createDelta (hold : Keyed old) (hnew : Keyed new) (hsizes : SameSizes itemSizes old new)
    (hheld : held.Perm old) {delta : List (BitVec 32)} (h : createDelta itemSizes old new = some delta) :
    ∃ out : CSnapshot, unpackDelta itemSizes held delta = some (.ok out) ∧ (out.map CSnapshotItem.key).Nodup ∧
      ∀ x, x ∈ out ↔ ∃ item ∈ new, delivered old new item = some x := by
  have hdelta : delta = [BitVec.ofNat 32 (deletedItems old new).length,
      BitVec.ofNat 32 (updateRecords itemSizes old new).length, 0] ++ deletedItems old new ++
        (updateRecords itemSizes old new).flatten := by
    rw [createDelta] at h
    split_ifs at h
    exact (Option.some.inj h).symm
  have hint : ∀ n ≤ maxItems, (BitVec.ofNat 32 n).toInt = n := by
    intro n hn
    rw [maxItems] at hn
    rw [BitVec.toInt_ofNat', Int.bmod_eq_of_le (by omega) (by omega)]
  have hnumDeleted : (deletedItems old new).length ≤ maxItems := by
    refine le_trans (List.length_filter_le _ _) ?_
    rw [List.length_map]
    exact hold.length_le
  have hnumUpdate : (updateRecords itemSizes old new).length ≤ maxItems :=
    (List.length_filterMap_le _ _).trans hnew.length_le
  have hkept := foldlM_keepItem hold hnew hsizes hheld held [] rfl
  obtain ⟨b, hupdates, hb⟩ :=
    Unpacked.unpackUpdates hold hnew hsizes hheld (unpacked_nil hold hheld) (List.nil_append new).symm
  have hmem : ∀ x, x ∈ b.items ↔ ∃ item ∈ new, delivered old new item = some x := by
    intro x
    rw [hb.mem x, or_iff_left]
    rintro ⟨-, hhashed, hnone⟩
    obtain ⟨item, hitem, hkey⟩ := hhashed.mem
    exact hnone item hitem hkey
  obtain ⟨hlength, hsize⟩ := sizes_le hb.nodup (hb.embed hsizes fun _ => id)
  refine ⟨b.items, ?_, hb.nodup, hmem⟩
  rw [hdelta, List.append_assoc, List.cons_append, List.cons_append, List.cons_append, List.nil_append, unpackDelta,
    hint _ hnumDeleted, hint _ hnumUpdate, if_neg (by omega),
    if_neg (by rw [List.length_append]; omega), Int.toNat_natCast, Int.toNat_natCast, List.take_left, List.drop_left]
  rw [List.filter_nil] at hkept
  rw [show CSnapshotBuilder.new = ⟨[], [], false⟩ from rfl, hkept]
  dsimp only
  rw [hupdates, Option.bind_some]
  dsimp only
  rw [CSnapshotBuilder.finish, if_pos ⟨hlength.trans hnew.length_le, hsize.trans hnew.totalSize_le⟩]
  rfl

/-- The receiver has the new snapshot if and only if none of its items gets lost. -/
lemma unpackDelta_perm_iff (hold : Keyed old) (hnew : Keyed new) (hsizes : SameSizes itemSizes old new)
    (hheld : held.Perm old) {delta : List (BitVec 32)} (hdelta : createDelta itemSizes old new = some delta) :
    ∃ out : CSnapshot, unpackDelta itemSizes held delta = some (.ok out) ∧ (out.Perm new ↔ Survives old new) := by
  obtain ⟨out, hunpack, hnodup, hmem⟩ := unpackDelta_createDelta hold hnew hsizes hheld hdelta
  refine ⟨out, hunpack, ?_⟩
  have hiff : Survives old new ↔ ∀ item ∈ new, delivered old new item = some item := by
    constructor
    · intro hsurvives item hitem
      exact (delivered_eq_some_iff itemSizes hold hsizes hitem).2 fun past hpast => hsurvives past hpast item hitem
    · intro hall past hpast item hitem
      exact (delivered_eq_some_iff itemSizes hold hsizes hitem).1 (hall item hitem) past hpast
  rw [hiff, List.perm_ext_iff_of_nodup hnodup.of_map hnew.nodup.of_map]
  constructor
  · intro hout item hitem
    obtain ⟨other, hother, hdelivered⟩ := (hmem item).1 ((hout item).2 hitem)
    have hkey := (delivered_shape itemSizes hsizes hother hdelivered).1
    rwa [← List.inj_on_of_nodup_map hnew.nodup hitem hother hkey] at hdelivered
  · intro hall x
    rw [hmem x]
    constructor
    · rintro ⟨item, hitem, hdelivered⟩
      rw [hall item hitem] at hdelivered
      exact Option.some.inj hdelivered ▸ hitem
    · exact fun hx => ⟨x, hx, hall x hx⟩

/-- Without a delta the snapshots are the same.  A delta is always accepted by a receiver that holds the old snapshot in
some order, and the receiver has the new one, up to the order of its items, if and only if none of them gets lost. -/
theorem unpackDelta_iff (hold : Keyed old) (hnew : Keyed new) (hsizes : SameSizes itemSizes old new)
    (hheld : held.Perm old) :
    (createDelta itemSizes old new = none → held.Perm new) ∧
      ∀ delta, createDelta itemSizes old new = some delta →
        ∃ out, unpackDelta itemSizes held delta = some (.ok out) ∧ (out.Perm new ↔ Survives old new) :=
  ⟨fun hnone => hheld.trans (perm_of_createDelta_eq_none hold hnew hsizes hnone),
    fun _ hdelta => unpackDelta_perm_iff hold hnew hsizes hheld hdelta⟩

/-- The empty delta changes nothing. -/
lemma unpackDelta_empty {s : CSnapshot} (h : Keyed s) : unpackDelta itemSizes s [0, 0, 0] = some (.ok s) := by
  have hkeep : ∀ (rest kept : CSnapshot), s = kept ++ rest →
      rest.foldlM (keepItem []) ⟨kept, [], false⟩ = some ⟨s, [], false⟩ := by
    intro rest
    induction rest with
    | nil =>
      intro kept hsplit
      rw [hsplit, List.append_nil]
      rfl
    | cons item rest ih =>
      intro kept hsplit
      have hnext : s = (kept ++ [item]) ++ rest := by rw [hsplit, List.append_assoc, List.singleton_append]
      have hsub : (kept ++ [item]).Sublist s := hnext ▸ List.sublist_append_left _ _
      have htake := newPlainItem_of_embed (b := ⟨kept, [], false⟩) h rfl
        (h.type_nonneg item (hsplit ▸ List.mem_append_right kept List.mem_cons_self)) (h.nodup.sublist (hsub.map _))
        fun x hx => ⟨x, hsub.subset hx, rfl, rfl⟩
      rw [List.foldlM_cons, keepItem, if_neg List.not_mem_nil, htake]
      exact ih (kept ++ [item]) hnext
  rw [unpackDelta, if_neg (by decide), if_neg (by decide)]
  have hall := hkeep s [] rfl
  rw [show CSnapshotBuilder.new = ⟨[], [], false⟩ from rfl, show (0 : BitVec 32).toInt.toNat = 0 from rfl, List.take_zero,
    hall]
  dsimp only
  rw [unpackUpdates, Option.bind_some]
  dsimp only
  rw [CSnapshotBuilder.finish, if_pos ⟨h.length_le, h.totalSize_le⟩]
  rfl

/-- Nothing gets lost if no bucket of a hash list overflows. -/
theorem survives_of_uncrowded
    (hold : ∀ hash, (old.filter fun item => calcHashId item.key = hash).length ≤ hashlistBucketSize)
    (hnew : ∀ hash, (new.filter fun item => calcHashId item.key = hash).length ≤ hashlistBucketSize) :
    Survives old new := by
  rintro past hpast item hitem hkey
  exact ⟨fun _ _ => hashed_of_uncrowded hnew hitem,
    fun hnot => absurd (hkey ▸ hashed_of_uncrowded hold hpast) hnot⟩

end RoundTrip

/-- Two items of the old sample, one of a type with a static size. -/
def sampleOld : CSnapshot := [⟨keyOf 1 5, [1, 2]⟩, ⟨keyOf 2 0, [7]⟩]

/-- In the new sample one item has changed, one is new, and one is gone. -/
def sampleNew : CSnapshot := [⟨keyOf 3 1, [4]⟩, ⟨keyOf 2 0, [9]⟩]

/-- Items of type 2 have one int. -/
def sampleSizes (type : ℤ) : ℤ := if type = 2 then 4 else 0

theorem unpackDelta_iff_sample :
    (createDelta sampleSizes sampleOld sampleNew = none → sampleOld.reverse.Perm sampleNew) ∧
      ∀ delta, createDelta sampleSizes sampleOld sampleNew = some delta →
        ∃ out, unpackDelta sampleSizes sampleOld.reverse delta = some (.ok out) ∧
          (out.Perm sampleNew ↔ Survives sampleOld sampleNew) := by
  refine unpackDelta_iff ⟨by decide, ?_, by decide, by decide⟩ ⟨by decide, ?_, by decide, by decide⟩ ⟨?_, ?_⟩
    (List.reverse_perm sampleOld)
  · simp only [sampleOld, List.forall_mem_cons]
    decide
  · simp only [sampleNew, List.forall_mem_cons]
    decide
  · simp only [sampleOld, sampleNew, List.forall_mem_cons]
    decide
  · simp only [sampleNew, List.forall_mem_cons]
    decide

/-! ### Deltas of any origin -/

/-- The records that are read of a delta until the first error. -/
def readUpdates : ℕ → List (BitVec 32) → List Update
  | 0, _ => []
  | n + 1, data =>
    match readUpdate itemSizes data with
    | .error _ => []
    | .ok (u, data) => u :: readUpdates n data

/-- The keys that a delta deletes. -/
def deletedOf : List (BitVec 32) → List (BitVec 32)
  | numDeletedItems :: _ :: _ :: data => data.take numDeletedItems.toInt.toNat
  | _ => []

/-- The records of a delta. -/
def recordsOf : List (BitVec 32) → List Update
  | numDeletedItems :: numUpdateItems :: _ :: data =>
    readUpdates itemSizes numUpdateItems.toInt.toNat (data.drop numDeletedItems.toInt.toNat)
  | _ => []

section Hostile

variable {itemSizes sixToSeven : ℤ → ℤ} {old : CSnapshot} {b b' : CSnapshotBuilder} {u : Update}
  {x y : CSnapshotItem} {index : ℕ}

/-- What holds of the builder all the time. -/
structure Sound (b : CSnapshotBuilder) : Prop where
  sixup : b.sixup = false
  nodup : (b.items.map CSnapshotItem.key).Nodup
  fits : CSnapshotBuilder.Fits b

/-- Room for an update in each item that it may be written to. -/
def RoomFor (b : CSnapshotBuilder) (u : Update) : Prop := ∀ y ∈ b.items, y.key = u.key → u.data.length ≤ y.data.length

lemma Sound.push (h : Sound b) {type id : ℤ} {data : List (BitVec 32)} (hfresh : ∀ x ∈ b.items, x.key ≠ keyOf type id)
    (hmake : newPlainItem sixToSeven b type id data = some b') :
    b'.items = b.items ++ [⟨keyOf type id, data⟩] ∧ Sound b' := by
  have heq := newPlainItem_eq h.sixup hmake
  have hitems : b'.items = b.items ++ [⟨keyOf type id, data⟩] := by
    rw [heq, push_items]
  refine ⟨hitems, ?_, ?_, Fits.newPlainItem hmake h.sixup⟩
  · rw [heq]
    exact h.sixup
  · rw [hitems, List.map_append, List.map_singleton, ← List.concat_eq_append]
    refine List.Nodup.concat (fun hmem => ?_) h.nodup
    obtain ⟨x, hx, hkey⟩ := List.mem_map.1 hmem
    exact hfresh x hx hkey

/-- The item of a record is one of the builder, or a new one of the size of the record. -/
lemma Sound.makeItem (h : Sound b) (hmake : makeItem b u = some (b', index)) :
    Sound b' ∧ ∃ y, b'.items[index]? = some y ∧ y.key = u.key ∧ (∀ x ∈ b.items, x ∈ b'.items) ∧
      ∀ x ∈ b'.items, x ∈ b.items ∨ x.key = u.key ∧ x.data.length = u.data.length := by
  rw [CSnapshotDelta.makeItem] at hmake
  rcases getItemIndex_cases b.items u.key with ⟨found, y, hfound, hy, hkey⟩ | ⟨hnone, hfresh⟩
  · rw [hfound] at hmake
    obtain ⟨rfl, rfl⟩ := Prod.mk.inj (Option.some.inj hmake)
    exact ⟨h, y, hy, hkey, fun x hx => hx, fun x hx => .inl hx⟩
  · rw [hnone] at hmake
    obtain ⟨b'', hnew, heq⟩ := Option.map_eq_some_iff.1 hmake
    obtain ⟨rfl, rfl⟩ := Prod.mk.inj heq
    obtain ⟨hitems, hsound⟩ := h.push hfresh hnew
    refine ⟨hsound, _, by rw [hitems]; exact List.getElem?_concat_length, rfl, fun x hx => ?_, fun x hx => ?_⟩
    · rw [hitems]
      exact List.mem_append_left _ hx
    · rw [hitems] at hx
      rcases List.mem_append.1 hx with hx | hx
      · exact .inl hx
      · rw [List.mem_singleton.1 hx]
        exact .inr ⟨rfl, List.length_replicate⟩

/-- Writing leaves all keys and sizes as they are. -/
lemma Sound.writeItem (h : Sound b) {data : List (BitVec 32)} (hy : b.items[index]? = some y)
    (hwrite : writeItem b index data = some b') :
    Sound b' ∧ (∀ x ∈ b.items, x.key ≠ y.key → x ∈ b'.items) ∧
      ∀ x ∈ b'.items, ∃ z ∈ b.items, z.key = x.key ∧ z.data.length = x.data.length := by
  obtain ⟨hlt, hget⟩ := List.getElem?_eq_some_iff.1 hy
  rw [CSnapshotDelta.writeItem, getItem_of_getElem? hy] at hwrite
  split_ifs at hwrite with hle
  obtain rfl := Option.some.inj hwrite
  set z : CSnapshotItem := { y with data := data ++ y.data.drop data.length }
  have hlength : z.data.length = y.data.length := by
    rw [List.length_append, List.length_drop]
    omega
  have hmap : ∀ {β : Type} (f : CSnapshotItem → β), f z = f y → (b.items.set index z).map f = b.items.map f := by
    intro β f hf
    rw [List.map_set, hf, ← hget, ← List.getElem_map f (h := by simpa using hlt), List.set_getElem_self]
  have hsizes : dataSize (b.items.set index z) = dataSize b.items :=
    congrArg List.sum (hmap CSnapshotItem.size (by rw [CSnapshotItem.size, CSnapshotItem.size, hlength]))
  refine ⟨⟨h.sixup, ?_, ?_, ?_⟩, fun x hx hkey => (mem_set_iff h.nodup hy z).2 (.inr ⟨hx, hkey⟩), fun x hx => ?_⟩
  · show ((b.items.set index z).map CSnapshotItem.key).Nodup
    rw [hmap _ rfl]
    exact h.nodup
  · rw [List.length_set]
    exact h.fits.items
  · have hsize := h.fits.size
    rw [totalSize] at hsize ⊢
    rwa [List.length_set, hsizes]
  · rcases (mem_set_iff h.nodup hy z).1 hx with rfl | ⟨hx, -⟩
    · exact ⟨y, List.mem_of_getElem? hy, rfl, hlength.symm⟩
    · exact ⟨x, hx, rfl, rfl⟩

/-- A record only changes the item with its key. -/
lemma Sound.applyUpdate (h : Sound b) (happly : applyUpdate old b u = some (.ok b')) :
    Sound b' ∧ (∀ x ∈ b.items, x.key ≠ u.key → x ∈ b'.items) ∧
      ∀ x ∈ b'.items, (∃ z ∈ b.items, z.key = x.key ∧ z.data.length = x.data.length) ∨
        x.key = u.key ∧ x.data.length = u.data.length := by
  rw [CSnapshotDelta.applyUpdate] at happly
  rcases hmake : CSnapshotDelta.makeItem b u with _ | ⟨b₁, index⟩
  · rw [hmake] at happly
    cases happly
  · rw [hmake] at happly
    obtain ⟨data, -, hdata⟩ := Option.bind_eq_some_iff.1 happly
    obtain ⟨b₂, hwrite, heq⟩ := Option.map_eq_some_iff.1 hdata
    obtain rfl := Except.ok.inj heq
    obtain ⟨hsound, y, hy, hkey, hkept, hnew⟩ := h.makeItem hmake
    obtain ⟨hsound', hother, hsame⟩ := hsound.writeItem hy hwrite
    refine ⟨hsound', fun x hx hne => hother x (hkept x hx) (hkey ▸ hne), fun x hx => ?_⟩
    obtain ⟨z, hz, hzkey, hzlength⟩ := hsame x hx
    rcases hnew z hz with hz | ⟨hzu, hzlength'⟩
    · exact .inl ⟨z, hz, hzkey, hzlength⟩
    · exact .inr ⟨hzkey.symm.trans hzu, hzlength.symm.trans hzlength'⟩

/-- Nothing is read or written behind an item if there is room for the record. -/
lemma Sound.applyUpdate_isSome (h : Sound b) (hroom : RoomFor b u)
    (hold : ∀ past ∈ old, past.key = u.key → u.data.length ≤ past.data.length) :
    (CSnapshotDelta.applyUpdate old b u).isSome = true := by
  rw [CSnapshotDelta.applyUpdate]
  rcases hmake : CSnapshotDelta.makeItem b u with _ | ⟨b₁, index⟩
  · rfl
  · obtain ⟨-, y, hy, hkey, -, hnew⟩ := h.makeItem hmake
    have hle : u.data.length ≤ y.data.length := by
      rcases hnew y (List.mem_of_getElem? hy) with hmem | ⟨-, hlength⟩
      · exact hroom y hmem hkey
      · exact hlength.ge
    have hunpack : ∃ data, unpackData old u = some data ∧ data.length ≤ u.data.length := by
      rw [unpackData]
      rcases getItemIndex_cases old u.key with ⟨found, past, hfound, hpast, hpastKey⟩ | ⟨hnone, -⟩
      · rw [hfound]
        dsimp only
        rw [getItem_of_getElem? hpast, if_pos (hold past (List.mem_of_getElem? hpast) hpastKey)]
        refine ⟨_, rfl, ?_⟩
        rw [undiffItem, List.length_zipWith]
        exact Nat.min_le_right _ _
      · rw [hnone]
        exact ⟨_, rfl, le_rfl⟩
    obtain ⟨data, hdata, hlength⟩ := hunpack
    dsimp only
    rw [hdata, Option.bind_some, CSnapshotDelta.writeItem, getItem_of_getElem? hy, if_pos (hlength.trans hle)]
    rfl

/-- The items of the old snapshot that are not deleted are taken over. -/
lemma Sound.foldlM_keepItem {deleted : List (BitVec 32)} (rest : CSnapshot) (h : Sound b)
    (hfresh : ((b.items ++ rest).map CSnapshotItem.key).Nodup) (hkeep : rest.foldlM (keepItem deleted) b = some b') :
    Sound b' ∧ b'.items = b.items ++ rest.filter fun x => x.key ∉ deleted := by
  induction rest generalizing b with
  | nil =>
    obtain rfl := Option.some.inj hkeep
    exact ⟨h, (List.append_nil _).symm⟩
  | cons item rest ih =>
    obtain ⟨b₁, hitem, hrest⟩ := Option.bind_eq_some_iff.1 (List.foldlM_cons.symm.trans hkeep)
    rw [keepItem] at hitem
    split_ifs at hitem with hdeleted
    · obtain rfl := Option.some.inj hitem
      have hsub : (b.items ++ rest).Sublist (b.items ++ item :: rest) :=
        List.Sublist.append_left (List.sublist_cons_self item rest) _
      rw [List.filter_cons_of_neg (by simpa using hdeleted)]
      exact ih h (hfresh.sublist (hsub.map _)) hrest
    · have htype : 0 ≤ item.type := by
        by_contra hneg
        rw [newPlainItem, h.sixup] at hitem
        simp [not_le.1 hneg] at hitem
      obtain ⟨-, hkey⟩ := fitsKey_of_type_nonneg htype
      have hnew : ∀ x ∈ b.items, x.key ≠ keyOf item.type item.id := by
        rw [List.map_append, List.map_cons] at hfresh
        intro x hx hxkey
        refine List.disjoint_of_nodup_append hfresh (List.mem_map_of_mem hx) ?_
        rw [hxkey, hkey]
        exact List.mem_cons_self
      obtain ⟨hitems, hsound⟩ := h.push hnew hitem
      have hitem' : b₁.items = b.items ++ [item] := by
        rw [hitems, hkey]
      obtain ⟨hsound', hitems'⟩ := ih hsound (by rwa [hitem', List.append_assoc, List.singleton_append]) hrest
      refine ⟨hsound', ?_⟩
      rw [hitems', hitem', List.filter_cons_of_pos (by simpa using hdeleted), List.append_assoc, List.singleton_append]

/-- The records change the items with their keys only. -/
lemma Sound.unpackUpdates (n : ℕ) (data : List (BitVec 32)) (h : Sound b)
    (hunpack : unpackUpdates itemSizes old n b data = some (.ok b')) :
    Sound b' ∧ ∀ x ∈ b.items, (∀ u ∈ readUpdates itemSizes n data, u.key ≠ x.key) → x ∈ b'.items := by
  induction n generalizing b data with
  | zero =>
    obtain rfl := Except.ok.inj (Option.some.inj hunpack)
    exact ⟨h, fun x hx _ => hx⟩
  | succ n ih =>
    rw [CSnapshotDelta.unpackUpdates] at hunpack
    rw [readUpdates]
    rcases hread : readUpdate itemSizes data with code | ⟨u, data⟩
    · rw [hread] at hunpack
      cases hunpack
    · rw [hread] at hunpack
      obtain ⟨result, happly, hrest⟩ := Option.bind_eq_some_iff.1 hunpack
      rcases result with code | b₁
      · cases hrest
      · obtain ⟨hsound, hkept, -⟩ := h.applyUpdate happly
        obtain ⟨hsound', hkept'⟩ := ih _ hsound hrest
        refine ⟨hsound', fun x hx hother => ?_⟩
        rw [List.forall_mem_cons] at hother
        exact hkept' x (hkept x hx fun hkey => hother.1 hkey.symm) hother.2

/-- Nothing is read or written behind an item if every record is at most as long as the item it is for. -/
lemma Sound.unpackUpdates_isSome (n : ℕ) (data : List (BitVec 32)) (h : Sound b)
    (hroom : ∀ u ∈ readUpdates itemSizes n data, RoomFor b u)
    (hold : ∀ u ∈ readUpdates itemSizes n data, ∀ past ∈ old, past.key = u.key → u.data.length ≤ past.data.length)
    (hpairs : (readUpdates itemSizes n data).Pairwise fun u v => v.key = u.key → v.data.length ≤ u.data.length) :
    (CSnapshotDelta.unpackUpdates itemSizes old n b data).isSome = true := by
  induction n generalizing b data with
  | zero => rfl
  | succ n ih =>
    rw [readUpdates] at hroom hold hpairs
    rw [CSnapshotDelta.unpackUpdates]
    rcases hread : readUpdate itemSizes data with code | ⟨u, data⟩
    · rfl
    · rw [hread] at hroom hold hpairs
      rw [List.forall_mem_cons] at hroom hold
      obtain ⟨hfirst, hpairs⟩ := List.pairwise_cons.1 hpairs
      obtain ⟨result, happly⟩ := Option.isSome_iff_exists.1 (h.applyUpdate_isSome hroom.1 hold.1)
      dsimp only
      rw [happly, Option.bind_some]
      rcases result with code | b₁
      · rfl
      · obtain ⟨hsound, -, hsizes⟩ := h.applyUpdate happly
        refine ih _ hsound (fun v hv y hy hkey => ?_) hold.2 hpairs
        rcases hsizes y hy with ⟨z, hz, hzkey, hlength⟩ | ⟨hykey, hlength⟩
        · rw [← hlength]
          exact hroom.2 v hv z hz (hzkey.trans hkey)
        · rw [hlength]
          exact hfirst v hv (hkey.symm.trans hykey)

lemma sound_new : Sound .new :=
  ⟨rfl, List.nodup_nil, Nat.zero_le _, by rw [totalSize, maxSize_eq]; decide⟩

/-- No delta makes the receiver access memory outside of an item as long as each record is at most as long as the item it
is for.  A delta that is accepted gives a valid snapshot with distinct keys, in which the items of the old snapshot that
the delta neither deletes nor has a record for are as they were. -/
theorem unpackDelta_safe (hold : (old.map CSnapshotItem.key).Nodup) {delta : List (BitVec 32)}
    (hheader : 3 ≤ delta.length) :
    ((∀ u ∈ recordsOf itemSizes delta, ∀ past ∈ old, past.key = u.key → u.data.length ≤ past.data.length) →
      (recordsOf itemSizes delta).Pairwise (fun u v => v.key = u.key → v.data.length ≤ u.data.length) →
        ∃ result, unpackDelta itemSizes old delta = some result) ∧
    ∀ out, unpackDelta itemSizes old delta = some (.ok out) →
      isValid out (totalSize out) = true ∧ (out.map CSnapshotItem.key).Nodup ∧
        ∀ item ∈ old, item.key ∉ deletedOf delta → (∀ u ∈ recordsOf itemSizes delta, u.key ≠ item.key) → item ∈ out := by
  obtain ⟨numDeletedItems, delta, rfl⟩ := List.exists_cons_of_length_pos (by omega : 0 < delta.length)
  rw [List.length_cons] at hheader
  obtain ⟨numUpdateItems, delta, rfl⟩ := List.exists_cons_of_length_pos (by omega : 0 < delta.length)
  rw [List.length_cons] at hheader
  obtain ⟨numTempItems, data, rfl⟩ := List.exists_cons_of_length_pos (by omega : 0 < delta.length)
  rw [unpackDelta, recordsOf, deletedOf]
  split_ifs with hnegative hshort
  · exact ⟨fun _ _ => ⟨_, rfl⟩, fun out hout => by cases hout⟩
  · exact ⟨fun _ _ => ⟨_, rfl⟩, fun out hout => by cases hout⟩
  set deleted := data.take numDeletedItems.toInt.toNat
  rcases hkeep : old.foldlM (keepItem deleted) .new with _ | b
  · exact ⟨fun _ _ => ⟨_, rfl⟩, fun out hout => by cases hout⟩
  obtain ⟨hsound, hitems⟩ := sound_new.foldlM_keepItem old hold hkeep
  have hb : b.items = old.filter fun x => x.key ∉ deleted := hitems
  dsimp only
  refine ⟨fun hrecords hpairs => ?_, fun out hout => ?_⟩
  · have hroom : ∀ u ∈ readUpdates itemSizes numUpdateItems.toInt.toNat (data.drop numDeletedItems.toInt.toNat),
        RoomFor b u := fun u hu y hy => hrecords u hu y (List.mem_filter.1 (hb ▸ hy)).1
    obtain ⟨result, hresult⟩ := Option.isSome_iff_exists.1 (hsound.unpackUpdates_isSome _ _ hroom hrecords hpairs)
    rw [hresult, Option.bind_some]
    rcases result with code | b'
    · exact ⟨_, rfl⟩
    · have hfits := (hsound.unpackUpdates _ _ hresult).1.fits
      show ∃ result, b'.finish.map Except.ok = some result
      rw [CSnapshotBuilder.finish, if_pos ⟨hfits.items, hfits.size⟩]
      exact ⟨_, rfl⟩
  · obtain ⟨result, hresult, hfinish⟩ := Option.bind_eq_some_iff.1 hout
    rcases result with code | b'
    · cases hfinish
    · obtain ⟨hsound', hkept⟩ := hsound.unpackUpdates _ _ hresult
      obtain ⟨out', hout', heq⟩ := Option.map_eq_some_iff.1 hfinish
      obtain rfl := Except.ok.inj heq
      rw [CSnapshotBuilder.finish, if_pos ⟨hsound'.fits.items, hsound'.fits.size⟩] at hout'
      obtain rfl := Option.some.inj hout'
      refine ⟨isValid_totalSize hsound'.fits.items hsound'.fits.size, hsound'.nodup, fun item hitem hkey hother => ?_⟩
      refine hkept item ?_ hother
      rw [hb]
      exact List.mem_filter.2 ⟨hitem, by simpa using hkey⟩

/-- A delta that deletes one item and has a record for the other one. -/
theorem unpackDelta_safe_sample :
    ((∀ u ∈ recordsOf sampleSizes [1, 1, 0, keyOf 1 5, 2, 0, 3], ∀ past ∈ sampleOld, past.key = u.key →
        u.data.length ≤ past.data.length) →
      (recordsOf sampleSizes [1, 1, 0, keyOf 1 5, 2, 0, 3]).Pairwise
        (fun u v => v.key = u.key → v.data.length ≤ u.data.length) →
        ∃ result, unpackDelta sampleSizes sampleOld [1, 1, 0, keyOf 1 5, 2, 0, 3] = some result) ∧
    ∀ out, unpackDelta sampleSizes sampleOld [1, 1, 0, keyOf 1 5, 2, 0, 3] = some (.ok out) →
      isValid out (totalSize out) = true ∧ (out.map CSnapshotItem.key).Nodup ∧
        ∀ item ∈ sampleOld, item.key ∉ deletedOf [1, 1, 0, keyOf 1 5, 2, 0, 3] →
          (∀ u ∈ recordsOf sampleSizes [1, 1, 0, keyOf 1 5, 2, 0, 3], u.key ≠ item.key) → item ∈ out :=
  unpackDelta_safe (by decide) (by decide)

end Hostile

end CSnapshotDelta

end DDNet
