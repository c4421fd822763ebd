/-
Which datafiles are safe to read.

`Open` checks the signs of the numbers in the header and that the file is as long as the tables and items are said to
be.  It does not look at the tables.  `readsSafely_iff` says what they have to be like so that the functions that read
items and data return, and read only what is loaded: the offsets are in order, the item types have their items among
those of the file, and a descriptor of a uuid comes before the items that need it.
-/
import DDNet.Shared.Datafile

namespace DDNet

open Lib

namespace CDatafile

/-! ### What is safe, and what is in order -/

/-- The types that can be asked for: internal types, and those that are registered. -/
def KnownType (m : CUuidManager) (type : ℤ) : Prop := type < offsetUuid ∨ (m.getUuid type).isSome = true

/-- Items and data can be read. -/
structure SafeToRead (m : CUuidManager) (uncompress : List UInt8 → ℕ → Option (List UInt8)) (df : CDatafile) :
    Prop where
  /-- The tables and the items are loaded. -/
  loaded : df.itemStart + df.header.itemSize.toNat ≤ df.data.length
  /-- An item with its header is in the section of the items. -/
  items : ∀ i : ℕ, i < df.numItems → ∃ offset size, df.itemOffset i = some offset ∧ df.getItemSize i = some size ∧
    0 ≤ offset.toInt ∧ 0 ≤ size.toInt ∧ offset.toInt + 8 + size.toInt ≤ df.header.itemSize.toInt
  /-- An item ends before the next one starts. -/
  distinct : ∀ i j : ℕ, i < j → j < df.numItems → ∀ offset size offset', df.itemOffset i = some offset →
    df.getItemSize i = some size → df.itemOffset j = some offset' → offset.toInt + 8 + size.toInt ≤ offset'.toInt
  /-- The data is in the section of the data. -/
  datas : ∀ i : ℕ, i < df.numRawData → ∃ offset size, df.dataOffset i = some offset ∧
    df.getFileDataSize i = some size ∧ 0 ≤ offset.toInt ∧ 0 ≤ size.toInt ∧
      offset.toInt + size.toInt ≤ df.header.dataSize.toInt
  getItem : ∀ i : ℕ, i < df.numItems → ∃ fuel item, df.getItem m fuel i = some item
  getType : ∀ type, KnownType m type → ∃ fuel range, df.getType m (df.getItem m fuel) type = some range
  findItem : ∀ type, KnownType m type → ∀ id, ∃ fuel item, df.findItem m fuel type id = some item
  /-- Whatever data has been loaded before. -/
  getDataSize : ∀ df' : CDatafile, df'.header = df.header → df'.data = df.data → ∀ i,
    (df'.getDataSize i).isSome = true
  getData : ∀ df' : CDatafile, df'.header = df.header → df'.data = df.data → ∀ i,
    (df'.getData uncompress i).isSome = true

/-- Where an item starts; the section of the items ends behind the last one. -/
def itemBound (df : CDatafile) (i : ℕ) : ℤ :=
  if i < df.numItems then ((df.itemOffset i).map BitVec.toInt).getD 0 else df.header.itemSize.toInt

@[inherit_doc itemBound] def dataBound (df : CDatafile) (i : ℕ) : ℤ :=
  if i < df.numRawData then ((df.dataOffset i).map BitVec.toInt).getD 0 else df.header.dataSize.toInt

/-- The types of the items that have a uuid. -/
def UuidType (type : ℤ) : Prop := offsetUuidType < type ∧ type ≠ itemtypeEx

/-- The tables are in order. -/
structure InOrder (df : CDatafile) : Prop where
  /-- The size of the tables and items is an unsigned int. -/
  size : df.itemStart + df.header.itemSize.toNat < 2 ^ 32
  items : ∀ i < df.numItems, 0 ≤ df.itemBound i ∧ df.itemBound i + 8 ≤ df.itemBound (i + 1)
  datas : ∀ i < df.numRawData, 0 ≤ df.dataBound i ∧ df.dataBound i ≤ df.dataBound (i + 1)
  types : ∀ type range, type < offsetUuid → df.lookupType type = some range → 0 < range.2 →
    0 ≤ range.1 ∧ range.1 + range.2 ≤ df.numItems
  /-- If a descriptor of a uuid has itself a uuid, that one's descriptor comes before. -/
  descriptors : ∀ range, df.lookupType itemtypeEx = some range → ∀ n : ℕ, n < range.2 → ∀ type,
    df.internalType (range.1 + n) = some type → UuidType type → ∃ k < n, df.itemId (range.1 + k) = some type

/-- What `Open` has checked. -/
structure Checked (df : CDatafile) : Prop where
  length : df.data.length = df.header.loadSize.toNat
  numItemTypes : 0 ≤ df.header.numItemTypes.toInt
  numItems : 0 ≤ df.header.numItems.toInt
  numRawData : 0 ≤ df.header.numRawData.toInt
  itemSize : 0 ≤ df.header.itemSize.toInt

end CDatafile

open CDatafile

/-- If the file is accepted, it can be read. -/
def ReadsSafely (m : CUuidManager) (uncompress : List UInt8 → ℕ → Option (List UInt8)) (file : List UInt8) : Prop :=
  match openDatafile file with
  | .rejected => True
  | .overrun => False
  | .opened df => df.SafeToRead m uncompress

/-- The block of `Open` has room for what is loaded, and the tables are in order. -/
def FileInOrder (file : List UInt8) : Prop :=
  match openDatafile file with
  | .rejected => True
  | .overrun => False
  | .opened df => df.InOrder

/-! ### Ints -/

lemma toInt_eq_toNat_of_nonneg {w : BitVec 32} (h : 0 ≤ w.toInt) : w.toInt = w.toNat := by
  rw [BitVec.toInt_eq_toNat_cond] at h ⊢
  have hlt := w.isLt
  split_ifs at h ⊢ <;> omega

lemma toNat_lt_of_nonneg {w : BitVec 32} (h : 0 ≤ w.toInt) : w.toNat < 2 ^ 31 := by
  rw [BitVec.toInt_eq_toNat_cond] at h
  have hlt := w.isLt
  split_ifs at h <;> omega

/-- The size between two offsets that are in order. -/
lemma toInt_sub_sub {a b : BitVec 32} {c : ℕ} (hb : 0 ≤ b.toInt) (h : b.toInt + c ≤ a.toInt) :
    (a - b - BitVec.ofNat 32 c).toInt = a.toInt - b.toInt - c := by
  have ha : 0 ≤ a.toInt := by omega
  rw [toInt_eq_toNat_of_nonneg hb, toInt_eq_toNat_of_nonneg ha] at h ⊢
  have hlt := toNat_lt_of_nonneg ha
  rw [BitVec.toInt_eq_toNat_cond]
  have hsub : (a - b - BitVec.ofNat 32 c).toNat = a.toNat - b.toNat - c := by
    rw [BitVec.toNat_sub, BitVec.toNat_sub, BitVec.toNat_ofNat]
    omega
  rw [hsub]
  split_ifs <;> omega

/-- An offset is in order with the one before if the size between them is one. -/
lemma add_of_toInt_sub {a b : BitVec 32} {c : ℕ} {limit : ℤ} (hb : 0 ≤ b.toInt)
    (hsize : 0 ≤ (a - b - BitVec.ofNat 32 c).toInt)
    (h : b.toInt + c + (a - b - BitVec.ofNat 32 c).toInt ≤ limit) (hlimit : limit < 2 ^ 31) :
    a.toInt = b.toInt + c + (a - b - BitVec.ofNat 32 c).toInt := by
  have hlt := a.isLt
  have hlt' := b.isLt
  rw [toInt_eq_toNat_of_nonneg hb, toInt_eq_toNat_of_nonneg hsize] at h ⊢
  have hsub : (a - b - BitVec.ofNat 32 c).toNat = (a.toNat + (2 ^ 32 - b.toNat) + (2 ^ 32 - c % 2 ^ 32)) % 2 ^ 32 := by
    rw [BitVec.toNat_sub, BitVec.toNat_sub, BitVec.toNat_ofNat]
    omega
  have ha : a.toNat = b.toNat + c + (a - b - BitVec.ofNat 32 c).toNat := by
    rw [hsub] at h ⊢
    omega
  rw [BitVec.toInt_eq_toNat_cond]
  split_ifs <;> omega

namespace CDatafile

variable {m : CUuidManager} {df : CDatafile}

/-! ### Tables -/

lemma tableEntry_range {start num : ℕ} {i : ℤ} {w : BitVec 32} (h : df.tableEntry start num i = some w) :
    0 ≤ i ∧ i < num := by
  rw [tableEntry] at h
  split_ifs at h with hrange
  exact hrange

lemma exists_tableEntry {start num i : ℕ} (hloaded : start + 4 * num ≤ df.data.length) (hi : i < num) :
    ∃ w, df.tableEntry start num i = some w := by
  rw [tableEntry, if_pos ⟨Int.natCast_nonneg _, by exact_mod_cast hi⟩, Int.toNat_natCast]
  exact exists_wordAt (by omega)

/-- The sizes of the tables and items add up to what is loaded, modulo the size of an unsigned int. -/
lemma loadSize_toNat (df : CDatafile) :
    df.header.loadSize.toNat = (df.itemStart + df.header.itemSize.toNat) % 2 ^ 32 := by
  rw [CDatafileHeader.loadSize, itemStart, dataSizesStart, dataOffsetsStart, itemOffsetsStart, numItemTypes, numItems,
    numRawData]
  have h12 : (12 : BitVec 32).toNat = 12 := rfl
  have h4 : (4 : BitVec 32).toNat = 4 := rfl
  have h0 : (0 : BitVec 32).toNat = 0 := rfl
  split_ifs <;> simp only [BitVec.toNat_add, BitVec.toNat_mul, h12, h4, h0] <;> omega

lemma InOrder.loaded (h : df.InOrder) (hchecked : df.Checked) :
    df.itemStart + df.header.itemSize.toNat ≤ df.data.length := by
  rw [hchecked.length, loadSize_toNat, Nat.mod_eq_of_lt h.size]

lemma dataSizesStart_le (df : CDatafile) : df.dataSizesStart ≤ df.itemStart := by
  rw [itemStart]
  split_ifs
  · exact Nat.le_add_right _ _
  · exact Nat.le_refl _

section loaded

variable (hloaded : df.itemStart + df.header.itemSize.toNat ≤ df.data.length)

include hloaded

lemma exists_itemOffset {i : ℕ} (hi : i < df.numItems) : ∃ offset, df.itemOffset i = some offset := by
  have hle := df.dataSizesStart_le
  refine exists_tableEntry ?_ hi
  rw [dataSizesStart, dataOffsetsStart] at hle
  omega

lemma exists_dataOffset {i : ℕ} (hi : i < df.numRawData) : ∃ offset, df.dataOffset i = some offset := by
  have hle := df.dataSizesStart_le
  refine exists_tableEntry ?_ hi
  rw [dataSizesStart] at hle
  omega

lemma exists_dataSize (hversion : df.header.version = 4) {i : ℕ} (hi : i < df.numRawData) :
    ∃ size, df.dataSize i = some size := by
  refine exists_tableEntry ?_ hi
  rw [itemStart, if_pos hversion] at hloaded
  omega

lemma exists_itemType {i : ℕ} (hi : i < df.numItemTypes) : ∃ info, df.itemType i = some info := by
  have hle := df.dataSizesStart_le
  rw [dataSizesStart, dataOffsetsStart, itemOffsetsStart] at hle
  obtain ⟨type, htype⟩ := @exists_wordAt df.data (12 * i) (by omega)
  obtain ⟨start, hstart⟩ := @exists_wordAt df.data (12 * i + 4) (by omega)
  obtain ⟨num, hnum⟩ := @exists_wordAt df.data (12 * i + 8) (by omega)
  refine ⟨(type.toInt, start.toInt, num.toInt), ?_⟩
  rw [itemType, if_pos hi, htype, hstart, hnum]
  rfl

lemma exists_typeLoop (type : ℤ) {i n : ℕ} (hi : i + n ≤ df.numItemTypes) :
    ∃ range, df.typeLoop type i n = some range := by
  induction n generalizing i with
  | zero => exact ⟨(0, 0), rfl⟩
  | succ n ih =>
    obtain ⟨info, hinfo⟩ := exists_itemType hloaded (by omega : i < df.numItemTypes)
    obtain ⟨range, hrange⟩ := @ih (i + 1) (by omega)
    rw [typeLoop, hinfo, Option.bind_eq_bind, Option.bind_some]
    split_ifs
    · exact ⟨_, rfl⟩
    · exact ⟨range, hrange⟩

lemma exists_lookupType (type : ℤ) : ∃ range, df.lookupType type = some range :=
  exists_typeLoop hloaded type (Nat.zero_add _).le

/-- The size of an item is what is between two bounds. -/
lemma exists_itemNext {i : ℕ} (hi : i < df.numItems) : ∃ next : BitVec 32, df.itemBound (i + 1) = next.toInt ∧
    ∀ offset, df.itemOffset i = some offset → df.getItemSize i = some (next - offset - BitVec.ofNat 32 8) := by
  by_cases hlast : i + 1 = df.numItems
  · refine ⟨df.header.itemSize, ?_, ?_⟩
    · rw [itemBound, if_neg (by omega)]
    · intro offset hoffset
      rw [getItemSize, if_pos (by omega), hoffset]
      rfl
  · obtain ⟨next, hnext⟩ := exists_itemOffset hloaded (by omega : i + 1 < df.numItems)
    refine ⟨next, ?_, ?_⟩
    · rw [itemBound, if_pos (by omega), hnext]
      rfl
    · intro offset hoffset
      rw [Nat.cast_add, Nat.cast_one] at hnext
      rw [getItemSize, if_neg (by omega), hnext, hoffset]
      rfl

lemma exists_dataNext {i : ℕ} (hi : i < df.numRawData) : ∃ next : BitVec 32, df.dataBound (i + 1) = next.toInt ∧
    ∀ offset, df.dataOffset i = some offset → df.getFileDataSize i = some (next - offset) := by
  by_cases hlast : i + 1 = df.numRawData
  · refine ⟨df.header.dataSize, ?_, ?_⟩
    · rw [dataBound, if_neg (by omega)]
    · intro offset hoffset
      rw [getFileDataSize, if_pos (by omega), hoffset]
      rfl
  · obtain ⟨next, hnext⟩ := exists_dataOffset hloaded (by omega : i + 1 < df.numRawData)
    refine ⟨next, ?_, ?_⟩
    · rw [dataBound, if_pos (by omega), hnext]
      rfl
    · intro offset hoffset
      rw [Nat.cast_add, Nat.cast_one] at hnext
      rw [getFileDataSize, if_neg (by omega), hnext, hoffset]
      rfl

end loaded

lemma itemBound_eq {i : ℕ} (hi : i < df.numItems) {offset : BitVec 32} (h : df.itemOffset i = some offset) :
    df.itemBound i = offset.toInt := by
  rw [itemBound, if_pos hi, h]
  rfl

lemma dataBound_eq {i : ℕ} (hi : i < df.numRawData) {offset : BitVec 32} (h : df.dataOffset i = some offset) :
    df.dataBound i = offset.toInt := by
  rw [dataBound, if_pos hi, h]
  rfl

/-! ### Items and data in order -/

/-- Bounds that go up by a size each. -/
lemma bound_le {f : ℕ → ℤ} {n : ℕ} {c : ℤ} (hc : 0 ≤ c) (h : ∀ i < n, f i + c ≤ f (i + 1)) {i j : ℕ} (hij : i ≤ j)
    (hj : j ≤ n) : f i ≤ f j := by
  induction j, hij using Nat.le_induction with
  | base => exact le_refl _
  | succ j hij ih =>
    have hstep := h j (by omega)
    have hle := ih (by omega)
    omega

lemma InOrder.itemBound_le (h : df.InOrder) {i j : ℕ} (hij : i ≤ j) (hj : j ≤ df.numItems) :
    df.itemBound i ≤ df.itemBound j :=
  bound_le (by omega : (0 : ℤ) ≤ 8) (fun i hi => (h.items i hi).2) hij hj

/-- An item that is in order. -/
lemma InOrder.item (h : df.InOrder) (hchecked : df.Checked) {i : ℕ} (hi : i < df.numItems) :
    ∃ offset size, df.itemOffset i = some offset ∧ df.getItemSize i = some size ∧ 0 ≤ offset.toInt ∧ 0 ≤ size.toInt ∧
      df.itemBound i = offset.toInt ∧ df.itemBound (i + 1) = offset.toInt + 8 + size.toInt := by
  have hloaded := h.loaded hchecked
  obtain ⟨offset, hoffset⟩ := exists_itemOffset hloaded hi
  obtain ⟨next, hnext, hsize⟩ := exists_itemNext hloaded hi
  obtain ⟨hpos, hle⟩ := h.items i hi
  have hbound := itemBound_eq hi hoffset
  rw [hbound] at hpos
  rw [hbound, hnext] at hle
  have hsub := @toInt_sub_sub next offset 8 hpos hle
  refine ⟨offset, _, hoffset, hsize offset hoffset, hpos, ?_, hbound, ?_⟩
  · rw [hsub]
    omega
  · rw [hsub, hnext]
    omega

lemma InOrder.data (h : df.InOrder) (hchecked : df.Checked) {i : ℕ} (hi : i < df.numRawData) :
    ∃ offset size, df.dataOffset i = some offset ∧ df.getFileDataSize i = some size ∧ 0 ≤ offset.toInt ∧
      0 ≤ size.toInt ∧ offset.toInt + size.toInt ≤ df.header.dataSize.toInt := by
  have hloaded := h.loaded hchecked
  obtain ⟨offset, hoffset⟩ := exists_dataOffset hloaded hi
  obtain ⟨next, hnext, hsize⟩ := exists_dataNext hloaded hi
  obtain ⟨hpos, hle⟩ := h.datas i hi
  have hlast : df.dataBound (i + 1) ≤ df.dataBound df.numRawData :=
    bound_le (le_refl (0 : ℤ)) (fun i hi => by rw [add_zero]; exact (h.datas i hi).2) (by omega) (le_refl _)
  have hend : df.dataBound df.numRawData = df.header.dataSize.toInt := if_neg (lt_irrefl _)
  have hbound := dataBound_eq hi hoffset
  rw [hbound] at hpos
  rw [hbound, hnext] at hle
  rw [hnext, hend] at hlast
  have hsub : (next - offset).toInt = next.toInt - offset.toInt := by
    have hsub := @toInt_sub_sub next offset 0 hpos (by omega)
    rwa [BitVec.sub_zero, Nat.cast_zero, sub_zero] at hsub
  refine ⟨offset, _, hoffset, hsize offset hoffset, hpos, ?_, ?_⟩
  · rw [hsub]
    omega
  · rw [hsub]
    omega

/-- Conversely, items in their section have bounds in order. -/
lemma SafeToRead.itemBound {uncompress : List UInt8 → ℕ → Option (List UInt8)} (h : df.SafeToRead m uncompress)
    {i : ℕ} (hi : i < df.numItems) : 0 ≤ df.itemBound i ∧ df.itemBound i + 8 ≤ df.itemBound (i + 1) := by
  obtain ⟨offset, size, hoffset, hsize, hpos, hsizepos, hle⟩ := h.items i hi
  obtain ⟨next, hnext, hsub⟩ := exists_itemNext h.loaded hi
  obtain rfl := Option.some.inj (hsize.symm.trans (hsub offset hoffset))
  have hlimit := df.header.itemSize.toInt_lt
  have hadd := @add_of_toInt_sub next offset 8 _ hpos hsizepos hle (by omega)
  rw [itemBound_eq hi hoffset, hnext]
  omega

lemma SafeToRead.dataBound {uncompress : List UInt8 → ℕ → Option (List UInt8)} (h : df.SafeToRead m uncompress)
    {i : ℕ} (hi : i < df.numRawData) : 0 ≤ df.dataBound i ∧ df.dataBound i ≤ df.dataBound (i + 1) := by
  obtain ⟨offset, size, hoffset, hsize, hpos, hsizepos, hle⟩ := h.datas i hi
  obtain ⟨next, hnext, hsub⟩ := exists_dataNext h.loaded hi
  obtain rfl := Option.some.inj (hsize.symm.trans (hsub offset hoffset))
  have hlimit := df.header.dataSize.toInt_lt
  have hzero : next - offset = next - offset - BitVec.ofNat 32 0 := by rw [BitVec.sub_zero]
  rw [hzero] at hsizepos hle
  have hadd := @add_of_toInt_sub next offset 0 df.header.dataSize.toInt hpos hsizepos (by omega) (by omega)
  rw [dataBound_eq hi hoffset, hnext]
  omega

/-! ### Reading an item -/

lemma exists_itemInt (place : ℕ) (h : df.InOrder) (hchecked : df.Checked) {i : ℕ} (hi : i < df.numItems) {size : BitVec 32}
    (hsize : df.getItemSize i = some size) (hplace : (place : ℤ) + 4 ≤ 8 + size.toInt) :
    ∃ w, df.itemInt i place = some w := by
  obtain ⟨offset, size', hoffset, hsize', hpos, -, -, hbound⟩ := h.item hchecked hi
  obtain rfl := Option.some.inj (hsize.symm.trans hsize')
  have hloaded := h.loaded hchecked
  have hle : df.itemBound (i + 1) ≤ df.itemBound df.numItems := h.itemBound_le (by omega) (le_refl _)
  have hend : df.itemBound df.numItems = df.header.itemSize.toInt := if_neg (lt_irrefl _)
  rw [hbound, hend, toInt_eq_toNat_of_nonneg hchecked.itemSize] at hle
  rw [itemInt, hoffset, Option.bind_eq_bind, Option.bind_some]
  dsimp only
  rw [if_pos (by omega)]
  exact exists_wordAt (by omega)

/-- The header of an item is read. -/
lemma exists_header (h : df.InOrder) (hchecked : df.Checked) {i : ℕ} (hi : i < df.numItems) :
    ∃ offset type id size, df.itemOffset i = some offset ∧ df.internalType i = some type ∧ df.itemId i = some id ∧
      df.getItemSize i = some size := by
  obtain ⟨offset, size, hoffset, hsize, -, hpos, -, -⟩ := h.item hchecked hi
  obtain ⟨w, hw⟩ := exists_itemInt 0 h hchecked hi hsize (by omega)
  refine ⟨offset, (w.sshiftRight 16 &&& 0xffff).toNat, (w &&& 0xffff).toNat, size, hoffset, ?_, ?_, hsize⟩
  · rw [internalType, hw]
    rfl
  · rw [itemId, hw]
    rfl

/-- The descriptor of a uuid is read if the item is long enough for it. -/
lemma exists_itemEx (h : df.InOrder) (hchecked : df.Checked) {i : ℕ} (hi : i < df.numItems) {size : BitVec 32}
    (hsize : df.getItemSize i = some size) (hlong : ¬ size.toInt < sizeofItemEx) :
    ∃ itemEx, df.itemEx i = some itemEx := by
  rw [sizeofItemEx] at hlong
  obtain ⟨a, ha⟩ := exists_itemInt 8 h hchecked hi hsize (by omega)
  obtain ⟨b, hb⟩ := exists_itemInt 12 h hchecked hi hsize (by omega)
  obtain ⟨c, hc⟩ := exists_itemInt 16 h hchecked hi hsize (by omega)
  obtain ⟨d, hd⟩ := exists_itemInt 20 h hchecked hi hsize (by omega)
  refine ⟨![a, b, c, d], ?_⟩
  rw [itemEx, ha, hb, hc, hd]
  rfl

lemma itemId_nonneg {i id : ℤ} (h : df.itemId i = some id) : 0 ≤ id := by
  obtain ⟨w, -, hid⟩ := Option.bind_eq_some_iff.1 h
  obtain rfl := Option.some.inj hid
  exact Int.natCast_nonneg _

/-- What `GetItem` has read. -/
lemma getItemStep_spec {getItem : ℤ → Option Item} {i : ℤ} {item : Item} (h : df.getItemStep m getItem i = some item) :
    ∃ offset internal, df.itemOffset i = some offset ∧ df.internalType i = some internal ∧
      df.getExternalItemType m getItem internal = some (item.type, item.uuid) ∧ df.itemId i = some item.id := by
  obtain ⟨offset, hoffset, h⟩ := Option.bind_eq_some_iff.1 h
  obtain ⟨internal, hinternal, h⟩ := Option.bind_eq_some_iff.1 h
  obtain ⟨external, hexternal, h⟩ := Option.bind_eq_some_iff.1 h
  obtain ⟨id, hid, h⟩ := Option.bind_eq_some_iff.1 h
  obtain rfl := Option.some.inj h
  exact ⟨offset, internal, hoffset, hinternal, hexternal, hid⟩

lemma getItem_spec {fuel : ℕ} {i : ℤ} {item : Item} (h : df.getItem m fuel i = some item) :
    (0 ≤ i ∧ i < df.numItems) ∧ df.itemId i = some item.id := by
  cases fuel with
  | zero => exact absurd h nofun
  | succ fuel =>
    obtain ⟨offset, internal, hoffset, -, -, hid⟩ := getItemStep_spec h
    exact ⟨tableEntry_range hoffset, hid⟩

/-! ### The loops -/

/-- The loop of `FindItemIndex` returns if the items up to the one it looks for are read. -/
lemma exists_findLoop {getItem : ℤ → Option Item} {id i : ℤ} {n : ℕ}
    (h : ∀ k < n, (∀ j < k, ∃ item, getItem (i + (j : ℕ)) = some item ∧ item.id ≠ id) →
      ∃ item, getItem (i + (k : ℕ)) = some item) :
    ∃ r, findLoop getItem id i n = some r := by
  induction n generalizing i with
  | zero => exact ⟨-1, rfl⟩
  | succ n ih =>
    obtain ⟨item, hitem⟩ := h 0 (Nat.succ_pos n) fun j hj => absurd hj (Nat.not_lt_zero j)
    rw [Nat.cast_zero, add_zero] at hitem
    rw [findLoop, hitem, Option.bind_eq_bind, Option.bind_some]
    split_ifs with hid
    · exact ⟨i, rfl⟩
    · refine ih fun k hk hbefore => ?_
      have hnext := h (k + 1) (Nat.succ_lt_succ hk) ?_
      · rwa [Nat.cast_add, Nat.cast_one, add_comm (k : ℤ), ← add_assoc] at hnext
      · intro j hj
        cases j with
        | zero => exact ⟨item, by rwa [Nat.cast_zero, add_zero], hid⟩
        | succ j =>
          obtain ⟨item', hitem', hne⟩ := hbefore j (Nat.lt_of_succ_lt_succ hj)
          exact ⟨item', by rwa [Nat.cast_add, Nat.cast_one, add_comm (j : ℤ), ← add_assoc], hne⟩

/-- What the loop of `FindItemIndex` has found. -/
lemma findLoop_spec {getItem : ℤ → Option Item} {id i r : ℤ} {n : ℕ} (h : findLoop getItem id i n = some r) :
    r = -1 ∧ (∀ k < n, ∃ item, getItem (i + (k : ℕ)) = some item ∧ item.id ≠ id) ∨
      ∃ k < n, r = i + (k : ℕ) ∧ (∃ item, getItem r = some item ∧ item.id = id) ∧
        ∀ j < k, ∃ item, getItem (i + (j : ℕ)) = some item ∧ item.id ≠ id := by
  induction n generalizing i with
  | zero =>
    obtain rfl := Option.some.inj h
    exact .inl ⟨rfl, fun k hk => absurd hk (Nat.not_lt_zero k)⟩
  | succ n ih =>
    obtain ⟨item, hitem, h⟩ := Option.bind_eq_some_iff.1 h
    have hfirst : ∀ j, j = 0 → getItem (i + (j : ℕ)) = some item := by
      rintro j rfl
      rwa [Nat.cast_zero, add_zero]
    have hmove : ∀ k : ℕ, i + 1 + k = i + (k + 1 : ℕ) := fun k => by
      rw [Nat.cast_add, Nat.cast_one]
      omega
    split_ifs at h with hid
    · obtain rfl := Option.some.inj h
      refine .inr ⟨0, Nat.succ_pos n, ?_, ⟨item, hitem, hid⟩, fun j hj => absurd hj (Nat.not_lt_zero j)⟩
      rw [Nat.cast_zero, add_zero]
    · have hbefore : ∀ k, (∀ j < k, ∃ item, getItem (i + 1 + (j : ℕ)) = some item ∧ item.id ≠ id) →
          ∀ j < k + 1, ∃ item, getItem (i + (j : ℕ)) = some item ∧ item.id ≠ id := by
        intro k hrest j hj
        cases j with
        | zero => exact ⟨item, hfirst 0 rfl, hid⟩
        | succ j =>
          obtain ⟨item', hitem', hne⟩ := hrest j (Nat.lt_of_succ_lt_succ hj)
          exact ⟨item', by rwa [← hmove], hne⟩
      rcases ih h with ⟨hr, hall⟩ | ⟨k, hk, hr, hfound, hall⟩
      · exact .inl ⟨hr, hbefore n hall⟩
      · exact .inr ⟨k + 1, Nat.succ_lt_succ hk, by rw [hr, hmove], hfound, hbefore k hall⟩

lemma itemId_lt {i id : ℤ} (h : df.itemId i = some id) : id < offsetUuid := by
  obtain ⟨w, -, hid⟩ := Option.bind_eq_some_iff.1 h
  obtain rfl := Option.some.inj hid
  have hle : (w &&& 0xffff).toNat ≤ 0xffff := by
    rw [BitVec.toNat_and]
    exact Nat.and_le_right
  rw [offsetUuid]
  omega

lemma itemtypeEx_lt : itemtypeEx < offsetUuid := by decide

/-! ### Tables in order are safe -/

section order

variable (h : df.InOrder) (hchecked : df.Checked)

include h hchecked

/-- The items of a type are items of the file. -/
lemma type_index {type : ℤ} {range : ℤ × ℤ} (htype : type < offsetUuid) (hrange : df.lookupType type = some range)
    {k : ℕ} (hk : k < range.2.toNat) : ∃ i < df.numItems, range.1 + k = (i : ℕ) := by
  obtain ⟨hpos, hle⟩ := h.types type range htype hrange (by omega)
  exact ⟨(range.1 + k).toNat, by omega, by omega⟩

/-- An item is read if the descriptor that it needs is found. -/
lemma exists_getItemStep {getItem : ℤ → Option Item} {range : ℤ × ℤ} (hrange : df.lookupType itemtypeEx = some range)
    {i : ℕ} (hi : i < df.numItems) (hloop : ∀ type, df.internalType i = some type → UuidType type →
      ∃ r, findLoop getItem type range.1 range.2.toNat = some r) : ∃ item, df.getItemStep m getItem i = some item := by
  obtain ⟨offset, type, id, size, hoffset, htype, hid, -⟩ := exists_header h hchecked hi
  have hexternal : ∃ external, df.getExternalItemType m getItem type = some external := by
    rw [getExternalItemType]
    split_ifs with hplain
    · exact ⟨_, rfl⟩
    · obtain ⟨hgreater, hne⟩ := not_or.1 hplain
      obtain ⟨r, hr⟩ := hloop type htype ⟨not_le.1 hgreater, hne⟩
      have hindex : df.findItemIndex m getItem itemtypeEx type = some r := by
        rw [findItemIndex, getType, getInternalItemType, if_pos itemtypeEx_lt, Option.bind_eq_bind, Option.pure_def,
          Option.bind_eq_bind, Option.bind_some, hrange]
        exact hr
      rw [hindex, Option.bind_eq_bind, Option.bind_some]
      rcases findLoop_spec hr with ⟨rfl, -⟩ | ⟨k, hk, rfl, ⟨item, hitem, -⟩, -⟩
      · exact ⟨_, rfl⟩
      · obtain ⟨j, hj, hsum⟩ := type_index h hchecked itemtypeEx_lt hrange hk
        obtain ⟨-, -, -, size', -, -, -, hsize'⟩ := exists_header h hchecked hj
        rw [hsum, if_neg (by omega), hsize', Option.bind_eq_bind, Option.bind_some]
        split_ifs with hshort
        · exact ⟨_, rfl⟩
        · obtain ⟨itemEx, hitemEx⟩ := exists_itemEx h hchecked hj hsize' hshort
          rw [hsum] at hitem
          rw [hitem, hitemEx]
          exact ⟨_, rfl⟩
  obtain ⟨external, hexternal⟩ := hexternal
  refine ⟨⟨external.1, id, external.2, df.itemStart + offset.toInt + sizeofDatafileItem⟩, ?_⟩
  rw [getItemStep, hoffset, htype, hid]
  simp only [Option.bind_eq_bind, Option.bind_some, Option.pure_def, hexternal]

/-- The descriptors are read, one after the other. -/
lemma exists_getItem_descriptor {range : ℤ × ℤ} (hrange : df.lookupType itemtypeEx = some range) (n : ℕ) :
    n < range.2.toNat → ∀ fuel, n + 2 ≤ fuel → ∃ item, df.getItem m fuel (range.1 + n) = some item := by
  induction n using Nat.strong_induction_on with
  | _ n ih =>
    intro hn fuel hfuel
    obtain ⟨fuel, rfl⟩ := Nat.exists_eq_succ_of_ne_zero (by omega : fuel ≠ 0)
    obtain ⟨i, hi, hsum⟩ := type_index h hchecked itemtypeEx_lt hrange hn
    rw [hsum]
    refine exists_getItemStep h hchecked hrange hi ?_
    intro type htype huuid
    rw [← hsum] at htype
    obtain ⟨k, hk, hid⟩ := h.descriptors range hrange n (by omega) type htype huuid
    refine exists_findLoop fun k' hk' hbefore => ?_
    -- the loop does not come further than the item with the id
    have hle : k' ≤ k := by
      by_contra hlt
      obtain ⟨item, hitem, hne⟩ := hbefore k (by omega)
      have hid' := (getItem_spec hitem).2
      exact hne (Option.some.inj (hid'.symm.trans hid))
    exact ih k' (by omega) (by omega) fuel (by omega)

lemma exists_getItem {range : ℤ × ℤ} (hrange : df.lookupType itemtypeEx = some range) {fuel : ℕ}
    (hfuel : range.2.toNat + 2 ≤ fuel) {i : ℕ} (hi : i < df.numItems) : ∃ item, df.getItem m fuel i = some item := by
  obtain ⟨fuel, rfl⟩ := Nat.exists_eq_succ_of_ne_zero (by omega : fuel ≠ 0)
  refine exists_getItemStep h hchecked hrange hi ?_
  intro type htype huuid
  refine exists_findLoop fun k hk hbefore => ?_
  exact exists_getItem_descriptor h hchecked hrange k hk fuel (by omega)

lemma exists_uuidLoop {getItem : ℤ → Option Item} (hget : ∀ i < df.numItems, ∃ item, getItem (i : ℕ) = some item)
    (hid : ∀ i item, getItem i = some item → item.id < offsetUuid) (uuid : CUuid) {i : ℤ} {n : ℕ} (hrange : ∀ k < n, ∃ j < df.numItems, i + (k : ℕ) = (j : ℕ)) :
    ∃ r, df.uuidLoop getItem uuid i n = some r ∧ r < offsetUuid := by
  induction n generalizing i with
  | zero => exact ⟨-1, rfl, by decide⟩
  | succ n ih =>
    obtain ⟨r, hr, hlt⟩ := @ih (i + 1) fun k hk => by
      obtain ⟨j, hj, hsum⟩ := hrange (k + 1) (Nat.succ_lt_succ hk)
      exact ⟨j, hj, by rw [← hsum]; push_cast; ring⟩
    obtain ⟨j, hj, hsum⟩ := hrange 0 (Nat.succ_pos n)
    rw [Nat.cast_zero, add_zero] at hsum
    obtain ⟨-, -, -, size, -, -, -, hsize⟩ := exists_header h hchecked hj
    rw [uuidLoop, hsum, hsize, Option.bind_eq_bind, Option.bind_some, ← hsum]
    split_ifs with hshort
    · exact ⟨r, hr, hlt⟩
    · obtain ⟨item, hitem⟩ := hget j hj
      obtain ⟨itemEx, hitemEx⟩ := exists_itemEx h hchecked hj hsize hshort
      rw [hsum, hitem, hitemEx, ← hsum]
      simp only [Option.bind_eq_bind, Option.bind_some]
      split_ifs with huuid
      · exact ⟨item.id, rfl, hid j item hitem⟩
      · exact ⟨r, hr, hlt⟩

/-- The start and the number of the items of any type are found. -/
lemma exists_getType {range : ℤ × ℤ} (hrange : df.lookupType itemtypeEx = some range) {fuel : ℕ}
    (hfuel : range.2.toNat + 2 ≤ fuel) {type : ℤ} (htype : KnownType m type) :
    ∃ internal range', internal < offsetUuid ∧ df.lookupType internal = some range' ∧
      df.getType m (df.getItem m fuel) type = some range' := by
  have hloaded := h.loaded hchecked
  have hinternal : ∃ internal < offsetUuid,
      df.getInternalItemType m (df.getItem m fuel) type = some internal := by
    rw [getInternalItemType]
    split_ifs with hplain
    · exact ⟨type, hplain, rfl⟩
    · obtain ⟨uuid, huuid⟩ := Option.isSome_iff_exists.1 (htype.resolve_left hplain)
      obtain ⟨r, hr, hlt⟩ := exists_uuidLoop h hchecked (fun i hi => exists_getItem (m := m) h hchecked hrange hfuel hi)
        (fun i item hitem => itemId_lt (getItem_spec hitem).2) uuid fun k hk => type_index h hchecked itemtypeEx_lt hrange hk
      refine ⟨r, hlt, ?_⟩
      rw [huuid, Option.bind_eq_bind, Option.bind_some, hrange]
      exact hr
  obtain ⟨internal, hlt, hinternal⟩ := hinternal
  obtain ⟨range', hrange'⟩ := exists_lookupType hloaded internal
  refine ⟨internal, range', hlt, hrange', ?_⟩
  rw [getType, hinternal]
  exact hrange'

lemma exists_findItem {range : ℤ × ℤ} (hrange : df.lookupType itemtypeEx = some range) {fuel : ℕ}
    (hfuel : range.2.toNat + 2 ≤ fuel) {type : ℤ} (htype : KnownType m type) (id : ℤ) :
    ∃ item, df.findItem m fuel type id = some item := by
  obtain ⟨internal, range', hlt, hrange', hgetType⟩ := exists_getType h hchecked hrange hfuel htype
  obtain ⟨r, hr⟩ := @exists_findLoop (df.getItem m fuel) id range'.1 range'.2.toNat fun k hk hbefore => by
    obtain ⟨i, hi, hsum⟩ := type_index h hchecked hlt hrange' hk
    rw [hsum]
    exact exists_getItem h hchecked hrange hfuel hi
  have hindex : df.findItemIndex m (df.getItem m fuel) type id = some r := by
    rw [findItemIndex, hgetType]
    exact hr
  rw [findItem, hindex, Option.bind_eq_bind, Option.bind_some]
  split_ifs with hneg
  · exact ⟨_, rfl⟩
  · rcases findLoop_spec hr with ⟨rfl, -⟩ | ⟨k, hk, rfl, ⟨item, hitem, -⟩, -⟩
    · exact absurd (by decide) hneg
    · rw [hitem]
      exact ⟨_, rfl⟩

end order

/-! ### Data -/

/-- The tables of the data are read, whatever data has been loaded before. -/
lemma getFileDataSize_isSome (h : df.InOrder) (hchecked : df.Checked) {df' : CDatafile} (hheader : df'.header = df.header)
    (hdata : df'.data = df.data) {i : ℤ} (hi : ¬ (i < 0 ∨ df'.numRawData ≤ i)) :
    ∃ offset size, df'.dataOffset i = some offset ∧ df'.getFileDataSize i = some size ∧
      (df'.header.version = 4 → ∃ size, df'.dataSize i = some size) := by
  have hloaded := h.loaded hchecked
  have hloaded' : df'.itemStart + df'.header.itemSize.toNat ≤ df'.data.length := by
    have hstart : df'.itemStart = df.itemStart := by
      rw [itemStart, itemStart, dataSizesStart, dataSizesStart, dataOffsetsStart, dataOffsetsStart, itemOffsetsStart,
        itemOffsetsStart, numItemTypes, numItemTypes, numItems, numItems, numRawData, numRawData, hheader]
    rw [hstart, hheader, hdata]
    exact hloaded
  obtain ⟨hpos, hlt⟩ := not_or.1 hi
  obtain ⟨n, rfl⟩ := Int.eq_ofNat_of_zero_le (not_lt.1 hpos)
  have hn : n < df'.numRawData := by omega
  obtain ⟨offset, hoffset⟩ := exists_dataOffset hloaded' hn
  obtain ⟨next, -, hsize⟩ := exists_dataNext hloaded' hn
  exact ⟨offset, _, hoffset, hsize offset hoffset, fun hversion => exists_dataSize hloaded' hversion hn⟩

lemma getDataSize_isSome (h : df.InOrder) (hchecked : df.Checked) {df' : CDatafile} (hheader : df'.header = df.header)
    (hdata : df'.data = df.data) (hversion : df.header.version = 3 ∨ df.header.version = 4) (i : ℤ) :
    (df'.getDataSize i).isSome = true := by
  rw [getDataSize]
  split_ifs with hi hptr hfour hneg
  · rfl
  · have hversion' : df'.header.version = 4 := by
      rw [hheader] at hfour ⊢
      refine hversion.resolve_left fun hthree => ?_
      rw [hthree] at hfour
      exact absurd hfour (by decide)
    obtain ⟨-, -, -, -, hsize⟩ := getFileDataSize_isSome h hchecked hheader hdata hi
    obtain ⟨size, hsize⟩ := hsize hversion'
    rw [hsize]
    rfl
  · obtain ⟨-, size, -, hsize, -⟩ := getFileDataSize_isSome h hchecked hheader hdata hi
    rw [hsize]
    rfl
  · rfl
  · rfl

lemma getData_isSome (uncompress : List UInt8 → ℕ → Option (List UInt8)) (h : df.InOrder) (hchecked : df.Checked)
    {df' : CDatafile} (hheader : df'.header = df.header) (hdata : df'.data = df.data) (i : ℤ) :
    (df'.getData uncompress i).isSome = true := by
  rw [getData]
  by_cases hi : i < 0 ∨ df'.numRawData ≤ i
  · rw [if_pos hi]
    rfl
  · obtain ⟨offset, size, hoffset, hsize, hdataSize⟩ := getFileDataSize_isSome h hchecked hheader hdata hi
    rw [if_neg hi]
    cases hptr : df'.dataPtrs i.toNat with
    | some data => rfl
    | none =>
      dsimp only
      by_cases hneg : (df'.dataSizes i.toNat).toInt < 0
      · rw [if_pos hneg]
        rfl
      · rw [if_neg hneg, hsize, hoffset]
        simp only [Option.bind_eq_bind, Option.bind_some]
        by_cases hversion : df'.header.version = 4
        · obtain ⟨size', hsize'⟩ := hdataSize hversion
          rw [if_pos hversion, hsize', Option.bind_some]
          split_ifs
          · rfl
          · split
            · split_ifs <;> rfl
            · rfl
        · rw [if_neg hversion]
          split_ifs <;> rfl

/-! ### Safe tables are in order -/

/-- A loop that is read to its end has read every item. -/
lemma exists_of_findLoop {getItem : ℤ → Option Item} {i r : ℤ} {n : ℕ}
    (hid : ∀ j item, getItem j = some item → 0 ≤ item.id) (h : findLoop getItem (-1) i n = some r) :
    ∀ k < n, ∃ item, getItem (i + (k : ℕ)) = some item := by
  rcases findLoop_spec h with ⟨-, hall⟩ | ⟨k, -, -, ⟨item, hitem, hfound⟩, -⟩
  · intro k hk
    obtain ⟨item, hitem, -⟩ := hall k hk
    exact ⟨item, hitem⟩
  · have hpos := hid _ item hitem
    omega

variable {uncompress : List UInt8 → ℕ → Option (List UInt8)}

/-- Every index of a type is read if an id is looked for that no item has. -/
lemma SafeToRead.types (h : df.SafeToRead m uncompress) {type : ℤ} {range : ℤ × ℤ} (htype : type < offsetUuid)
    (hrange : df.lookupType type = some range) (hnum : 0 < range.2) :
    0 ≤ range.1 ∧ range.1 + range.2 ≤ df.numItems := by
  obtain ⟨fuel, item, hitem⟩ := h.findItem type (.inl htype) (-1)
  obtain ⟨r, hindex, -⟩ := Option.bind_eq_some_iff.1 hitem
  rw [findItemIndex, CDatafile.getType, getInternalItemType, if_pos htype, Option.bind_eq_bind, Option.pure_def,
    Option.bind_eq_bind, Option.bind_some, hrange, Option.bind_some] at hindex
  have hall := exists_of_findLoop (fun j item hj => itemId_nonneg (getItem_spec hj).2) hindex
  obtain ⟨first, hfirst⟩ := hall 0 (by omega)
  obtain ⟨last, hlast⟩ := hall (range.2.toNat - 1) (by omega)
  have hfirst' := (getItem_spec hfirst).1
  have hlast' := (getItem_spec hlast).1
  omega

/-- An item that needs a descriptor which does not come before it is not read, with any fuel. -/
lemma getItem_eq_none {range : ℤ × ℤ} (hrange : df.lookupType itemtypeEx = some range) {n : ℕ}
    (hn : n < range.2.toNat) {type : ℤ} (htype : df.internalType (range.1 + n) = some type) (huuid : UuidType type)
    (hnone : ∀ k < n, df.itemId (range.1 + k) ≠ some type) (fuel : ℕ) : df.getItem m fuel (range.1 + n) = none := by
  induction fuel with
  | zero => rfl
  | succ fuel ih =>
    by_contra hsome
    obtain ⟨item, hitem⟩ := Option.ne_none_iff_exists'.1 hsome
    obtain ⟨offset, internal, -, hinternal, hexternal, -⟩ := getItemStep_spec hitem
    obtain rfl := Option.some.inj (hinternal.symm.trans htype)
    rw [getExternalItemType, if_neg (not_or.2 ⟨not_le.2 huuid.1, huuid.2⟩)] at hexternal
    obtain ⟨r, hindex, -⟩ := Option.bind_eq_some_iff.1 hexternal
    rw [findItemIndex, getType, getInternalItemType, if_pos itemtypeEx_lt, Option.bind_eq_bind, Option.pure_def,
      Option.bind_eq_bind, Option.bind_some, hrange, Option.bind_some] at hindex
    -- the loop comes to the item itself
    have hself : ∃ item, df.getItem m fuel (range.1 + n) = some item := by
      rcases findLoop_spec hindex with ⟨-, hall⟩ | ⟨k, hk, rfl, ⟨found, hfound, hid⟩, hall⟩
      · obtain ⟨found, hfound, -⟩ := hall n hn
        exact ⟨found, hfound⟩
      · rcases Nat.lt_trichotomy k n with hlt | heq | hlt
        · have hid' := (getItem_spec hfound).2
          rw [hid] at hid'
          exact absurd hid' (hnone k hlt)
        · rw [heq] at hfound
          exact ⟨found, hfound⟩
        · obtain ⟨found, hfound, -⟩ := hall n hlt
          exact ⟨found, hfound⟩
    obtain ⟨found, hfound⟩ := hself
    rw [ih] at hfound
    exact absurd hfound nofun

lemma SafeToRead.descriptors (h : df.SafeToRead m uncompress) {range : ℤ × ℤ}
    (hrange : df.lookupType itemtypeEx = some range) {n : ℕ} (hn : n < range.2) {type : ℤ}
    (htype : df.internalType (range.1 + n) = some type) (huuid : UuidType type) :
    ∃ k < n, df.itemId (range.1 + k) = some type := by
  by_contra hnone
  obtain ⟨hpos, hle⟩ := h.types itemtypeEx_lt hrange (by omega)
  obtain ⟨fuel, item, hitem⟩ := h.getItem (range.1 + n).toNat (by omega)
  rw [Int.toNat_of_nonneg (by omega)] at hitem
  have hnot := getItem_eq_none (m := m) hrange (by omega : n < range.2.toNat) htype huuid
    (fun k hk hid => hnone ⟨k, hk, hid⟩) fuel
  rw [hnot] at hitem
  exact absurd hitem nofun

/-! ### What `Open` has checked -/

lemma checked_of_open {file : List UInt8} (h : openDatafile file = .opened df) :
    df.Checked ∧ (df.header.version = 3 ∨ df.header.version = 4) := by
  rw [openDatafile] at h
  split at h
  · exact absurd h nofun
  · next header hheader =>
    split_ifs at h with hid hversion hsize halloc
    dsimp only at h
    split_ifs at h with hlength
    obtain rfl := OpenResult.opened.inj h
    simp only [not_or, not_lt] at hsize
    obtain ⟨-, htypes, hitems, hraw, hitemSize⟩ := hsize
    refine ⟨⟨not_not.1 hlength, htypes, hitems, hraw, hitemSize⟩, ?_⟩
    by_contra hnone
    exact hversion (not_or.1 hnone)

end CDatafile

/-- A file that is accepted can be read, without reading anything that is not loaded, if and only if its tables are in
order. -/
theorem readsSafely_iff (m : CUuidManager) (uncompress : List UInt8 → ℕ → Option (List UInt8)) (file : List UInt8) :
    ReadsSafely m uncompress file ↔ FileInOrder file := by
  rw [ReadsSafely, FileInOrder]
  cases hopen : openDatafile file with
  | rejected => exact Iff.rfl
  | overrun => exact Iff.rfl
  | opened df =>
    obtain ⟨hchecked, hversion⟩ := checked_of_open hopen
    constructor
    · intro h
      refine ⟨?_, fun i hi => h.itemBound hi, fun i hi => h.dataBound hi, ?_, ?_⟩
      · have hloaded := h.loaded
        rw [hchecked.length] at hloaded
        exact hloaded.trans_lt df.header.loadSize.isLt
      · exact fun type range htype hrange hnum => h.types htype hrange hnum
      · exact fun range hrange n hn type htype huuid => h.descriptors hrange hn htype huuid
    · intro h
      obtain ⟨range, hrange⟩ := exists_lookupType (h.loaded hchecked) itemtypeEx
      refine ⟨h.loaded hchecked, ?_, ?_, fun i hi => h.data hchecked hi, ?_, ?_, ?_, ?_, ?_⟩
      · intro i hi
        obtain ⟨offset, size, hoffset, hsize, hpos, hsizepos, -, hnext⟩ := h.item hchecked hi
        have hle : df.itemBound (i + 1) ≤ df.itemBound df.numItems := h.itemBound_le (by omega) (le_refl _)
        rw [hnext, show df.itemBound df.numItems = df.header.itemSize.toInt from if_neg (lt_irrefl _)] at hle
        exact ⟨offset, size, hoffset, hsize, hpos, hsizepos, hle⟩
      · intro i j hij hj offset size offset' hoffset hsize hoffset'
        obtain ⟨_, _, hoffset'', hsize'', -, -, -, hnext⟩ := h.item hchecked (hij.trans hj)
        obtain rfl := Option.some.inj (hoffset.symm.trans hoffset'')
        obtain rfl := Option.some.inj (hsize.symm.trans hsize'')
        have hle : df.itemBound (i + 1) ≤ df.itemBound j := h.itemBound_le hij hj.le
        rwa [hnext, itemBound_eq hj hoffset'] at hle
      · intro i hi
        exact ⟨_, exists_getItem h hchecked hrange (le_refl _) hi⟩
      · intro type htype
        obtain ⟨-, range', -, -, hrange'⟩ := exists_getType h hchecked hrange (le_refl _) htype
        exact ⟨_, range', hrange'⟩
      · intro type htype id
        exact ⟨_, exists_findItem h hchecked hrange (le_refl _) htype id⟩
      · exact fun df' hheader hdata i => getDataSize_isSome h hchecked hheader hdata hversion i
      · exact fun df' hheader hdata i => getData_isSome uncompress h hchecked hheader hdata i

/-- A file with a descriptor that has itself a uuid: `GetItem` looks for its type among the descriptors, and reads the
descriptor again. -/
def descriptorFile : List UInt8 :=
  [0x44, 0x41, 0x54, 0x41] ++ tableBytes ([4, 48, 48, 1, 1, 0, 8, 0] ++ [0xffff, 0, 1] ++ [0] ++ [0x90000000, 0])

theorem descriptorFile_unsafe : ¬ ReadsSafely ⟨[], List.nodup_nil⟩ (fun _ _ => none) descriptorFile := by
  have hopen : openDatafile descriptorFile = .opened ⟨⟨4, 48, 48, 1, 1, 0, 8, 0⟩,
      tableBytes ([0xffff, 0, 1] ++ [0] ++ [0x90000000, 0]), descriptorFile, fun _ => none, fun _ => 0⟩ := by
    rfl
  rw [ReadsSafely, hopen]
  intro h
  obtain ⟨fuel, item, hitem⟩ := h.getItem 0 (by decide)
  have hnone := @getItem_eq_none ⟨[], List.nodup_nil⟩ ⟨⟨4, 48, 48, 1, 1, 0, 8, 0⟩, tableBytes ([0xffff, 0, 1] ++ [0] ++ [0x90000000, 0]),
    descriptorFile, fun _ => none, fun _ => 0⟩ (0, 1) (by decide) 0 (by decide) 0x9000 (by decide)
    ⟨by decide, by decide⟩ (fun k hk => absurd hk (Nat.not_lt_zero k)) fuel
  rw [Nat.cast_zero, add_zero] at hnone
  exact absurd (hnone.symm.trans hitem) nofun

end DDNet
