/-
What `CDataFileWriter::Finish` writes, and what `CDataFileReader` finds there.

The items of a type are found along the links in the order in which they were added (`typeItems_eq`).  Offsets, sizes
and item types are those that the reader takes them for, if the file has a `Layout`; `finish_opens` says that it has.
-/
import DDNet.Shared.DatafileSafe
import DDNet.Shared.DatafileWriter

namespace DDNet

open Lib

namespace CDataFileWriter

/-! ### Links -/

/-- The indices of the items of a type. -/
def indices (items : List CItemInfo) (type : ℤ) : List ℕ :=
  (List.range items.length).filter fun i => (items[i]?.map CItemInfo.type) = some type

lemma indices_append (items : List CItemInfo) (item : CItemInfo) (type : ℤ) :
    indices (items ++ [item]) type = indices items type ++ if item.type = type then [items.length] else [] := by
  have hold : (List.range items.length).filter (fun i => ((items ++ [item])[i]?.map CItemInfo.type) = some type) =
      indices items type := by
    refine List.filter_congr fun i hi => ?_
    rw [List.getElem?_append_left (List.mem_range.1 hi)]
  rw [indices, List.length_append, List.length_singleton, List.range_succ, List.filter_append, hold]
  congr 1
  rw [List.filter_cons, List.getElem?_append_right (le_refl _), Nat.sub_self]
  split_ifs with h h' h' <;> simp_all

lemma indices_lt {items : List CItemInfo} {type : ℤ} {i : ℕ} (h : i ∈ indices items type) : i < items.length :=
  List.mem_range.1 (List.mem_filter.1 h).1

lemma indices_nodup (items : List CItemInfo) (type : ℤ) : (indices items type).Nodup :=
  List.nodup_range.filter _

lemma indices_items (items : List CItemInfo) (type : ℤ) :
    ((indices items type).filterMap fun i => items[i]?) = items.filter fun item => item.type = type := by
  induction items using List.reverseRecOn with
  | nil => rfl
  | append_singleton items item ih =>
    have hold : ((indices items type).filterMap fun i => (items ++ [item])[i]?) =
        (indices items type).filterMap fun i => items[i]? := by
      refine List.filterMap_congr fun i hi => ?_
      rw [List.getElem?_append_left (indices_lt hi)]
    rw [indices_append, List.filterMap_append, hold, ih, List.filter_append]
    congr 1
    split_ifs with h
    · simp [h]
    · simp [h]

lemma length_indices (items : List CItemInfo) (type : ℤ) :
    (indices items type).length = (items.filter fun item => item.type = type).length := by
  induction items using List.reverseRecOn with
  | nil => rfl
  | append_singleton items item ih =>
    rw [indices_append, List.length_append, ih, List.filter_append, List.length_append]
    congr 1
    split_ifs with h
    · simp [h]
    · simp [h]

/-- The items of every type are linked in the order in which they were added. -/
def Links (w : CDataFileWriter) : Prop :=
  ∀ type, Linked w.next w.prev none (indices w.items type) none ∧
    (w.itemTypes type).first = (indices w.items type).head? ∧
      (w.itemTypes type).last = (indices w.items type).getLast? ∧
        (w.itemTypes type).num = (indices w.items type).length

lemma links_empty : Links empty := fun _ => ⟨trivial, rfl, rfl, rfl⟩

lemma Links.linkItem {w : CDataFileWriter} (h : w.Links) (type id : ℤ) (data : List UInt8) :
    (w.linkItem type id data).Links := by
  intro type'
  obtain ⟨hlinked, hfirst, hlast, hnum⟩ := h type'
  have hindices : indices (w.linkItem type id data).items type' =
      indices w.items type' ++ if type = type' then [w.items.length] else [] :=
    indices_append _ _ _
  have hnew : ∀ i ∈ indices w.items type', i ≠ w.items.length := fun i hi => (indices_lt hi).ne
  rw [hindices]
  by_cases hsame : type = type'
  · subst hsame
    rw [if_pos rfl]
    have hinfo : (w.linkItem type id data).itemTypes type =
        { num := (w.itemTypes type).num + 1, first := (w.itemTypes type).first.or (some w.items.length),
          last := some w.items.length } := Function.update_self _ _ _
    rw [hinfo]
    refine ⟨?_, ?_, ?_, ?_⟩
    · -- the old items, with the new one behind, and the new one
      have hframe : Linked (Function.update w.next w.items.length none)
          (Function.update w.prev w.items.length (w.itemTypes type).last) none (indices w.items type) none := by
        refine (linked_congr fun i hi => ?_).2 hlinked
        rw [Function.update_of_ne (hnew i hi), Function.update_of_ne (hnew i hi)]
        exact ⟨rfl, rfl⟩
      rw [linked_append]
      constructor
      · have hset := hframe.setNext (indices_nodup _ _) (some w.items.length)
        rw [← hlast] at hset
        exact hset
      · refine ⟨?_, ?_, trivial⟩
        · show Function.update w.prev _ _ _ = _
          rw [Function.update_self, hlast, Option.or_none]
        · show setAt _ _ _ _ = _
          have hne : some w.items.length ≠ (w.itemTypes type).last := by
            rw [hlast]
            intro heq
            exact hnew _ (List.mem_of_getLast? heq.symm) rfl
          rw [setAt_of_ne hne, Function.update_self]
          rfl
    · rw [hfirst, List.head?_append]
      rfl
    · rw [List.getLast?_concat]
    · rw [hnum, List.length_append, List.length_singleton]
  · rw [if_neg hsame, List.append_nil]
    have hinfo : (w.linkItem type id data).itemTypes type' = w.itemTypes type' :=
      Function.update_of_ne (Ne.symm hsame) _ _
    rw [hinfo]
    refine ⟨(linked_congr fun i hi => ?_).2 hlinked, hfirst, hlast, hnum⟩
    constructor
    · -- the last item of the type of the new one is of another type
      have hne : some i ≠ (w.itemTypes type).last := by
        intro heq
        obtain ⟨-, -, hlast', -⟩ := h type
        rw [hlast'] at heq
        have hmem := List.mem_of_getLast? heq.symm
        have htype := (List.mem_filter.1 hi).2
        have htype' := (List.mem_filter.1 hmem).2
        rw [decide_eq_true_eq] at htype htype'
        exact hsame (Option.some.inj (htype'.symm.trans htype))
      show setAt _ _ _ _ = _
      rw [setAt_of_ne hne, Function.update_of_ne (hnew i hi)]
    · show Function.update w.prev _ _ _ = _
      rw [Function.update_of_ne (hnew i hi)]

lemma follow_of_linked {next prev : ℕ → Option ℕ} {p : Option ℕ} {xs : List ℕ} (h : Linked next prev p xs none)
    {fuel : ℕ} (hfuel : xs.length ≤ fuel) : follow next fuel xs.head? = xs := by
  induction xs generalizing p fuel with
  | nil => cases fuel <;> rfl
  | cons x xs ih =>
    obtain ⟨fuel, rfl⟩ := Nat.exists_eq_add_of_le' (Nat.le_trans (Nat.le_add_left 1 _) hfuel)
    obtain ⟨-, hnext, hrest⟩ := h
    rw [Option.or_none] at hnext
    rw [List.head?_cons, follow, hnext, ih hrest (Nat.le_of_succ_le_succ hfuel)]

/-- `Finish` finds the items of a type in the order in which they were added. -/
lemma typeItems_eq {w : CDataFileWriter} (h : w.Links) (type : ℤ) :
    w.typeItems type = w.items.filter fun item => item.type = type := by
  obtain ⟨hlinked, hfirst, -, -⟩ := h type
  have hle : (indices w.items type).length ≤ w.items.length := by
    rw [length_indices]
    exact List.length_filter_le _ _
  rw [typeItems, hfirst, follow_of_linked hlinked hle, indices_items]

lemma num_eq {w : CDataFileWriter} (h : w.Links) (type : ℤ) : (w.itemTypes type).num = (w.typeItems type).length := by
  obtain ⟨-, -, -, hnum⟩ := h type
  rw [hnum, length_indices, typeItems_eq h]

end CDataFileWriter

/-! ### The layout of a file -/

/-- The ints of an item type. -/
def entryInts (entry : ℤ × ℕ × ℕ) : List (BitVec 32) :=
  [BitVec.ofInt 32 entry.1, BitVec.ofNat 32 entry.2.1, BitVec.ofNat 32 entry.2.2]

/-- The numbers of an item type are ints, and not negative. -/
def EntryFits (entry : ℤ × ℕ × ℕ) : Prop := 0 ≤ entry.1 ∧ entry.1 ≤ maxInt ∧ entry.2.1 ≤ maxInt ∧ entry.2.2 ≤ maxInt

/-- The size of an item with its header. -/
def storedSize (item : CItemInfo) : ℕ := item.data.length + sizeofDatafileItem

/-- A file with these item types, items and data, and the sizes of the data before it was compressed. -/
structure Layout (df : CDatafile) (entries : List (ℤ × ℕ × ℕ)) (items : List CItemInfo) (datas : List (List UInt8))
    (sizes : List ℕ) : Prop where
  version : df.header.version = 4
  numItemTypes : df.header.numItemTypes = BitVec.ofNat 32 entries.length
  numItems : df.header.numItems = BitVec.ofNat 32 items.length
  numRawData : df.header.numRawData = BitVec.ofNat 32 datas.length
  itemSize : df.header.itemSize = BitVec.ofNat 32 (items.map storedSize).sum
  dataSize : df.header.dataSize = BitVec.ofNat 32 (datas.map List.length).sum
  data : df.data = tableBytes (entries.flatMap entryInts) ++
    (tableBytes (CDataFileWriter.offsetTable (items.map storedSize) 0) ++
      (tableBytes (CDataFileWriter.offsetTable (datas.map List.length) 0) ++
        (tableBytes (sizes.map fun size => BitVec.ofNat 32 size) ++ items.flatMap CDataFileWriter.itemBytes)))
  file : ∃ head : List UInt8, head.length = sizeofDatafileHeader ∧ df.file = head ++ (df.data ++ datas.flatten)
  sizes_length : sizes.length = datas.length
  fits : sizeofDatafileHeader + 12 * entries.length + (items.length + datas.length * 2) * 4 +
    (items.map storedSize).sum + (datas.map List.length).sum ≤ maxInt

lemma toNat_ofNat_of_lt' {n : ℕ} (h : n ≤ maxInt) : (BitVec.ofNat 32 n).toNat = n := by
  rw [maxInt] at h
  rw [BitVec.toNat_ofNat]
  omega

lemma toInt_ofNat_of_le {n : ℕ} (h : n ≤ maxInt) : (BitVec.ofNat 32 n).toInt = n := by
  have hlt : n ≤ 2 ^ 31 - 1 := h
  rw [BitVec.toInt_eq_toNat_of_lt (by rw [toNat_ofNat_of_lt' h]; omega), toNat_ofNat_of_lt' h]

lemma toInt_ofInt_of_lt {i : ℤ} (hlow : 0 ≤ i) (hhigh : i ≤ maxInt) : (BitVec.ofInt 32 i).toInt = i := by
  rw [maxInt] at hhigh
  rw [BitVec.toInt_ofInt]
  exact Int.bmod_eq_of_le (by omega) (by omega)

/-- The size between two offsets. -/
lemma ofNat_add_sub (offset size : ℕ) :
    BitVec.ofNat 32 (offset + (size + 8)) - BitVec.ofNat 32 offset - 8 = BitVec.ofNat 32 size := by
  have h8 : (8 : BitVec 32).toNat = 8 := rfl
  refine BitVec.eq_of_toNat_eq ?_
  simp only [BitVec.toNat_sub, BitVec.toNat_ofNat, h8]
  omega

lemma length_offsetTable (sizes : List ℕ) (offset : ℕ) :
    (CDataFileWriter.offsetTable sizes offset).length = sizes.length := by
  induction sizes generalizing offset with
  | nil => rfl
  | cons size sizes ih => rw [CDataFileWriter.offsetTable, List.length_cons, List.length_cons, ih]

/-- The offsets add up the sizes. -/
lemma offsetTable_getElem {sizes : List ℕ} {offset i : ℕ} (h : i < (CDataFileWriter.offsetTable sizes offset).length) :
    (CDataFileWriter.offsetTable sizes offset)[i] = BitVec.ofNat 32 (offset + (sizes.take i).sum) := by
  induction sizes generalizing offset i with
  | nil => exact absurd h (Nat.not_lt_zero _)
  | cons size sizes ih =>
    cases i with
    | zero => rfl
    | succ i =>
      simp only [CDataFileWriter.offsetTable, List.getElem_cons_succ]
      rw [ih, List.take_succ_cons, List.sum_cons, Nat.add_assoc]

lemma sum_take_le (sizes : List ℕ) (i : ℕ) : (sizes.take i).sum ≤ sizes.sum := by
  conv_rhs => rw [← List.take_append_drop i sizes]
  rw [List.sum_append]
  exact Nat.le_add_right _ _

lemma sum_take_succ {sizes : List ℕ} {i : ℕ} (h : i < sizes.length) :
    (sizes.take (i + 1)).sum = (sizes.take i).sum + sizes[i] := by
  rw [List.take_add_one, List.getElem?_eq_getElem h, List.sum_append]
  rfl

lemma length_itemBytes (item : CItemInfo) : (CDataFileWriter.itemBytes item).length = storedSize item := by
  rw [CDataFileWriter.itemBytes, List.length_append, length_tableBytes, storedSize, Nat.add_comm]
  rfl

lemma length_flatMap_itemBytes (items : List CItemInfo) :
    (items.flatMap CDataFileWriter.itemBytes).length = (items.map storedSize).sum := by
  rw [List.length_flatMap]
  exact congrArg List.sum (List.map_congr_left fun item _ => length_itemBytes item)

lemma length_flatMap_entryInts (entries : List (ℤ × ℕ × ℕ)) : (entries.flatMap entryInts).length = 3 * entries.length := by
  induction entries with
  | nil => rfl
  | cons entry entries ih =>
    rw [List.flatMap_cons, List.length_append, ih, List.length_cons]
    show 3 + _ = _
    ring

/-! ### The header of an item -/

/-- The type and the id of an item fit into their parts of an int. -/
def CItemInfo.Fits (item : CItemInfo) : Prop :=
  (0 ≤ item.type ∧ item.type < maxItemTypes) ∧ (0 ≤ item.id ∧ item.id ≤ itemtypeEx)

/-- The type and the id of an item, in one int. -/
lemma typeAndId_eq {type id : ℕ} (hid : id < 2 ^ 16) :
    BitVec.ofInt 32 type <<< 16 ||| BitVec.ofInt 32 id = BitVec.ofNat 32 (type * 2 ^ 16 + id) := by
  refine BitVec.eq_of_toNat_eq ?_
  rw [BitVec.toNat_or, BitVec.toNat_shiftLeft, BitVec.ofInt_natCast, BitVec.ofInt_natCast, BitVec.toNat_ofNat,
    BitVec.toNat_ofNat, BitVec.toNat_ofNat, Nat.shiftLeft_eq, Nat.mod_eq_of_lt (by omega : id < 2 ^ 32)]
  have hshift : type % 2 ^ 32 * 2 ^ 16 % 2 ^ 32 = type % 2 ^ 16 * 2 ^ 16 := by omega
  rw [hshift, ← Nat.shiftLeft_eq, ← Nat.shiftLeft_add_eq_or_of_lt hid, Nat.shiftLeft_eq]
  omega

lemma type_of_typeAndId {type id : ℕ} (htype : type < 2 ^ 16) (hid : id < 2 ^ 16) :
    (((BitVec.ofNat 32 (type * 2 ^ 16 + id)).sshiftRight 16) &&& 0xffff).toNat = type := by
  have hword : (BitVec.ofNat 32 (type * 2 ^ 16 + id)).toNat = type * 2 ^ 16 + id := by
    rw [BitVec.toNat_ofNat]
    omega
  have hshift : ((BitVec.ofNat 32 (type * 2 ^ 16 + id)).sshiftRight 16).toNat % 2 ^ 16 = type := by
    rw [BitVec.sshiftRight, BitVec.toNat_ofInt, BitVec.toInt_eq_toNat_cond, hword, Int.shiftRight_eq_div_pow]
    split_ifs <;> omega
  rw [BitVec.toNat_and, show (0xffff : BitVec 32).toNat = 2 ^ 16 - 1 from rfl, Nat.and_two_pow_sub_one_eq_mod, hshift]

lemma id_of_typeAndId (type : ℕ) {id : ℕ} (hid : id < 2 ^ 16) :
    (BitVec.ofNat 32 (type * 2 ^ 16 + id) &&& 0xffff).toNat = id := by
  rw [BitVec.toNat_and, show (0xffff : BitVec 32).toNat = 2 ^ 16 - 1 from rfl, Nat.and_two_pow_sub_one_eq_mod,
    BitVec.toNat_ofNat]
  omega

namespace Layout

variable {df : CDatafile} {entries : List (ℤ × ℕ × ℕ)} {items : List CItemInfo} {datas : List (List UInt8)}
  {sizes : List ℕ} (h : Layout df entries items datas sizes)

include h

lemma numItemTypes_eq : df.numItemTypes = entries.length := by
  have hfits := h.fits
  rw [CDatafile.numItemTypes, h.numItemTypes, toNat_ofNat_of_lt' (by omega)]

lemma numItems_eq : df.numItems = items.length := by
  have hfits := h.fits
  rw [CDatafile.numItems, h.numItems, toNat_ofNat_of_lt' (by omega)]

lemma numRawData_eq : df.numRawData = datas.length := by
  have hfits := h.fits
  rw [CDatafile.numRawData, h.numRawData, toNat_ofNat_of_lt' (by omega)]

lemma itemStart_eq : df.itemStart = 12 * entries.length + (items.length + datas.length * 2) * 4 := by
  rw [CDatafile.itemStart, if_pos h.version, CDatafile.dataSizesStart, CDatafile.dataOffsetsStart,
    CDatafile.itemOffsetsStart, h.numItemTypes_eq, h.numItems_eq, h.numRawData_eq]
  ring

/-- An entry of a table that is in the data. -/
lemma wordAt_data {pre table rest : List UInt8} {ws : List (BitVec 32)} (hdata : df.data = pre ++ (table ++ rest))
    (htable : table = tableBytes ws) {start i : ℕ} (hstart : start = pre.length) (hi : i < ws.length) :
    wordAt df.data (start + 4 * i) = some ws[i] := by
  rw [hdata, hstart, wordAt_append_right, htable, wordAt_table ws rest hi]

lemma length_typeTable : (tableBytes (entries.flatMap entryInts)).length = df.itemOffsetsStart := by
  rw [length_tableBytes, length_flatMap_entryInts, CDatafile.itemOffsetsStart, h.numItemTypes_eq]
  ring

/-! ### Offsets and sizes -/

lemma itemOffset_eq {i : ℕ} (hi : i < items.length) :
    df.itemOffset i = some (BitVec.ofNat 32 ((items.map storedSize).take i).sum) := by
  have hlt : i < (CDataFileWriter.offsetTable (items.map storedSize) 0).length := by
    rwa [length_offsetTable, List.length_map]
  have hentry := h.wordAt_data h.data rfl h.length_typeTable.symm hlt
  rw [offsetTable_getElem, Nat.zero_add] at hentry
  rw [CDatafile.itemOffset, CDatafile.tableEntry, h.numItems_eq, if_pos ⟨by omega, by omega⟩, Int.toNat_natCast]
  exact hentry

lemma dataOffset_eq {i : ℕ} (hi : i < datas.length) :
    df.dataOffset i = some (BitVec.ofNat 32 ((datas.map List.length).take i).sum) := by
  have hlt : i < (CDataFileWriter.offsetTable (datas.map List.length) 0).length := by
    rwa [length_offsetTable, List.length_map]
  have hdata := h.data
  rw [← List.append_assoc] at hdata
  have hstart : df.dataOffsetsStart = (tableBytes (entries.flatMap entryInts) ++
      tableBytes (CDataFileWriter.offsetTable (items.map storedSize) 0)).length := by
    rw [List.length_append, h.length_typeTable, length_tableBytes, length_offsetTable, List.length_map,
      CDatafile.dataOffsetsStart, h.numItems_eq]
  have hentry := h.wordAt_data hdata rfl hstart hlt
  rw [offsetTable_getElem, Nat.zero_add] at hentry
  rw [CDatafile.dataOffset, CDatafile.tableEntry, h.numRawData_eq, if_pos ⟨by omega, by omega⟩, Int.toNat_natCast]
  exact hentry

lemma dataSize_eq {i : ℕ} (hi : i < sizes.length) : df.dataSize i = some (BitVec.ofNat 32 sizes[i]) := by
  have hlt : i < (sizes.map fun size => BitVec.ofNat 32 size).length := by rwa [List.length_map]
  have hdata := h.data
  rw [← List.append_assoc, ← List.append_assoc] at hdata
  have hstart : df.dataSizesStart = ((tableBytes (entries.flatMap entryInts) ++
      tableBytes (CDataFileWriter.offsetTable (items.map storedSize) 0)) ++
        tableBytes (CDataFileWriter.offsetTable (datas.map List.length) 0)).length := by
    rw [List.length_append, List.length_append, h.length_typeTable, length_tableBytes, length_tableBytes,
      length_offsetTable, length_offsetTable, List.length_map, List.length_map, CDatafile.dataSizesStart,
      CDatafile.dataOffsetsStart, h.numItems_eq, h.numRawData_eq]
  have hentry := h.wordAt_data hdata rfl hstart hlt
  rw [List.getElem_map] at hentry
  have hsizes := h.sizes_length
  rw [CDatafile.dataSize, CDatafile.tableEntry, h.numRawData_eq, if_pos ⟨by omega, by omega⟩, Int.toNat_natCast]
  exact hentry

/-- The size of an item, from its offset and the next one. -/
lemma getItemSize_eq {i : ℕ} (hi : i < items.length) :
    df.getItemSize i = some (BitVec.ofNat 32 items[i].data.length) := by
  have hlt : i < (items.map storedSize).length := by rwa [List.length_map]
  have hsum := sum_take_succ hlt
  rw [List.getElem_map, storedSize, sizeofDatafileItem] at hsum
  rw [CDatafile.getItemSize, h.numItems_eq, h.itemOffset_eq hi]
  split_ifs with hlast
  · have hall : (items.map storedSize).sum = ((items.map storedSize).take (i + 1)).sum := by
      rw [List.take_of_length_le]
      rw [List.length_map]
      omega
    rw [h.itemSize, Option.bind_eq_bind, Option.bind_some, hall, hsum, ofNat_add_sub]
    rfl
  · have hnext := h.itemOffset_eq (by omega : i + 1 < items.length)
    rw [Nat.cast_add, Nat.cast_one] at hnext
    rw [hnext, Option.bind_eq_bind, Option.bind_some, Option.bind_some, hsum, ofNat_add_sub]
    rfl

/-! ### Items -/

/-- The bytes of an item, behind those of the items before. -/
lemma data_item {i : ℕ} (hi : i < items.length) : ∃ front rest, df.data = front ++ (CDataFileWriter.itemBytes items[i] ++ rest) ∧
    front.length = df.itemStart + ((items.map storedSize).take i).sum := by
  have hsplit : items.flatMap CDataFileWriter.itemBytes = (items.take i).flatMap CDataFileWriter.itemBytes ++
      (CDataFileWriter.itemBytes items[i] ++ (items.drop (i + 1)).flatMap CDataFileWriter.itemBytes) := by
    conv_lhs => rw [← List.take_append_drop i items, List.drop_eq_getElem_cons hi]
    rw [List.flatMap_append, List.flatMap_cons]
  have hdata := h.data
  rw [hsplit] at hdata
  simp only [← List.append_assoc] at hdata
  simp only [List.append_assoc _ (CDataFileWriter.itemBytes items[i])] at hdata
  refine ⟨_, _, hdata, ?_⟩
  have hsizes := h.sizes_length
  simp only [List.length_append, h.length_typeTable, length_tableBytes, length_offsetTable, List.length_map,
    length_flatMap_itemBytes, List.map_take]
  rw [h.itemStart_eq, CDatafile.itemOffsetsStart, h.numItemTypes_eq]
  omega

lemma itemInt_eq {i : ℕ} (hi : i < items.length) : ∃ rest, ∀ place,
    df.itemInt i place = wordAt (CDataFileWriter.itemBytes items[i] ++ rest) place := by
  obtain ⟨front, rest, hdata, hlength⟩ := h.data_item hi
  refine ⟨rest, fun place => ?_⟩
  have hle := sum_take_le (items.map storedSize) i
  have hfits := h.fits
  have hpos : df.itemStart + ((BitVec.ofNat 32 ((items.map storedSize).take i).sum).toInt) + place =
      ((front.length + place : ℕ) : ℤ) := by
    rw [toInt_ofNat_of_le (by omega), hlength]
    push_cast
    ring
  rw [CDatafile.itemInt, h.itemOffset_eq hi, Option.bind_eq_bind, Option.bind_some]
  dsimp only
  rw [hpos, if_pos (Int.natCast_nonneg _), Int.toNat_natCast, hdata, wordAt_append_right]

lemma typeAndId {i : ℕ} (hi : i < items.length) :
    df.itemInt i 0 = some (BitVec.ofInt 32 items[i].type <<< 16 ||| BitVec.ofInt 32 items[i].id) := by
  obtain ⟨rest, hint⟩ := h.itemInt_eq hi
  rw [hint, CDataFileWriter.itemBytes, List.append_assoc]
  exact wordAt_table [_, _] _ (Nat.succ_pos 1)

lemma internalType_eq {i : ℕ} (hi : i < items.length) (hitem : items[i].Fits) :
    df.internalType i = some items[i].type := by
  obtain ⟨⟨htype, htype'⟩, hid, hid'⟩ := hitem
  rw [maxItemTypes] at htype'
  rw [itemtypeEx] at hid'
  rw [CDatafile.internalType, h.typeAndId hi]
  generalize items[i].type = type at *
  generalize items[i].id = id at *
  obtain ⟨type, rfl⟩ := Int.eq_ofNat_of_zero_le htype
  obtain ⟨id, rfl⟩ := Int.eq_ofNat_of_zero_le hid
  rw [typeAndId_eq (by omega), Option.bind_eq_bind, Option.bind_some, type_of_typeAndId (by omega) (by omega)]
  rfl

lemma itemId_eq {i : ℕ} (hi : i < items.length) (hitem : items[i].Fits) : df.itemId i = some items[i].id := by
  obtain ⟨⟨htype, htype'⟩, hid, hid'⟩ := hitem
  rw [itemtypeEx] at hid'
  rw [CDatafile.itemId, h.typeAndId hi]
  generalize items[i].type = type at *
  generalize items[i].id = id at *
  obtain ⟨type, rfl⟩ := Int.eq_ofNat_of_zero_le htype
  obtain ⟨id, rfl⟩ := Int.eq_ofNat_of_zero_le hid
  rw [typeAndId_eq (by omega), Option.bind_eq_bind, Option.bind_some, id_of_typeAndId type (by omega)]
  rfl

/-- The descriptor of a uuid. -/
lemma itemEx_eq {i : ℕ} (hi : i < items.length) {uuid : CUuid} (hdata : items[i].data = itemExBytes uuid) :
    df.itemEx i = some (CItemEx.fromUuid uuid) := by
  obtain ⟨rest, hint⟩ := h.itemInt_eq hi
  have hword : ∀ k : Fin 4, df.itemInt i (8 + 4 * k) = some (CItemEx.fromUuid uuid k) := by
    intro k
    have hk : (k : ℕ) < (List.ofFn (CItemEx.fromUuid uuid)).length := by
      rw [List.length_ofFn]
      exact k.isLt
    have htable := wordAt_table (List.ofFn (CItemEx.fromUuid uuid)) rest hk
    rw [List.getElem_ofFn] at htable
    rw [hint, CDataFileWriter.itemBytes, List.append_assoc, hdata]
    exact (wordAt_append_right (tableBytes _) _ _).trans htable
  have ha := hword 0
  have hb := hword 1
  have hc := hword 2
  have hd := hword 3
  simp only [Fin.isValue, Fin.coe_ofNat_eq_mod, Nat.zero_mod, Nat.mul_zero, Nat.add_zero, Nat.one_mod, Nat.mul_one,
    Nat.reduceMod, Nat.reduceMul, Nat.reduceAdd] at ha hb hc hd
  rw [CDatafile.itemEx, ha, hb, hc, hd]
  simp only [Option.bind_eq_bind, Option.bind_some, Option.pure_def]
  congr 1
  funext k
  fin_cases k <;> rfl

/-- The data of an item is behind its header. -/
lemma data_eq {i : ℕ} (hi : i < items.length) :
    (df.data.drop (df.itemStart + ((items.map storedSize).take i).sum + sizeofDatafileItem)).take
      items[i].data.length = items[i].data := by
  obtain ⟨front, rest, hdata, hlength⟩ := h.data_item hi
  rw [← hlength, hdata, ← List.drop_drop, List.drop_left, CDataFileWriter.itemBytes, List.append_assoc]
  have hheader : sizeofDatafileItem = (tableBytes [BitVec.ofInt 32 items[i].type <<< 16 ||| BitVec.ofInt 32 items[i].id,
      BitVec.ofNat 32 items[i].data.length]).length := rfl
  rw [hheader, List.drop_left, List.take_left]

/-! ### Item types -/

lemma itemType_eq (hentries : ∀ entry ∈ entries, EntryFits entry) {i : ℕ} (hi : i < entries.length) :
    df.itemType i = some ((entries[i].1, (entries[i].2.1 : ℤ), (entries[i].2.2 : ℤ))) := by
  obtain ⟨hlow, hhigh, hstart, hnum⟩ := hentries entries[i] (List.getElem_mem hi)
  have hsplit : entries.flatMap entryInts = (entries.take i).flatMap entryInts ++
      (entryInts entries[i] ++ (entries.drop (i + 1)).flatMap entryInts) := by
    conv_lhs => rw [← List.take_append_drop i entries, List.drop_eq_getElem_cons hi]
    rw [List.flatMap_append, List.flatMap_cons]
  have hlength : 12 * i = (tableBytes ((entries.take i).flatMap entryInts)).length := by
    rw [length_tableBytes, length_flatMap_entryInts, List.length_take, Nat.min_eq_left hi.le]
    ring
  have hword : ∀ k (hk : k < 3), wordAt df.data (12 * i + 4 * k) = some ((entryInts entries[i]).get ⟨k, hk⟩) := by
    intro k hk
    rw [h.data, hsplit, tableBytes_append, tableBytes_append, List.append_assoc, List.append_assoc, hlength,
      wordAt_append_right]
    exact wordAt_table (entryInts entries[i]) _ hk
  have hfirst := hword 0 (by omega)
  rw [Nat.mul_zero, Nat.add_zero] at hfirst
  rw [CDatafile.itemType, if_pos (by rwa [h.numItemTypes_eq]), hfirst, hword 1 (by omega), hword 2 (by omega)]
  simp only [Option.bind_eq_bind, Option.bind_some, Option.pure_def]
  show some ((BitVec.ofInt 32 entries[i].1).toInt, (BitVec.ofNat 32 entries[i].2.1).toInt,
    (BitVec.ofNat 32 entries[i].2.2).toInt) = _
  rw [toInt_ofInt_of_lt hlow hhigh, toInt_ofNat_of_le hstart, toInt_ofNat_of_le hnum]

/-- The start and the number of the items of a type are those of its entry. -/
lemma lookupType_eq (hentries : ∀ entry ∈ entries, EntryFits entry) (type : ℤ) :
    df.lookupType type =
      some (((entries.find? fun entry => entry.1 = type).map fun entry => ((entry.2.1 : ℤ), (entry.2.2 : ℤ))).getD
        (0, 0)) := by
  have hloop : ∀ n i, i + n = entries.length → df.typeLoop type i n =
      some ((((entries.drop i).find? fun entry => entry.1 = type).map fun entry =>
        ((entry.2.1 : ℤ), (entry.2.2 : ℤ))).getD (0, 0)) := by
    intro n
    induction n with
    | zero =>
      rintro i rfl
      rw [List.drop_length]
      rfl
    | succ n ih =>
      intro i hi
      have hlt : i < entries.length := by omega
      rw [CDatafile.typeLoop, h.itemType_eq hentries hlt, Option.bind_eq_bind, Option.bind_some,
        List.drop_eq_getElem_cons hlt, List.find?_cons]
      by_cases htype : entries[i].1 = type
      · rw [if_pos htype, decide_eq_true htype]
        rfl
      · rw [if_neg htype, decide_eq_false htype, ih (i + 1) (by omega)]
  rw [CDatafile.lookupType, h.numItemTypes_eq, hloop _ 0 (Nat.zero_add _), List.drop_zero]

/-! ### Data -/

lemma length_data : df.data.length = df.itemStart + (items.map storedSize).sum := by
  have hsizes := h.sizes_length
  rw [h.data, h.itemStart_eq]
  simp only [List.length_append, length_tableBytes, length_flatMap_entryInts, length_offsetTable, List.length_map,
    length_flatMap_itemBytes]
  omega

lemma loadSize_eq : df.header.loadSize = BitVec.ofNat 32 df.data.length := by
  have hfits := h.fits
  refine BitVec.eq_of_toNat_eq ?_
  rw [CDatafile.loadSize_toNat, h.itemSize, toNat_ofNat_of_lt' (by omega), BitVec.toNat_ofNat, h.length_data]

lemma getFileDataSize_eq {i : ℕ} (hi : i < datas.length) :
    df.getFileDataSize i = some (BitVec.ofNat 32 datas[i].length) := by
  have hlt : i < (datas.map List.length).length := by rwa [List.length_map]
  have hsum := sum_take_succ hlt
  rw [List.getElem_map] at hsum
  have hsub : ∀ offset size : ℕ, BitVec.ofNat 32 (offset + size) - BitVec.ofNat 32 offset = BitVec.ofNat 32 size := by
    intro offset size
    rw [BitVec.ofNat_add, BitVec.add_comm, BitVec.add_sub_cancel]
  rw [CDatafile.getFileDataSize, h.numRawData_eq, h.dataOffset_eq hi]
  split_ifs with hlast
  · have hall : (datas.map List.length).sum = ((datas.map List.length).take (i + 1)).sum := by
      rw [List.take_of_length_le]
      rw [List.length_map]
      omega
    rw [h.dataSize, Option.bind_eq_bind, Option.bind_some, hall, hsum, hsub]
    rfl
  · have hnext := h.dataOffset_eq (by omega : i + 1 < datas.length)
    rw [Nat.cast_add, Nat.cast_one] at hnext
    rw [hnext, Option.bind_eq_bind, Option.bind_some, Option.bind_some, hsum, hsub]
    rfl

/-- The bytes of the file at the place of a data. -/
lemma readFile_eq {i : ℕ} (hi : i < datas.length) :
    df.readFile (BitVec.ofNat 32 sizeofDatafileHeader + df.header.loadSize +
      BitVec.ofNat 32 ((datas.map List.length).take i).sum).toInt datas[i].length = datas[i] := by
  obtain ⟨head, hhead, hfile⟩ := h.file
  have hfits := h.fits
  have hle := sum_take_le (datas.map List.length) i
  have hlength := h.length_data
  rw [h.itemStart_eq] at hlength
  have hpos : (BitVec.ofNat 32 sizeofDatafileHeader + df.header.loadSize +
      BitVec.ofNat 32 ((datas.map List.length).take i).sum).toInt =
        ((head.length + (df.data.length + ((datas.map List.length).take i).sum) : ℕ) : ℤ) := by
    rw [h.loadSize_eq, ← BitVec.ofNat_add, ← BitVec.ofNat_add, hhead, Nat.add_assoc]
    exact toInt_ofNat_of_le (by omega)
  have hsplit : datas.flatten = (datas.take i).flatten ++ (datas[i] ++ (datas.drop (i + 1)).flatten) := by
    conv_lhs => rw [← List.take_append_drop i datas, List.drop_eq_getElem_cons hi]
    rw [List.flatten_append, List.flatten_cons]
  have hfront : ((datas.map List.length).take i).sum = (datas.take i).flatten.length := by
    rw [← List.map_take, List.length_flatten]
  rw [hpos, CDatafile.readFile, if_neg (by omega), Int.toNat_natCast, hfile, ← List.drop_drop, List.drop_left,
    ← List.drop_drop, List.drop_left, hsplit, hfront, List.drop_left, List.take_left]

lemma congr {df' : CDatafile} (hheader : df'.header = df.header) (hdata : df'.data = df.data)
    (hfile : df'.file = df.file) : Layout df' entries items datas sizes := by
  obtain ⟨hversion, hnumItemTypes, hnumItems, hnumRawData, hitemSize, hdataSize, hdata', hfile', hlength, hfits⟩ := h
  rw [← hheader] at hversion hnumItemTypes hnumItems hnumRawData hitemSize hdataSize
  rw [← hdata] at hdata' hfile'
  rw [← hfile] at hfile'
  exact ⟨hversion, hnumItemTypes, hnumItems, hnumRawData, hitemSize, hdataSize, hdata', hfile', hlength, hfits⟩

end Layout

/-! ### Data that was compressed -/

/-- The data with an index, `none` if there is none. -/
def dataAt (written : List (List UInt8)) (i : ℤ) : Option (List UInt8) := if i < 0 then none else written[i.toNat]?

/-- The data, compressed. -/
structure Compressed (uncompress : List UInt8 → ℕ → Option (List UInt8)) (datas written : List (List UInt8)) :
    Prop where
  length_eq : written.length = datas.length
  uncompress : ∀ (i : ℕ) (data bytes : List UInt8), datas[i]? = some bytes → written[i]? = some data →
    uncompress bytes data.length = some data
  size : ∀ data ∈ written, data.length ≤ maxInt

/-- Whatever is loaded is what was written. -/
def Cached (written : List (List UInt8)) (df : CDatafile) : Prop :=
  ∀ i, df.dataPtrs i = none ∧ df.dataSizes i = 0 ∨ ∃ data, written[i]? = some data ∧ df.dataPtrs i = some data ∧
    df.dataSizes i = BitVec.ofNat 32 data.length

namespace Layout

variable {df : CDatafile} {entries : List (ℤ × ℕ × ℕ)} {items : List CItemInfo} {datas written : List (List UInt8)}
  {uncompress : List UInt8 → ℕ → Option (List UInt8)} (h : Layout df entries items datas (written.map List.length))
  (hcompressed : Compressed uncompress datas written)

include h hcompressed

lemma index_cases (i : ℤ) : (i < 0 ∨ df.numRawData ≤ i) ∧ dataAt written i = none ∨
    ∃ (n : ℕ) (hn : n < written.length), i = n ∧ ¬ (i < 0 ∨ df.numRawData ≤ i) ∧ dataAt written i = some written[n] := by
  have hlength := hcompressed.length_eq
  rw [h.numRawData_eq]
  rcases lt_or_ge i 0 with hneg | hpos
  · exact .inl ⟨.inl hneg, if_pos hneg⟩
  · obtain ⟨n, rfl⟩ := Int.eq_ofNat_of_zero_le hpos
    rw [dataAt, if_neg (not_lt.2 hpos), Int.toNat_natCast]
    by_cases hn : n < written.length
    · exact .inr ⟨n, hn, rfl, by omega, List.getElem?_eq_getElem hn⟩
    · exact .inl ⟨by omega, List.getElem?_eq_none (not_lt.1 hn)⟩

/-- `GetDataSize` is the size of what was written, whatever data is loaded. -/
lemma getDataSize_eq (hcached : Cached written df) (i : ℤ) :
    df.getDataSize i = some (BitVec.ofNat 32 ((dataAt written i).elim 0 List.length)) := by
  rcases h.index_cases hcompressed i with ⟨hi, hnone⟩ | ⟨n, hn, rfl, hi, hsome⟩
  · rw [CDatafile.getDataSize, if_pos hi, hnone]
    rfl
  · rw [CDatafile.getDataSize, if_neg hi, hsome, Int.toNat_natCast]
    rcases hcached n with ⟨hptr, -⟩ | ⟨data, hdata, hptr, hsize⟩
    · have hn' : n < (written.map List.length).length := by rwa [List.length_map]
      rw [if_pos hptr, if_pos (by rw [h.version]; decide), h.dataSize_eq hn', List.getElem_map]
      rfl
    · rw [List.getElem?_eq_getElem hn] at hdata
      obtain rfl := Option.some.inj hdata
      have hle := hcompressed.size _ (List.getElem_mem hn)
      rw [if_neg (by rw [hptr]; exact Option.some_ne_none _), hsize, if_neg (by rw [toInt_ofNat_of_le hle]; omega)]
      rfl

/-- `GetData` returns what was written, and keeps it. -/
lemma getData_eq (hcached : Cached written df) (i : ℤ) :
    ∃ df', df.getData uncompress i = some (dataAt written i, df') ∧
      Layout df' entries items datas (written.map List.length) ∧ Cached written df' := by
  rcases h.index_cases hcompressed i with ⟨hi, hnone⟩ | ⟨n, hn, rfl, hi, hsome⟩
  · refine ⟨df, ?_, h, hcached⟩
    rw [CDatafile.getData, if_pos hi, hnone]
    rfl
  · rw [CDatafile.getData, if_neg hi, hsome, Int.toNat_natCast]
    rcases hcached n with ⟨hptr, hsize⟩ | ⟨data, hdata, hptr, -⟩
    · have hn' : n < datas.length := by rwa [← hcompressed.length_eq]
      have hn'' : n < (written.map List.length).length := by rwa [List.length_map]
      have hle := hcompressed.size _ (List.getElem_mem hn)
      have hfits := h.fits
      have hshort : datas[n].length ≤ maxInt := by
        have hlt : n < (datas.map List.length).length := by rwa [List.length_map]
        have hsum := sum_take_succ hlt
        have hle' := sum_take_le (datas.map List.length) (n + 1)
        rw [List.getElem_map] at hsum
        omega
      have hcontent := hcompressed.uncompress n written[n] datas[n] (List.getElem?_eq_getElem hn')
        (List.getElem?_eq_getElem hn)
      refine ⟨df.setData n (some written[n]), ?_, h.congr rfl rfl rfl, ?_⟩
      · rw [hptr, hsize]
        dsimp only
        rw [if_neg (by decide), h.getFileDataSize_eq hn', h.dataOffset_eq hn', h.dataSize_eq hn'']
        simp only [Option.bind_eq_bind, Option.bind_some]
        rw [if_pos h.version, toNat_ofNat_of_lt' hshort, h.readFile_eq hn', if_neg (not_not.2 rfl), List.getElem_map,
          toNat_ofNat_of_lt' hle, hcontent]
        dsimp only
        rw [if_pos rfl]
        rfl
      · intro k
        by_cases hk : k = n
        · subst hk
          exact .inr ⟨written[k], List.getElem?_eq_getElem hn, Function.update_self _ _ _, Function.update_self _ _ _⟩
        · rw [CDatafile.setData]
          dsimp only
          rw [Function.update_of_ne hk, Function.update_of_ne hk]
          exact hcached k
    · rw [List.getElem?_eq_getElem hn] at hdata
      obtain rfl := Option.some.inj hdata
      refine ⟨df, ?_, h, hcached⟩
      rw [hptr]
      rfl

end Layout

end DDNet
