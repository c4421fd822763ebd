/-
The file that `CDataFileWriter::Finish` writes is opened, and laid out as the reader expects it (`finish_opens`).
-/
import Mathlib.Algebra.BigOperators.Group.List.Basic
import Mathlib.Algebra.Group.Action.Defs
import Mathlib.Algebra.Order.BigOperators.Group.List
import DDNet.Lib.Groups
import DDNet.Shared.DatafileTables

namespace DDNet

open Lib Groups

namespace CDataFileWriter

variable {w : CDataFileWriter}

/-! ### Groups of items -/

/-- The number of items of a type. -/
def numOf (w : CDataFileWriter) (type : ℤ) : ℕ := (group CItemInfo.type w.items type).length

/-- The item types that are written. -/
def typeEntries (w : CDataFileWriter) : List (ℤ × ℕ × ℕ) := entries w.numOf types 0

lemma mem_map_range {n : ℕ} {type : ℤ} : type ∈ (List.range n).map (fun k : ℕ => (k : ℤ)) ↔ 0 ≤ type ∧ type < n := by
  rw [List.mem_map]
  constructor
  · rintro ⟨k, hk, rfl⟩
    have hlt := List.mem_range.1 hk
    omega
  · rintro ⟨hlow, hhigh⟩
    obtain ⟨k, rfl⟩ := Int.eq_ofNat_of_zero_le hlow
    exact ⟨k, List.mem_range.2 (by omega), rfl⟩

lemma mem_types {type : ℤ} : type ∈ types ↔ 0 ≤ type ∧ type < maxItemTypes := mem_map_range

lemma types_nodup : types.Nodup := List.nodup_range.map Nat.cast_injective

lemma sortedItems_eq (h : w.Links) : w.sortedItems = grouped CItemInfo.type w.items types :=
  List.flatMap_congr fun type _ => typeItems_eq h type

lemma num_eq_numOf (h : w.Links) (type : ℤ) : (w.itemTypes type).num = w.numOf type := by
  rw [num_eq h, typeItems_eq h]
  rfl

lemma typeTable_eq (h : w.Links) (ts : List ℤ) (count : ℕ) :
    w.typeTable ts count = (entries w.numOf ts count).flatMap entryInts := by
  induction ts generalizing count with
  | nil => rfl
  | cons type ts ih =>
    rw [typeTable, entries, num_eq_numOf h]
    by_cases hnum : w.numOf type = 0
    · rw [if_pos hnum, if_pos hnum, ih]
    · rw [if_neg hnum, if_neg hnum, ih, List.flatMap_cons]
      rfl

/-- The types of the items are types that are written. -/
def ItemsFit (w : CDataFileWriter) : Prop := ∀ item ∈ w.items, item.Fits

lemma sortedItems_perm (h : w.Links) (hfit : w.ItemsFit) : w.sortedItems.Perm w.items := by
  rw [sortedItems_eq h]
  exact grouped_perm types_nodup fun item hitem => mem_types.2 (hfit item hitem).1

lemma sum_numOf (h : w.Links) (hfit : w.ItemsFit) : (types.map w.numOf).sum = w.items.length := by
  rw [← (sortedItems_perm h hfit).length_eq, sortedItems_eq h, length_grouped]
  rfl

lemma typeEntries_fit (h : w.Links) (hfit : w.ItemsFit) (hitems : w.items.length ≤ maxInt) :
    ∀ entry ∈ w.typeEntries, EntryFits entry := by
  intro entry hentry
  obtain ⟨hmem, hle⟩ := mem_entries hentry
  obtain ⟨hlow, hhigh⟩ := mem_types.1 hmem
  rw [sum_numOf h hfit, Nat.zero_add] at hle
  have hmax : maxItemTypes ≤ maxInt := by decide
  exact ⟨hlow, by omega, by omega, by omega⟩

end CDataFileWriter

/-! ### Opening the file -/

/-- The ints of the header. -/
def headerInts (header : CDatafileHeader) : List (BitVec 32) :=
  [header.version, header.size, header.swaplen, header.numItemTypes, header.numItems, header.numRawData,
    header.itemSize, header.dataSize]

lemma readHeader_eq (header : CDatafileHeader) {signature : List UInt8} (hsignature : signature.length = 4)
    (rest : List UInt8) : readHeader (signature ++ (tableBytes (headerInts header) ++ rest)) = some header := by
  have hword : ∀ (k : ℕ) (hk : k < 8), wordAt (signature ++ (tableBytes (headerInts header) ++ rest)) (4 + 4 * k) =
      some ((headerInts header).get ⟨k, hk⟩) := by
    intro k hk
    have hmove := wordAt_append_right signature (tableBytes (headerInts header) ++ rest) (4 * k)
    rw [hsignature] at hmove
    rw [hmove]
    exact wordAt_table (headerInts header) rest hk
  rw [readHeader, hword 1 (by omega), hword 2 (by omega), hword 3 (by omega), hword 4 (by omega), hword 5 (by omega),
    hword 6 (by omega), hword 7 (by omega)]
  have hfirst := hword 0 (by omega)
  rw [Nat.mul_zero, Nat.add_zero] at hfirst
  rw [hfirst]
  rfl

namespace Layout

variable {df : CDatafile} {entries : List (ℤ × ℕ × ℕ)} {items : List CItemInfo} {datas : List (List UInt8)}
  {sizes : List ℕ} (h : Layout df entries items datas sizes)

include h

/-- The block has room for what is written into it, as no data is shorter than a zlib stream. -/
lemma alloc (hstreams : ∀ data ∈ datas, 6 ≤ data.length) :
    ¬ df.header.allocSize.toNat < df.header.blockSize := by
  have hfits := h.fits
  have hlength := h.length_data
  have hraw := h.numRawData_eq
  rw [h.itemStart_eq] at hlength
  rw [CDatafile.numRawData] at hraw
  have hsum : 6 * datas.length ≤ (datas.map List.length).sum := by
    have hshort : ∀ size ∈ datas.map List.length, 6 ≤ size := by
      intro size hmem
      obtain ⟨data, hdata, rfl⟩ := List.mem_map.1 hmem
      exact hstreams data hdata
    have hcard := List.card_nsmul_le_sum _ 6 hshort
    rw [List.length_map, smul_eq_mul] at hcard
    omega
  have h8 : (8 : BitVec 32).toNat = 8 := rfl
  have h4 : (4 : BitVec 32).toNat = 4 := rfl
  rw [maxInt] at hfits
  rw [sizeofDatafileHeader] at hfits
  rw [CDatafileHeader.allocSize, CDatafileHeader.blockSize, sizeofDatafile]
  simp only [BitVec.toNat_add, BitVec.toNat_mul, h8, h4, hraw, h.loadSize_eq, BitVec.toNat_ofNat]
  omega

lemma opens (hfile : df.file = [0x44, 0x41, 0x54, 0x41] ++ (tableBytes (headerInts df.header) ++ (df.data ++ datas.flatten)))
    (hstreams : ∀ data ∈ datas, 6 ≤ data.length) (hptrs : df.dataPtrs = fun _ => none) (hsizes : df.dataSizes = fun _ => 0) :
    openDatafile df.file = .opened df := by
  have hfits := h.fits
  have hlength := h.length_data
  rw [h.itemStart_eq] at hlength
  have hload : df.header.loadSize.toNat = df.data.length := by
    rw [h.loadSize_eq, toNat_ofNat_of_lt' (by omega)]
  have hheader : readHeader df.file = some df.header := by
    rw [hfile]
    exact readHeader_eq df.header rfl _
  have hsignature : df.file.take 4 = [0x44, 0x41, 0x54, 0x41] := by
    rw [hfile]
    rfl
  have hdata : (df.file.drop sizeofDatafileHeader).take df.data.length = df.data := by
    have hhead : sizeofDatafileHeader = ([0x44, 0x41, 0x54, 0x41] ++ tableBytes (headerInts df.header)).length := rfl
    rw [hfile, ← List.append_assoc, hhead, List.drop_left, List.take_left]
  rw [openDatafile, hheader]
  dsimp only
  rw [if_neg (fun hbad => hbad.2 hsignature), if_neg (fun hbad => hbad.2 h.version), if_neg, if_neg (h.alloc hstreams), hload,
    hdata, if_neg (not_not.2 rfl)]
  · rw [← hptrs, ← hsizes]
  · rw [hload, h.numItemTypes, h.numItems, h.numRawData, h.itemSize, toInt_ofNat_of_le (by omega),
      toInt_ofNat_of_le (by omega), toInt_ofNat_of_le (by omega), toInt_ofNat_of_le (by omega)]
    rw [maxInt] at hfits
    omega

end Layout

/-- A file that is opened and has these item types, items and data. -/
def laidOut (fileSize swapSize : BitVec 32) (entries : List (ℤ × ℕ × ℕ)) (items : List CItemInfo)
    (datas : List (List UInt8)) (sizes : List ℕ) : CDatafile :=
  let header : CDatafileHeader :=
    ⟨4, fileSize, swapSize, BitVec.ofNat 32 entries.length, BitVec.ofNat 32 items.length,
      BitVec.ofNat 32 datas.length, BitVec.ofNat 32 (items.map storedSize).sum,
      BitVec.ofNat 32 (datas.map List.length).sum⟩
  let data := tableBytes (entries.flatMap entryInts) ++
    (tableBytes (CDataFileWriter.offsetTable (items.map storedSize) 0) ++
      (tableBytes (CDataFileWriter.offsetTable (datas.map List.length) 0) ++
        (tableBytes (sizes.map fun size => BitVec.ofNat 32 size) ++ items.flatMap CDataFileWriter.itemBytes)))
  { header := header
    data := data
    file := [0x44, 0x41, 0x54, 0x41] ++ (tableBytes (headerInts header) ++ (data ++ datas.flatten))
    dataPtrs := fun _ => none
    dataSizes := fun _ => 0 }

section laidOut

variable (fileSize swapSize : BitVec 32) {entries : List (ℤ × ℕ × ℕ)} {items : List CItemInfo}
  {datas : List (List UInt8)} {sizes : List ℕ}

lemma layout_laidOut (hsizes : sizes.length = datas.length) (hfits : sizeofDatafileHeader + 12 * entries.length +
    (items.length + datas.length * 2) * 4 + (items.map storedSize).sum + (datas.map List.length).sum ≤ maxInt) :
    Layout (laidOut fileSize swapSize entries items datas sizes) entries items datas sizes where
  version := rfl
  numItemTypes := rfl
  numItems := rfl
  numRawData := rfl
  itemSize := rfl
  dataSize := rfl
  data := rfl
  file := ⟨[0x44, 0x41, 0x54, 0x41] ++ tableBytes (headerInts (laidOut fileSize swapSize entries items datas sizes).header),
    rfl, (List.append_assoc _ _ _).symm⟩
  sizes_length := hsizes
  fits := hfits

end laidOut

namespace CDataFileWriter

variable {w : CDataFileWriter} {compress : ECompressionLevel → List UInt8 → List UInt8}

/-- What `Finish` writes is opened. -/
lemma finish_opens (hlinks : w.Links) (hfit : w.ItemsFit) (hstreams : ∀ level data, 6 ≤ (compress level data).length)
    {bytes : List UInt8} (h : w.finish compress = some bytes) :
    ∃ df, openDatafile bytes = .opened df ∧
      Layout df w.typeEntries w.sortedItems (w.datas.map fun info => compress info.compressionLevel info.data)
        (w.datas.map fun info => info.data.length) ∧ df.dataPtrs = (fun _ => none) ∧ df.dataSizes = fun _ => 0 := by
  rw [finish] at h
  split_ifs at h with hsize
  have hperm := sortedItems_perm hlinks hfit
  have hsum : (w.sortedItems.map storedSize).sum = (w.items.map storedSize).sum := (hperm.map storedSize).sum_eq
  have hcount : (types.countP fun type => decide ((w.itemTypes type).num ≠ 0)) = w.typeEntries.length := by
    rw [typeEntries, length_entries]
    exact List.countP_congr fun type _ => by rw [num_eq_numOf hlinks]
  have hitemSizes : (w.items.map fun item => item.data.length + sizeofDatafileItem) = w.items.map storedSize := rfl
  have hsortedSizes : (w.sortedItems.map fun item => item.data.length + sizeofDatafileItem) =
      w.sortedItems.map storedSize := rfl
  have hdataSizes : (w.datas.map fun info => BitVec.ofNat 32 info.data.length) =
      (w.datas.map fun info => info.data.length).map fun size => BitVec.ofNat 32 size := by
    rw [List.map_map]
    rfl
  have htable : w.typeTable types 0 = w.typeEntries.flatMap entryInts := typeTable_eq hlinks types 0
  have hbytes := Option.some.inj h
  rw [hitemSizes, hcount, ← hsum] at hsize
  rw [hitemSizes, hcount, ← hsum, hsortedSizes, htable, hdataSizes] at hbytes
  generalize hcompressed : (w.datas.map fun info => compress info.compressionLevel info.data) = compressed at hsize hbytes ⊢
  have hlength : compressed.length = w.datas.length := by rw [← hcompressed, List.length_map]
  rw [← hlength, ← hperm.length_eq] at hsize hbytes
  simp only [List.append_assoc] at hbytes
  generalize BitVec.ofNat 32 (_ - 16) = fileSize at hbytes
  generalize BitVec.ofNat 32 (_ - 16) = swapSize at hbytes
  have hlayout := @layout_laidOut fileSize swapSize w.typeEntries w.sortedItems compressed
    (w.datas.map fun info => info.data.length) (by rw [List.length_map, hlength]) (by
      rw [sizeofDatafileItemType] at hsize
      rw [Nat.mul_comm 12]
      exact hsize)
  have hstreams' : ∀ data ∈ compressed, 6 ≤ data.length := by
    intro data hdata
    rw [← hcompressed] at hdata
    obtain ⟨info, -, rfl⟩ := List.mem_map.1 hdata
    exact hstreams _ _
  have hopen := hlayout.opens rfl hstreams' rfl rfl
  have hfile : (laidOut fileSize swapSize w.typeEntries w.sortedItems compressed
      (w.datas.map fun info => info.data.length)).file = bytes := by
    rw [← hbytes]
    simp only [laidOut, headerInts, List.append_assoc]
  rw [hfile] at hopen
  exact ⟨_, hopen, hlayout, rfl, rfl⟩

end CDataFileWriter

end DDNet
