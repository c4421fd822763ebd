/-
The ring buffer in memory refines the list of blocks.

`Held` says that headers and bytes of items lie in the memory at given offsets.  It is kept by the stores of the code:
a header is replaced (`Held.update`), two blocks become one (`Held.join`), a header is put into a block without an item
(`Held.split`), and the bytes of an item are written (`Held.storeData`).

`Repr` relates the memory to the list model of `Shared/RingBuffer.lean`, whose items are here the pointer that `Allocate`
returned and the bytes that were stored there.  Every function of the code keeps the relation and does what the
list model does.
-/
import DDNet.Shared.RingBufferMemory

namespace DDNet

namespace RingMemory

lemma cast_itemSize : ((itemSize : ℕ) : ℤ) = 24 := rfl

/-! ### Headers and bytes at given offsets -/

/-- The headers and the bytes of `n` blocks lie at the given offsets, and every block has room for its header and its
bytes. -/
structure Held (m : RingMemory) (n : ℕ) (offset : ℕ → ℤ) (header : ℕ → ItemHeader) (data : ℕ → List UInt8) :
    Prop where
  start : 0 ≤ offset 0
  room : ∀ i < n, offset i + itemSize + (data i).length ≤ offset (i + 1)
  fits : offset n ≤ m.memory
  header : ∀ i < n, m.items (offset i) = some (header i)
  data : ∀ i < n, ∀ k < (data i).length, m.bytes (offset i + itemSize + k) = (data i)[k]?

section Held

variable {m : RingMemory} {n : ℕ} {offset : ℕ → ℤ} {header : ℕ → ItemHeader} {data : ℕ → List UInt8}

lemma Held.le (h : Held m n offset header data) {i j : ℕ} (hij : i < j) (hj : j ≤ n) :
    offset i + itemSize + (data i).length ≤ offset j := by
  induction j, hij using Nat.le_induction with
  | base => exact h.room i (by omega)
  | succ j hij ih =>
    have hstep := h.room j (by omega)
    have hprev := ih (by omega)
    rw [cast_itemSize] at hstep
    omega

lemma Held.nonneg (h : Held m n offset header data) {i : ℕ} (hi : i ≤ n) : 0 ≤ offset i := by
  rcases Nat.eq_zero_or_pos i with rfl | hpos
  · exact h.start
  · have hle := h.le hpos hi
    have hstart := h.start
    rw [cast_itemSize] at hle
    omega

lemma Held.offset_ne (h : Held m n offset header data) {i j : ℕ} (hi : i < n) (hj : j < n) (hij : i ≠ j) :
    offset j ≤ offset i - itemSize ∨ offset i + itemSize ≤ offset j := by
  rcases Nat.lt_or_gt_of_ne hij with hlt | hgt
  · have hle := h.le hlt hj.le
    omega
  · have hle := h.le hgt hi.le
    omega

lemma Held.offset_inj (h : Held m n offset header data) {i j : ℕ} (hi : i < n) (hj : j < n)
    (hij : offset i = offset j) : i = j := by
  by_contra hne
  have hdist := h.offset_ne hi hj hne
  rw [cast_itemSize] at hdist
  omega

/-- There is room for so many blocks. -/
lemma Held.length_le (h : Held m n offset header data) : n ≤ m.memory / itemSize := by
  have hle : ∀ i ≤ n, (i : ℤ) * itemSize ≤ offset i := by
    intro i hi
    induction i with
    | zero => simpa using h.start
    | succ i ih =>
      have hroom := h.room i (by omega)
      have hprev := ih (by omega)
      rw [cast_itemSize] at hroom hprev ⊢
      omega
  have hn := hle n le_rfl
  have hfits := h.fits
  rw [cast_itemSize] at hn
  rw [itemSize]
  omega

/-- The relation depends on the memory only. -/
lemma Held.frame (h : Held m n offset header data) (m' : RingMemory) (hmemory : m'.memory = m.memory)
    (hitems : m'.items = m.items) (hbytes : m'.bytes = m.bytes) : Held m' n offset header data :=
  ⟨h.start, h.room, hmemory ▸ h.fits, hitems ▸ h.header, hbytes ▸ h.data⟩

/-- The bytes of a block may be forgotten. -/
lemma Held.congr (h : Held m n offset header data) {offset' : ℕ → ℤ} {header' : ℕ → ItemHeader}
    {data' : ℕ → List UInt8} (hoffset : ∀ i ≤ n, offset' i = offset i) (hheader : ∀ i < n, header' i = header i)
    (hdata : ∀ i < n, data' i = data i ∨ data' i = []) : Held m n offset' header' data' where
  start := by rw [hoffset 0 (Nat.zero_le n)]; exact h.start
  room := by
    intro i hi
    have hroom := h.room i hi
    rw [hoffset i hi.le, hoffset (i + 1) hi]
    rcases hdata i hi with heq | hnil
    · rwa [heq]
    · rw [hnil]
      simp only [List.length_nil, Nat.cast_zero]
      omega
  fits := by rw [hoffset n le_rfl]; exact h.fits
  header := by
    intro i hi
    rw [hoffset i hi.le, hheader i hi]
    exact h.header i hi
  data := by
    intro i hi k hk
    rw [hoffset i hi.le]
    rcases hdata i hi with heq | hnil
    · rw [heq] at hk ⊢
      exact h.data i hi k hk
    · rw [hnil] at hk
      simp at hk

/-- A header is replaced. -/
lemma Held.store (h : Held m n offset header data) {i : ℕ} (hi : i < n) (x : ItemHeader) :
    ∃ items bytes, m.store (offset i) x = some { m with items := items, bytes := bytes } ∧
      Held { m with items := items, bytes := bytes } n offset (Function.update header i x) data := by
  have hend : offset i + itemSize ≤ m.memory := by
    have hle := h.le hi le_rfl
    have hfits := h.fits
    omega
  rw [RingMemory.store, if_pos ⟨h.nonneg hi.le, hend⟩]
  refine ⟨_, _, rfl, h.start, h.room, h.fits, ?_, ?_⟩
  · intro j hj
    rcases eq_or_ne j i with rfl | hne
    · simp
    · have hdist := h.offset_ne hi hj hne.symm
      have h1 : offset j ≠ offset i := by
        rw [cast_itemSize] at hdist
        omega
      have h2 : ¬(offset i - itemSize < offset j ∧ offset j < offset i + itemSize) := by omega
      simp only [h1, if_false, h2, Function.update_of_ne hne]
      exact h.header j hj
  · intro j hj k hk
    have h1 : ¬(offset i ≤ offset j + itemSize + k ∧ offset j + itemSize + k < offset i + itemSize) := by
      rcases Nat.lt_trichotomy j i with hlt | rfl | hgt
      · have hle := h.le hlt hi.le
        omega
      · omega
      · have hle := h.le hgt hj.le
        omega
    simp only [h1, if_false]
    exact h.data j hj k hk

/-- Fields of a header are changed. -/
lemma Held.update (h : Held m n offset header data) {i : ℕ} (hi : i < n) (f : ItemHeader → ItemHeader) :
    ∃ items bytes, m.update (offset i) f = some { m with items := items, bytes := bytes } ∧
      Held { m with items := items, bytes := bytes } n offset (Function.update header i (f (header i))) data := by
  rw [RingMemory.update, h.header i hi, Option.bind_some]
  exact h.store hi _

/-- The header between two blocks without items is dropped. -/
lemma Held.join (h : Held m (n + 1) offset header data) {k : ℕ} (hk : k < n) (hdata : data k = []) :
    Held m n (fun i => if i ≤ k then offset i else offset (i + 1)) (fun i => if i ≤ k then header i else header (i + 1))
      (fun i => if i ≤ k then data i else data (i + 1)) where
  start := by simpa using h.start
  room := by
    intro i hi
    rcases Nat.lt_trichotomy i k with hlt | rfl | hgt
    · simp only [hlt.le, if_true, Nat.succ_le_of_lt hlt]
      exact h.room i (by omega)
    · simp only [le_refl, if_true, Nat.not_succ_le_self, if_false, hdata, List.length_nil, Nat.cast_zero]
      have hle := h.le (i := i) (j := i + 1 + 1) (by omega) (by omega)
      omega
    · rw [if_neg (by omega), if_neg (by omega), if_neg (by omega)]
      exact h.room (i + 1) (by omega)
  fits := by
    rw [if_neg (by omega)]
    exact h.fits
  header := by
    intro i hi
    split_ifs with hik
    · exact h.header i (by omega)
    · exact h.header (i + 1) (by omega)
  data := by
    intro i hi
    split_ifs with hik
    · exact h.data i (by omega)
    · exact h.data (i + 1) (by omega)

/-- A header is put into a block without an item. -/
lemma Held.split (h : Held m n offset header data) {k : ℕ} (hk : k < n) (hdata : data k = []) {wanted : ℤ}
    (hwanted : itemSize ≤ wanted) (hroom : offset k + wanted + itemSize ≤ offset (k + 1)) (x : ItemHeader) :
    ∃ items bytes, m.store (offset k + wanted) x = some { m with items := items, bytes := bytes } ∧
      Held { m with items := items, bytes := bytes } (n + 1)
        (fun i => if i ≤ k then offset i else if i = k + 1 then offset k + wanted else offset (i - 1))
        (fun i => if i ≤ k then header i else if i = k + 1 then x else header (i - 1))
        (fun i => if i ≤ k then data i else if i = k + 1 then [] else data (i - 1)) := by
  have hnonneg := h.nonneg hk.le
  have hend : offset (k + 1) ≤ m.memory := by
    rcases Nat.lt_or_ge (k + 1) n with hlt | hge
    · have hle := h.le hlt le_rfl
      have hfits := h.fits
      omega
    · rw [show k + 1 = n by omega]
      exact h.fits
  rw [RingMemory.store, if_pos (by omega)]
  refine ⟨_, _, rfl, ?_, ?_, ?_, ?_, ?_⟩
  · simpa using h.start
  · intro i hi
    rcases Nat.lt_trichotomy i k with hlt | rfl | hgt
    · simp only [hlt.le, if_true, Nat.succ_le_of_lt hlt]
      exact h.room i (by omega)
    · simp only [le_refl, if_true, Nat.not_succ_le_self, if_false, hdata, List.length_nil, Nat.cast_zero]
      omega
    · rcases Nat.lt_or_ge (k + 1) i with hlt | hge
      · rw [if_neg (by omega), if_neg (by omega), if_neg (by omega), if_neg (by omega), if_neg (by omega),
          if_neg (by omega)]
        have hstep := h.room (i - 1) (by omega)
        rw [show i - 1 + 1 = i + 1 - 1 by omega] at hstep
        exact hstep
      · obtain rfl : i = k + 1 := by omega
        simp only [Nat.not_succ_le_self, if_false, if_true]
        rw [if_neg (by omega), if_neg (by omega)]
        simp only [List.length_nil, Nat.cast_zero, Nat.add_sub_cancel]
        omega
  · rw [if_neg (by omega), if_neg (by omega)]
    simpa using h.fits
  · -- the other headers are before the new one or behind it
    have hother : ∀ j < n, m.items (offset j) = some (header j) ∧ offset j ≠ offset k + wanted ∧
        ¬(offset k + wanted - itemSize < offset j ∧ offset j < offset k + wanted + itemSize) := by
      intro j hj
      refine ⟨h.header j hj, ?_⟩
      rcases Nat.lt_trichotomy j k with hlt | rfl | hgt
      · have hle := h.le hlt hk.le
        rw [cast_itemSize] at *
        omega
      · rw [cast_itemSize] at *
        omega
      · have hle : offset (k + 1) ≤ offset j := by
          rcases Nat.lt_or_ge (k + 1) j with hlt | hge
          · have hle := h.le hlt hj.le
            omega
          · rw [show j = k + 1 by omega]
        rw [cast_itemSize] at *
        omega
    intro i hi
    dsimp only
    by_cases h1 : i ≤ k
    · obtain ⟨hheader, hne, hout⟩ := hother i (by omega)
      rw [if_pos h1, if_pos h1, if_neg hne, if_neg hout, hheader]
    · by_cases h2 : i = k + 1
      · rw [if_neg h1, if_neg h1, if_pos h2, if_pos h2, if_pos rfl]
      · obtain ⟨hheader, hne, hout⟩ := hother (i - 1) (by omega)
        rw [if_neg h1, if_neg h1, if_neg h2, if_neg h2, if_neg hne, if_neg hout, hheader]
  · have hother : ∀ j < n, ∀ l < (data j).length, m.bytes (offset j + itemSize + l) = (data j)[l]? ∧
        ¬(offset k + wanted ≤ offset j + itemSize + l ∧ offset j + itemSize + l < offset k + wanted + itemSize) := by
      intro j hj l hl
      refine ⟨h.data j hj l hl, ?_⟩
      rcases Nat.lt_trichotomy j k with hlt | rfl | hgt
      · have hle := h.le hlt hk.le
        rw [cast_itemSize] at *
        omega
      · rw [hdata] at hl
        simp at hl
      · have hle : offset (k + 1) ≤ offset j := by
          rcases Nat.lt_or_ge (k + 1) j with hlt | hge
          · have hle := h.le hlt hj.le
            omega
          · rw [show j = k + 1 by omega]
        omega
    intro i hi l hl
    dsimp only at hl ⊢
    by_cases h1 : i ≤ k
    · rw [if_pos h1] at hl
      obtain ⟨hbyte, hout⟩ := hother i (by omega) l hl
      rw [if_pos h1, if_pos h1, if_neg hout, hbyte]
    · rw [if_neg h1] at hl
      by_cases h2 : i = k + 1
      · rw [if_pos h2] at hl
        simp at hl
      · rw [if_neg h2] at hl
        obtain ⟨hbyte, hout⟩ := hother (i - 1) (by omega) l hl
        rw [if_neg h1, if_neg h1, if_neg h2, if_neg h2, if_neg hout, hbyte]

/-- The bytes of an item are stored. -/
lemma Held.storeData (h : Held m n offset header data) {i : ℕ} (hi : i < n) {bytes : List UInt8}
    (hroom : offset i + itemSize + bytes.length ≤ offset (i + 1)) :
    ∃ items' bytes', m.storeData (offset i + itemSize) bytes = some { m with items := items', bytes := bytes' } ∧
      Held { m with items := items', bytes := bytes' } n offset header (Function.update data i bytes) := by
  have hnext : ∀ j, i < j → j ≤ n → offset (i + 1) ≤ offset j := by
    intro j hij hj
    rcases Nat.lt_or_ge (i + 1) j with hlt | hge
    · have hle := h.le hlt hj
      omega
    · rw [show j = i + 1 by omega]
  have hnonneg := h.nonneg hi.le
  have hend := (hnext n hi le_rfl).trans h.fits
  rw [RingMemory.storeData, if_pos (by omega)]
  refine ⟨_, _, rfl, h.start, ?_, h.fits, ?_, ?_⟩
  · intro j hj
    rcases eq_or_ne j i with rfl | hne
    · rwa [Function.update_self]
    · rw [Function.update_of_ne hne]
      exact h.room j hj
  · intro j hj
    have hout : ¬(bytes ≠ [] ∧ offset i + itemSize - itemSize < offset j ∧
        offset j < offset i + itemSize + bytes.length) := by
      rintro ⟨-, hlo, hhi⟩
      rcases Nat.lt_trichotomy j i with hlt | rfl | hgt
      · have hle := h.le hlt hi.le
        omega
      · omega
      · have hle := hnext j hgt hj.le
        omega
    simp only [hout, if_false]
    exact h.header j hj
  · intro j hj k hk
    rcases eq_or_ne j i with rfl | hne
    · rw [Function.update_self] at hk ⊢
      have hin : offset j + itemSize ≤ offset j + itemSize + k ∧
          offset j + itemSize + k < offset j + itemSize + bytes.length := by omega
      simp only [hin, and_self, if_true]
      congr 1
      omega
    · rw [Function.update_of_ne hne] at hk ⊢
      have hout : ¬(offset i + itemSize ≤ offset j + itemSize + k ∧
          offset j + itemSize + k < offset i + itemSize + bytes.length) := by
        rcases Nat.lt_or_gt_of_ne hne with hlt | hgt
        · have hle := h.le hlt hi.le
          omega
        · have hle := hnext j hgt hj.le
          omega
      simp only [hout, if_false]
      exact h.data j hj k hk

end Held

end RingMemory

/-! ### The list of blocks and where they lie -/

namespace CRingBufferBase

variable {α : Type*}

/-- Where a block lies. -/
def offset (rb : CRingBufferBase α) : ℕ → ℤ
  | 0 => 0
  | i + 1 => rb.offset i + (rb.item i).size

/-- The header of a block. -/
def header (rb : CRingBufferBase α) (i : ℕ) : ItemHeader where
  prev := if i = 0 then none else some (rb.offset (i - 1))
  next := if i + 1 < rb.items.length then some (rb.offset (i + 1)) else none
  free := rb.isFree i
  size := (rb.item i).size

/-- The bytes that were stored in a block. -/
def data (rb : CRingBufferBase (ℤ × List UInt8)) (i : ℕ) : List UInt8 := ((rb.item i).value.map Prod.snd).getD []

lemma data_free {rb : CRingBufferBase (ℤ × List UInt8)} {i : ℕ} (h : rb.isFree i = true) : rb.data i = [] := by
  rw [isFree, Option.isNone_iff_eq_none] at h
  rw [data, h]
  rfl

lemma offset_congr {rb rb' : CRingBufferBase α} {i : ℕ} (h : ∀ j < i, (rb'.item j).size = (rb.item j).size) :
    rb'.offset i = rb.offset i := by
  induction i with
  | zero => rfl
  | succ i ih =>
    rw [offset, offset, ih (fun j hj => h j (by omega)), h i (Nat.lt_succ_self i)]

/-- Behind the last block is the end of all. -/
lemma offset_length (rb : CRingBufferBase α) : rb.offset rb.items.length = ((rb.items.map CItem.size).sum : ℕ) := by
  have htake : ∀ i ≤ rb.items.length, rb.offset i = (((rb.items.take i).map CItem.size).sum : ℕ) := by
    intro i hi
    induction i with
    | zero => rfl
    | succ i ih =>
      have hitem : rb.item i = rb.items[i] := by
        rw [item, List.getD_eq_getElem?_getD, List.getElem?_eq_getElem hi]
        rfl
      rw [offset, ih (by omega), hitem, List.take_add_one, List.getElem?_eq_getElem hi, List.map_append,
        List.sum_append, Nat.cast_add]
      rfl
  rw [htake _ le_rfl, List.take_length]

lemma nextBlock_lt {rb : CRingBufferBase α} {i : ℕ} (h : i < rb.items.length) : rb.nextBlock i < rb.items.length := by
  rw [nextBlock]
  split_ifs <;> omega

lemma length_mergeBack_le (rb : CRingBufferBase α) (i : ℕ) :
    (rb.mergeBack i).1.items.length ≤ rb.items.length := by
  rw [mergeBack]
  by_cases h : (!rb.isFree i || decide (i = 0) || !rb.isFree (i - 1)) = true
  · rw [if_pos h]
  · rw [if_neg h]
    exact (List.length_eraseIdx_le _ _).trans List.length_set.le

section Merge

variable {rb : CRingBufferBase α} {k : ℕ}

lemma mergeBack_succ (hfree : rb.isFree (k + 1) = true) (hprev : rb.isFree k = true) :
    rb.mergeBack (k + 1) = ({ rb with
      items := (rb.items.set k ⟨(rb.item k).size + (rb.item (k + 1)).size, none⟩).eraseIdx (k + 1)
      produce := if k + 1 ≤ rb.produce then rb.produce - 1 else rb.produce
      consume := if k + 1 ≤ rb.consume then rb.consume - 1 else rb.consume }, k) := by
  rw [mergeBack, if_neg (by simp [hfree, hprev])]
  rfl

variable (hk : k + 1 < rb.items.length) (hfree : rb.isFree (k + 1) = true) (hprev : rb.isFree k = true)

include hk hfree hprev

lemma length_mergeBack : (rb.mergeBack (k + 1)).1.items.length + 1 = rb.items.length := by
  rw [mergeBack_succ hfree hprev]
  have hlen : (rb.items.set k ⟨(rb.item k).size + (rb.item (k + 1)).size, none⟩).length = rb.items.length :=
    List.length_set
  rw [List.length_eraseIdx_of_lt (by rwa [hlen]), hlen]
  omega

lemma item_mergeBack (i : ℕ) : (rb.mergeBack (k + 1)).1.item i =
    if i < k then rb.item i
    else if i = k then ⟨(rb.item k).size + (rb.item (k + 1)).size, none⟩ else rb.item (i + 1) := by
  rw [mergeBack_succ hfree hprev, item, List.getD_eq_getElem?_getD, List.getElem?_eraseIdx]
  rcases Nat.lt_trichotomy i k with hlt | rfl | hgt
  · rw [if_pos (by omega), if_pos hlt, List.getElem?_set_ne (by omega), ← List.getD_eq_getElem?_getD]
    rfl
  · rw [if_pos (by omega), if_neg (by omega), if_pos rfl, List.getElem?_set_self (by omega)]
    rfl
  · rw [if_neg (by omega), if_neg (by omega), if_neg (by omega), List.getElem?_set_ne (by omega),
      ← List.getD_eq_getElem?_getD]
    rfl

lemma offset_mergeBack (i : ℕ) : (rb.mergeBack (k + 1)).1.offset i =
    if i ≤ k then rb.offset i else rb.offset (i + 1) := by
  induction i with
  | zero => rfl
  | succ i ih =>
    rw [offset, ih, item_mergeBack hk hfree hprev]
    rcases Nat.lt_trichotomy i k with hlt | rfl | hgt
    · rw [if_pos (by omega), if_pos hlt, if_pos (by omega)]
      rfl
    · rw [if_pos le_rfl, if_neg (by omega), if_pos rfl, if_neg (by omega), offset, offset]
      simp only [Nat.cast_add]
      omega
    · rw [if_neg (by omega), if_neg (by omega), if_neg (by omega), if_neg (by omega)]
      rfl

lemma header_mergeBack (i : ℕ) : (rb.mergeBack (k + 1)).1.header i =
    if i < k then rb.header i
    else if i = k then { rb.header k with
      size := (rb.header k).size + (rb.header (k + 1)).size, next := (rb.header (k + 1)).next }
    else if i = k + 1 then { rb.header (k + 2) with prev := some (rb.offset k) }
    else rb.header (i + 1) := by
  have hlen := length_mergeBack hk hfree hprev
  have hitem := item_mergeBack hk hfree hprev
  have hoffset := offset_mergeBack hk hfree hprev
  rw [header, isFree]
  simp only [hitem, hoffset]
  rcases Nat.lt_trichotomy i k with hlt | rfl | hgt
  · simp only [hlt, if_true, show i - 1 ≤ k by omega, show i + 1 ≤ k by omega,
      show i + 1 < (rb.mergeBack (k + 1)).1.items.length ↔ i + 1 < rb.items.length by omega]
    rfl
  · simp only [lt_irrefl, if_false, if_true, Nat.sub_le, show ¬i + 1 ≤ i by omega,
      show i + 1 < (rb.mergeBack (i + 1)).1.items.length ↔ i + 1 + 1 < rb.items.length by omega]
    ext
    · rfl
    · rfl
    · exact hprev.symm
    · exact Nat.cast_add _ _
  · simp only [show ¬i < k by omega, show i ≠ k by omega, show i ≠ 0 by omega, show ¬i + 1 ≤ k by omega, if_false,
      show i + 1 < (rb.mergeBack (k + 1)).1.items.length ↔ i + 1 + 1 < rb.items.length by omega]
    rcases eq_or_ne i (k + 1) with rfl | hne
    · simp only [if_true, Nat.add_sub_cancel, le_refl]
      rfl
    · rw [if_neg hne, if_neg (show ¬i - 1 ≤ k by omega), Nat.sub_add_cancel (by omega)]
      rfl

end Merge

/-- The lists of blocks are the same, so all is where it was. -/
lemma offset_of_items {rb rb' : CRingBufferBase α} (h : rb'.items = rb.items) : rb'.offset = rb.offset := by
  ext i
  exact offset_congr fun j _ => by rw [item, item, h]

lemma header_of_items {rb rb' : CRingBufferBase α} (h : rb'.items = rb.items) : rb'.header = rb.header := by
  ext1 i
  rw [header, header, offset_of_items h, isFree, isFree, item, item, h]

lemma item_set (rb : CRingBufferBase α) {i : ℕ} (hi : i < rb.items.length) (x : CItem α) (j : ℕ) :
    ({ rb with items := rb.items.set i x } : CRingBufferBase α).item j = if j = i then x else rb.item j := by
  rw [item, List.getD_eq_getElem?_getD]
  split_ifs with h
  · rw [h, List.getElem?_set_self hi]
    rfl
  · rw [List.getElem?_set_ne (Ne.symm h), ← List.getD_eq_getElem?_getD]
    rfl

section Split

/-- A block is cut in two. -/
def split (rb : CRingBufferBase α) (b wanted : ℕ) : CRingBufferBase α :=
  { rb with
    items := rb.items.take b ++ ⟨wanted, none⟩ :: ⟨(rb.item b).size - wanted, none⟩ :: rb.items.drop (b + 1)
    produce := if b < rb.produce then rb.produce + 1 else rb.produce
    consume := if b < rb.consume then rb.consume + 1 else rb.consume }

variable {rb : CRingBufferBase α} {b wanted : ℕ}

lemma length_split (hb : b < rb.items.length) : (rb.split b wanted).items.length = rb.items.length + 1 := by
  simp only [split, List.length_append, List.length_take, List.length_cons, List.length_drop]
  omega

lemma item_split (hb : b < rb.items.length) (i : ℕ) : (rb.split b wanted).item i =
    if i < b then rb.item i
    else if i = b then ⟨wanted, none⟩
    else if i = b + 1 then ⟨(rb.item b).size - wanted, none⟩
    else rb.item (i - 1) := by
  have htake : (rb.items.take b).length = b := by
    rw [List.length_take]
    omega
  rw [item, List.getD_eq_getElem?_getD, split]
  rcases Nat.lt_or_ge i b with hlt | hge
  · rw [if_pos hlt, List.getElem?_append_left (by rwa [htake]), List.getElem?_take_of_lt hlt,
      ← List.getD_eq_getElem?_getD]
    rfl
  · rw [if_neg (show ¬i < b by omega), List.getElem?_append_right (by omega), htake]
    obtain ⟨j, rfl⟩ : ∃ j, i = b + j := ⟨i - b, by omega⟩
    rw [Nat.add_sub_cancel_left]
    rcases j with _ | _ | j
    · simp
    · simp
    · rw [if_neg (show b + (j + 2) ≠ b by omega), if_neg (show b + (j + 2) ≠ b + 1 by omega),
        List.getElem?_cons_succ, List.getElem?_cons_succ, List.getElem?_drop,
        show b + 1 + j = b + (j + 2) - 1 by omega, ← List.getD_eq_getElem?_getD]
      rfl

lemma offset_split (hb : b < rb.items.length) (hwanted : wanted ≤ (rb.item b).size) (i : ℕ) :
    (rb.split b wanted).offset i =
      if i ≤ b then rb.offset i else if i = b + 1 then rb.offset b + wanted else rb.offset (i - 1) := by
  induction i with
  | zero => rfl
  | succ i ih =>
    rw [offset, ih, item_split hb]
    rcases Nat.lt_trichotomy i b with hlt | rfl | hgt
    · rw [if_pos hlt.le, if_pos hlt, if_pos (by omega)]
      rfl
    · rw [if_pos le_rfl, if_neg (lt_irrefl i), if_pos rfl, if_neg (by omega), if_pos rfl]
    · rw [if_neg (show ¬i ≤ b by omega), if_neg (show ¬i < b by omega), if_neg (show i ≠ b by omega),
        if_neg (show ¬i + 1 ≤ b by omega), if_neg (show i + 1 ≠ b + 1 by omega), Nat.add_sub_cancel]
      rcases eq_or_ne i (b + 1) with rfl | hne
      · rw [if_pos rfl, if_pos rfl, offset, Nat.cast_sub hwanted]
        omega
      · rw [if_neg hne, if_neg hne]
        obtain ⟨j, rfl⟩ : ∃ j, i = j + 1 := ⟨i - 1, by omega⟩
        rfl

lemma header_split (hb : b < rb.items.length) (hwanted : wanted ≤ (rb.item b).size) (hfree : rb.isFree b = true)
    (i : ℕ) : (rb.split b wanted).header i =
      if i < b then rb.header i
      else if i = b then { rb.header b with next := some (rb.offset b + wanted), size := wanted }
      else if i = b + 1 then ⟨some (rb.offset b), (rb.header b).next, true, (rb.header b).size - wanted⟩
      else if i = b + 2 then { rb.header (b + 1) with prev := some (rb.offset b + wanted) }
      else rb.header (i - 1) := by
  have hlen := @length_split _ rb b wanted hb
  have hitem := @item_split _ rb b wanted hb
  have hoffset := offset_split hb hwanted
  rw [header, isFree]
  simp only [hitem, hoffset, hlen]
  rcases Nat.lt_trichotomy i b with hlt | rfl | hgt
  · simp only [hlt, if_true, show i - 1 ≤ b by omega, show i + 1 ≤ b by omega,
      show i + 1 < rb.items.length + 1 ↔ i + 1 < rb.items.length by omega]
    rfl
  · simp only [lt_irrefl, if_false, if_true, Nat.sub_le, show ¬i + 1 ≤ i by omega,
      show i + 1 < rb.items.length + 1 by omega]
    ext
    · rfl
    · rfl
    · exact hfree.symm
    · rfl
  · simp only [show ¬i < b by omega, show i ≠ b by omega, show i ≠ 0 by omega, show ¬i + 1 ≤ b by omega, if_false,
      show i + 1 ≠ b + 1 by omega, Nat.add_sub_cancel, Nat.add_lt_add_iff_right]
    rcases eq_or_ne i (b + 1) with rfl | hne
    · simp only [if_true, Nat.add_sub_cancel, le_refl, Nat.cast_sub hwanted]
      rfl
    · rw [if_neg hne, if_neg hne, if_neg (show ¬i - 1 ≤ b by omega)]
      rcases eq_or_ne i (b + 2) with rfl | hne'
      · rw [if_pos rfl, if_pos (show b + 2 - 1 = b + 1 from rfl)]
        rfl
      · rw [if_neg (show i - 1 ≠ b + 1 by omega), if_neg hne', header, if_neg (show i - 1 ≠ 0 by omega),
          Nat.sub_add_cancel (by omega)]
        rfl

/-- `place` cuts the block if needed, and puts the item into it. -/
lemma place_eq (rb : CRingBufferBase α) (hb : b < rb.items.length) (x : α) :
    rb.place b wanted x =
      let s := if wanted + itemSize < (rb.item b).size then rb.split b wanted else rb
      { s with items := s.items.set b ⟨(s.item b).size, some x⟩, produce := s.nextBlock b } := by
  by_cases hsplit : wanted + itemSize < (rb.item b).size
  · have hset : (rb.split b wanted).items.set b ⟨wanted, some x⟩ = rb.items.take b ++ ⟨wanted, some x⟩ ::
        ⟨(rb.item b).size - wanted, none⟩ :: rb.items.drop (b + 1) := by
      have htake : (rb.items.take b).length = b := by
        rw [List.length_take]
        omega
      rw [split, List.set_append_right _ _ (by rw [htake]), htake, Nat.sub_self]
      rfl
    have hitem : (rb.split b wanted).item b = ⟨wanted, none⟩ := by
      rw [item_split hb, if_neg (lt_irrefl b), if_pos rfl]
    have hnext : ∀ rb' : CRingBufferBase α, rb'.items.length = (rb.split b wanted).items.length →
        rb'.nextBlock b = (rb.split b wanted).nextBlock b := by
      intro rb' hlen
      rw [nextBlock, nextBlock, hlen]
    simp only [hsplit, if_true, hitem, hset]
    rw [place]
    simp only [gt_iff_lt, hsplit, decide_true, if_true, Bool.true_and, decide_eq_true_eq]
    rw [hnext _ (by rw [← hset, List.length_set])]
    rfl
  · rw [place]
    simp only [gt_iff_lt, hsplit, decide_false, Bool.false_eq_true, if_false, Bool.false_and]
    rw [nextBlock, nextBlock, List.length_set]

end Split

end CRingBufferBase

namespace RingMemory

open CRingBufferBase

/-! ### The relation -/

/-- The memory holds the blocks of the list, with the given bytes in them, and the pointers point to the blocks with the
same index. -/
structure Repr (m : RingMemory) (rb : CRingBufferBase (ℤ × List UInt8)) (data : ℕ → List UInt8) : Prop where
  held : Held m rb.items.length rb.offset rb.header data
  size : m.size = rb.size
  recycle : m.recycle = rb.recycle
  first : m.first = 0
  last : m.last = rb.offset (rb.items.length - 1)
  produce : m.produce = rb.offset rb.produce
  consume : m.consume = rb.offset rb.consume
  produce_lt : rb.produce < rb.items.length
  consume_lt : rb.consume < rb.items.length
  pointer : ∀ i < rb.items.length, ∀ x, (rb.item i).value = some x → x.1 = rb.offset i + itemSize

variable {m : RingMemory} {rb : CRingBufferBase (ℤ × List UInt8)} {data : ℕ → List UInt8}

lemma Repr.nextBlock (h : Repr m rb data) {i : ℕ} (hi : i < rb.items.length) :
    m.nextBlock (rb.offset i) = some (rb.offset (rb.nextBlock i)) := by
  rw [RingMemory.nextBlock, h.held.header i hi, Option.map_some, CRingBufferBase.nextBlock]
  simp only [header]
  split_ifs with hnext
  · rfl
  · rw [Option.getD_none, h.first]
    rfl

/-- The pointer to the block is fixed. -/
lemma Repr.fix (h : Repr m rb data) {k i : ℕ} (hk : k + 1 < rb.items.length) (hfree : rb.isFree (k + 1) = true)
    (hprev : rb.isFree k = true) (hi : i < rb.items.length) :
    (if rb.offset (k + 1) = rb.offset i then rb.offset k else rb.offset i) =
      (rb.mergeBack (k + 1)).1.offset (if k + 1 ≤ i then i - 1 else i) := by
  rw [offset_mergeBack hk hfree hprev]
  rcases Nat.lt_trichotomy i (k + 1) with hlt | rfl | hgt
  · rw [if_neg (fun heq => absurd (h.held.offset_inj hk hi heq) (by omega)), if_neg (show ¬k + 1 ≤ i by omega),
      if_pos (by omega)]
  · rw [if_pos rfl, if_pos le_rfl, Nat.add_sub_cancel, if_pos le_rfl]
  · rw [if_neg (fun heq => absurd (h.held.offset_inj hk hi heq) (by omega)), if_pos hgt.le, if_neg (by omega),
      Nat.sub_add_cancel (by omega)]

lemma Repr.merge (h : Repr m rb rb.data) {k : ℕ} (hk : k + 1 < rb.items.length) (hfree : rb.isFree (k + 1) = true)
    (hprev : rb.isFree k = true) :
    ∃ m', m.merge (rb.offset (k + 1)) (rb.offset k) (rb.header (k + 1)) = some m' ∧
      Repr m' (rb.mergeBack (k + 1)).1 (rb.mergeBack (k + 1)).1.data := by
  have hlen := length_mergeBack hk hfree hprev
  have hitem := item_mergeBack hk hfree hprev
  have hoffset := offset_mergeBack hk hfree hprev
  have hheader := header_mergeBack hk hfree hprev
  have hrest : (rb.mergeBack (k + 1)).1.size = rb.size ∧ (rb.mergeBack (k + 1)).1.recycle = rb.recycle ∧
      (rb.mergeBack (k + 1)).1.produce = (if k + 1 ≤ rb.produce then rb.produce - 1 else rb.produce) ∧
      (rb.mergeBack (k + 1)).1.consume = (if k + 1 ≤ rb.consume then rb.consume - 1 else rb.consume) := by
    rw [mergeBack_succ hfree hprev]
    exact ⟨rfl, rfl, rfl, rfl⟩
  have hproduce := h.fix hk hfree hprev h.produce_lt
  have hconsume := h.fix hk hfree hprev h.consume_lt
  generalize (rb.mergeBack (k + 1)).1 = rb' at *
  obtain ⟨hsize, hrecycle, hproduce', hconsume'⟩ := hrest
  have hdata : ∀ i < rb'.items.length,
      rb'.data i = (if i ≤ k then rb.data i else rb.data (i + 1)) ∨ rb'.data i = [] := by
    intro i _
    rw [CRingBufferBase.data, hitem]
    rcases Nat.lt_trichotomy i k with hlt | rfl | hgt
    · rw [if_pos hlt, if_pos hlt.le]
      exact Or.inl rfl
    · rw [if_neg (lt_irrefl i), if_pos rfl]
      exact Or.inr rfl
    · rw [if_neg (by omega), if_neg (by omega), if_neg (by omega)]
      exact Or.inl rfl
  have hpointer : ∀ i < rb'.items.length, ∀ x, (rb'.item i).value = some x → x.1 = rb'.offset i + itemSize := by
    intro i hi x hx
    rw [hitem] at hx
    rw [hoffset]
    rcases Nat.lt_trichotomy i k with hlt | rfl | hgt
    · rw [if_pos hlt] at hx
      rw [if_pos hlt.le]
      exact h.pointer i (by omega) x hx
    · rw [if_neg (lt_irrefl i), if_pos rfl] at hx
      exact absurd hx (by simp)
    · rw [if_neg (by omega), if_neg (by omega)] at hx
      rw [if_neg (by omega)]
      exact h.pointer (i + 1) (by omega) x hx
  -- what is left is that the stores leave the right headers
  have hend : ∀ (mem : RingMemory) (H : ℕ → ItemHeader), Held mem rb.items.length rb.offset H rb.data →
      (∀ i < rb'.items.length, rb'.header i = if i ≤ k then H i else H (i + 1)) → mem.size = m.size →
      mem.recycle = m.recycle → mem.first = m.first → mem.last = rb'.offset (rb'.items.length - 1) →
      mem.produce = (if rb.offset (k + 1) = m.produce then rb.offset k else m.produce) →
      mem.consume = (if rb.offset (k + 1) = m.consume then rb.offset k else m.consume) → Repr mem rb' rb'.data := by
    intro mem H hmem hH h1 h2 h3 h4 h5 h6
    rw [h.produce, hproduce, ← hproduce'] at h5
    rw [h.consume, hconsume, ← hconsume'] at h6
    have hproduce_lt := h.produce_lt
    have hconsume_lt := h.consume_lt
    rw [← hlen] at hmem
    exact {
      held := (hmem.join (by omega) (data_free hprev)).congr (fun i _ => hoffset i) hH hdata
      size := by rw [h1, h.size, hsize]
      recycle := by rw [h2, h.recycle, hrecycle]
      first := by rw [h3, h.first]
      last := h4
      produce := h5
      consume := h6
      produce_lt := by rw [hproduce']; split_ifs <;> omega
      consume_lt := by rw [hconsume']; split_ifs <;> omega
      pointer := hpointer }
  obtain ⟨items₁, bytes₁, hq, held₁⟩ := h.held.update (i := k) (by omega) fun y =>
    { y with size := y.size + (rb.header (k + 1)).size, next := (rb.header (k + 1)).next }
  rw [RingMemory.merge, hq, Option.bind_some]
  by_cases hlast : k + 1 + 1 < rb.items.length
  · obtain ⟨items₂, bytes₂, hn, held₂⟩ := held₁.update hlast fun z => { z with prev := some (rb.offset k) }
    have hnext : (rb.header (k + 1)).next = some (rb.offset (k + 1 + 1)) := if_pos hlast
    simp only [hnext] at hn held₂ ⊢
    rw [hn]
    refine ⟨_, rfl, hend _ _ (held₂.frame _ rfl rfl rfl) ?_ rfl rfl rfl ?_ rfl rfl⟩
    · intro i hi
      rw [hheader]
      rcases Nat.lt_trichotomy i k with hlt | rfl | hgt
      · rw [if_pos hlt, if_pos hlt.le, Function.update_of_ne (by omega), Function.update_of_ne (by omega)]
      · rw [if_neg (lt_irrefl i), if_pos rfl, if_pos le_rfl, Function.update_of_ne (by omega), Function.update_self,
          hnext]
      · rw [if_neg (show ¬i < k by omega), if_neg (show i ≠ k by omega), if_neg (show ¬i ≤ k by omega)]
        rcases eq_or_ne i (k + 1) with rfl | hne
        · rw [if_pos rfl, Function.update_self, Function.update_of_ne (by omega)]
        · rw [if_neg hne, Function.update_of_ne (by omega), Function.update_of_ne (by omega)]
    · rw [hoffset, if_neg (by omega), show rb'.items.length - 1 + 1 = rb.items.length - 1 by omega]
      exact h.last
  · have hnext : (rb.header (k + 1)).next = none := if_neg hlast
    simp only [hnext] at held₁ ⊢
    refine ⟨_, rfl, hend _ _ (held₁.frame _ rfl rfl rfl) ?_ rfl rfl rfl ?_ rfl rfl⟩
    · intro i hi
      rw [hheader]
      rcases Nat.lt_trichotomy i k with hlt | rfl | hgt
      · rw [if_pos hlt, if_pos hlt.le, Function.update_of_ne (by omega)]
      · rw [if_neg (lt_irrefl i), if_pos rfl, if_pos le_rfl, Function.update_self, hnext]
      · exact absurd hi (by omega)
    · rw [hoffset, if_pos (by omega), show rb'.items.length - 1 = k by omega]

/-- `MergeBack`. -/
lemma Repr.mergeBack (h : Repr m rb rb.data) {i : ℕ} (hi : i < rb.items.length) :
    ∃ m', m.mergeBack (rb.offset i) = some (m', (rb.mergeBack i).1.offset (rb.mergeBack i).2) ∧
      Repr m' (rb.mergeBack i).1 (rb.mergeBack i).1.data ∧ (rb.mergeBack i).2 < (rb.mergeBack i).1.items.length := by
  rw [RingMemory.mergeBack, h.held.header i hi, Option.bind_some]
  cases i with
  | zero =>
    rw [mergeBack_zero]
    refine ⟨m, ?_, h, hi⟩
    cases (rb.header 0).free <;> rfl
  | succ k =>
    have hprev : (rb.header (k + 1)).prev = some (rb.offset k) := rfl
    have hfree : (rb.header (k + 1)).free = rb.isFree (k + 1) := rfl
    rw [hprev, hfree]
    rcases hused : rb.isFree (k + 1) with _ | _
    · rw [mergeBack_used hused]
      exact ⟨m, rfl, h, hi⟩
    · simp only [h.held.header k (by omega), Option.bind_some]
      have hfree' : (rb.header k).free = rb.isFree k := rfl
      rw [hfree']
      rcases hused' : rb.isFree k with _ | _
      · rw [mergeBack_prev_used hused']
        exact ⟨m, rfl, h, hi⟩
      · obtain ⟨m', hmerge, hrepr⟩ := h.merge hi hused hused'
        have hlen := length_mergeBack hi hused hused'
        have hblock : (rb.mergeBack (k + 1)).2 = k := by rw [mergeBack_succ hused hused']
        rw [if_pos rfl, hmerge, Option.map_some, hblock, offset_mergeBack hi hused hused', if_pos le_rfl]
        exact ⟨m', rfl, hrepr, by omega⟩

/-- The consume pointer is moved. -/
lemma Repr.setConsume (h : Repr m rb data) {i : ℕ} (hi : i < rb.items.length) :
    Repr { m with consume := rb.offset i } { rb with consume := i } data := by
  have hoffset : ({ rb with consume := i } : CRingBufferBase (ℤ × List UInt8)).offset = rb.offset := offset_of_items rfl
  have hheader : ({ rb with consume := i } : CRingBufferBase (ℤ × List UInt8)).header = rb.header := header_of_items rfl
  exact {
    held := by
      rw [hoffset, hheader]
      exact h.held.frame _ rfl rfl rfl
    size := h.size
    recycle := h.recycle
    first := h.first
    last := by rw [hoffset]; exact h.last
    produce := by rw [hoffset]; exact h.produce
    consume := by rw [hoffset]
    produce_lt := h.produce_lt
    consume_lt := hi
    pointer := by rw [hoffset]; exact h.pointer }

/-- The produce pointer is moved. -/
lemma Repr.setProduce (h : Repr m rb data) {i : ℕ} (hi : i < rb.items.length) :
    Repr { m with produce := rb.offset i } { rb with produce := i } data := by
  have hoffset : ({ rb with produce := i } : CRingBufferBase (ℤ × List UInt8)).offset = rb.offset := offset_of_items rfl
  have hheader : ({ rb with produce := i } : CRingBufferBase (ℤ × List UInt8)).header = rb.header := header_of_items rfl
  exact {
    held := by
      rw [hoffset, hheader]
      exact h.held.frame _ rfl rfl rfl
    size := h.size
    recycle := h.recycle
    first := h.first
    last := by rw [hoffset]; exact h.last
    produce := by rw [hoffset]
    consume := by rw [hoffset]; exact h.consume
    produce_lt := hi
    consume_lt := h.consume_lt
    pointer := by rw [hoffset]; exact h.pointer }

/-- A block is set as used or free.  The bytes of a new item are still to be stored. -/
lemma Repr.setValue (h : Repr m rb data) {i : ℕ} (hi : i < rb.items.length) (v : Option (ℤ × List UInt8))
    (hv : ∀ x, v = some x → x.1 = rb.offset i + itemSize) :
    ∃ items bytes, m.update (rb.offset i) (fun y => { y with free := v.isNone }) =
        some { m with items := items, bytes := bytes } ∧
      Repr { m with items := items, bytes := bytes } { rb with items := rb.items.set i ⟨(rb.item i).size, v⟩ }
        (Function.update data i []) := by
  obtain ⟨items, bytes, hstore, hheld⟩ := h.held.update hi fun y => { y with free := v.isNone }
  refine ⟨items, bytes, hstore, ?_⟩
  have hitem := item_set rb hi ⟨(rb.item i).size, v⟩
  have hlen : (rb.items.set i ⟨(rb.item i).size, v⟩).length = rb.items.length := List.length_set
  generalize hset : rb.items.set i ⟨(rb.item i).size, v⟩ = list at hitem hlen ⊢
  have hoffset : ({ rb with items := list } : CRingBufferBase (ℤ × List UInt8)).offset = rb.offset := by
    ext j
    refine offset_congr fun k _ => ?_
    rw [hitem]
    split_ifs with hk
    · rw [hk]
    · rfl
  have hheader : ∀ j, ({ rb with items := list } : CRingBufferBase (ℤ × List UInt8)).header j =
      Function.update rb.header i { rb.header i with free := v.isNone } j := by
    intro j
    rw [header, hoffset, isFree, hitem]
    simp only [hlen]
    rcases eq_or_ne j i with rfl | hne
    · rw [if_pos rfl, Function.update_self]
      rfl
    · rw [if_neg hne, Function.update_of_ne hne]
      rfl
  exact {
    held := by
      rw [hoffset]
      simp only [hlen]
      refine hheld.congr (fun _ _ => rfl) (fun j _ => hheader j) fun j _ => ?_
      rcases eq_or_ne j i with rfl | hne
      · exact Or.inr (Function.update_self ..)
      · exact Or.inl (Function.update_of_ne hne ..)
    size := h.size
    recycle := h.recycle
    first := h.first
    last := by
      rw [hoffset]
      simp only [hlen]
      exact h.last
    produce := by rw [hoffset]; exact h.produce
    consume := by rw [hoffset]; exact h.consume
    produce_lt := by simpa only [hlen] using h.produce_lt
    consume_lt := by simpa only [hlen] using h.consume_lt
    pointer := by
      intro j hj x hx
      rw [hitem] at hx
      rw [hoffset]
      split_ifs at hx with hji
      · rw [hji]
        exact hv x hx
      · exact h.pointer j (by simpa only [hlen] using hj) x hx }

/-! ### Taking the first item off -/

/-- How many blocks the consume pointer is behind the produce pointer. -/
def distance (rb : CRingBufferBase (ℤ × List UInt8)) : ℕ :=
  if rb.consume ≤ rb.produce then rb.produce - rb.consume else rb.items.length - rb.consume + rb.produce

/-- Every round of the loop brings it closer. -/
lemma distance_step (hproduce : rb.produce < rb.items.length) (hconsume : rb.consume < rb.items.length)
    (hne : rb.consume ≠ rb.produce) :
    distance { (rb.mergeBack rb.consume).1 with
      consume := (rb.mergeBack rb.consume).1.nextBlock (rb.mergeBack rb.consume).2 } + 1 = distance rb := by
  by_cases hmerge : ∃ k, rb.consume = k + 1 ∧ rb.isFree (k + 1) = true ∧ rb.isFree k = true
  · obtain ⟨k, hk, hfree, hprev⟩ := hmerge
    have hlen := length_mergeBack (hk ▸ hconsume) hfree hprev
    have hparts : (rb.mergeBack (k + 1)).2 = k ∧
        (rb.mergeBack (k + 1)).1.produce = if k + 1 ≤ rb.produce then rb.produce - 1 else rb.produce := by
      rw [mergeBack_succ hfree hprev]
      exact ⟨rfl, rfl⟩
    rw [distance, distance, hk, CRingBufferBase.nextBlock]
    simp only [hparts.1, hparts.2]
    split_ifs <;> omega
  · have hkeep : rb.mergeBack rb.consume = (rb, rb.consume) := by
      rw [CRingBufferBase.mergeBack]
      refine if_pos ?_
      by_contra hcond
      simp only [Bool.or_eq_true, not_or, Bool.not_eq_true', decide_eq_true_eq, Bool.not_eq_false]
        at hcond
      obtain ⟨⟨hfree, hzero⟩, hprev⟩ := hcond
      exact hmerge ⟨rb.consume - 1, by omega, by rwa [Nat.sub_add_cancel (by omega)], hprev⟩
    rw [hkeep, distance, distance, CRingBufferBase.nextBlock]
    simp only
    split_ifs <;> omega

lemma advance_succ (k : ℕ) (m : RingMemory) : advance (k + 1) m =
    (m.items m.consume).bind fun x =>
      if x.free ∧ m.consume ≠ m.produce then
        (m.mergeBack m.consume).bind fun r =>
          (r.1.nextBlock r.2).bind fun n => advance k { r.1 with consume := n }
      else some m := rfl

/-- The loop of `PopFirst` ends within the given number of rounds. -/
lemma Repr.advance {rounds : ℕ} (fuel : ℕ) (hfuel : fuel < rounds) (h : Repr m rb rb.data)
    (hdistance : distance rb ≤ fuel) :
    ∃ m', RingMemory.advance rounds m = some m' ∧
      Repr m' (CRingBufferBase.advance fuel rb) (CRingBufferBase.advance fuel rb).data := by
  induction fuel generalizing rounds m rb with
  | zero =>
    obtain ⟨k, rfl⟩ : ∃ k, rounds = k + 1 := ⟨rounds - 1, by omega⟩
    have heq : rb.consume = rb.produce := by
      have hconsume := h.consume_lt
      rw [distance] at hdistance
      split_ifs at hdistance <;> omega
    refine ⟨m, ?_, h⟩
    rw [advance_succ, h.consume, h.held.header _ h.consume_lt, Option.bind_some, h.produce, heq]
    simp
  | succ fuel ih =>
    obtain ⟨k, rfl⟩ : ∃ k, rounds = k + 1 := ⟨rounds - 1, by omega⟩
    rw [advance_succ, h.consume, h.held.header _ h.consume_lt, Option.bind_some, h.produce]
    by_cases hgo : rb.isFree rb.consume = true ∧ rb.consume ≠ rb.produce
    · obtain ⟨hfree, hne⟩ := hgo
      have hne' : rb.offset rb.consume ≠ rb.offset rb.produce := fun heq =>
        hne (h.held.offset_inj h.consume_lt h.produce_lt heq)
      have hstep := distance_step h.produce_lt h.consume_lt hne
      obtain ⟨m₁, hmerge, hrepr, hblock⟩ := h.mergeBack h.consume_lt
      rw [if_pos ⟨hfree, hne'⟩, hmerge, Option.bind_some, hrepr.nextBlock hblock, Option.bind_some,
        advance_step hfree hne rfl]
      exact ih (by omega) (hrepr.setConsume (nextBlock_lt hblock)) (Nat.le_of_succ_le_succ (hstep.trans_le hdistance))
    · have hstop : rb.isFree rb.consume = false ∨ rb.consume = rb.produce := by
        rcases hfree : rb.isFree rb.consume with _ | _
        · exact Or.inl rfl
        · exact Or.inr (by_contra fun hne => hgo ⟨hfree, hne⟩)
      have hcond : ¬((rb.header rb.consume).free = true ∧ rb.offset rb.consume ≠ rb.offset rb.produce) := by
        rintro ⟨hfree, hne⟩
        exact hgo ⟨hfree, fun heq => hne (by rw [heq])⟩
      rw [if_neg hcond, advance_stop _ hstop]
      exact ⟨m, rfl, h⟩

lemma distance_le (hproduce : rb.produce < rb.items.length) : distance rb ≤ rb.items.length := by
  rw [distance]
  split_ifs <;> omega

lemma data_setValue (rb : CRingBufferBase (ℤ × List UInt8)) {i : ℕ} (hi : i < rb.items.length)
    (v : Option (ℤ × List UInt8)) :
    ({ rb with items := rb.items.set i ⟨(rb.item i).size, v⟩ } : CRingBufferBase (ℤ × List UInt8)).data =
      Function.update rb.data i ((v.map Prod.snd).getD []) := by
  ext1 j
  rw [CRingBufferBase.data, item_set rb hi]
  rcases eq_or_ne j i with rfl | hne
  · rw [if_pos rfl, Function.update_self]
  · rw [if_neg hne, Function.update_of_ne hne]
    rfl

lemma Repr.popFirst_free (h : Repr m rb data) (hfree : rb.isFree rb.consume = true) : m.popFirst = some (m, none) := by
  rw [RingMemory.popFirst, h.consume, h.held.header _ h.consume_lt, Option.bind_some]
  exact if_pos hfree

/-- `PopFirst` with an item to pop. -/
lemma Repr.popFirst (h : Repr m rb rb.data) (hused : rb.isFree rb.consume = false) :
    ∃ m', m.popFirst = some (m', some (rb.offset rb.consume + itemSize)) ∧
      Repr m' rb.popFirst.1 rb.popFirst.1.data := by
  have hfree : (rb.header rb.consume).free = false := hused
  obtain ⟨items, bytes, hstore, hrepr₁⟩ := h.setValue h.consume_lt none (by simp)
  have hdata := data_setValue rb h.consume_lt none
  rw [Option.map_none, Option.getD_none] at hdata
  rw [← hdata] at hrepr₁
  have hpop : ∀ rb₁ : CRingBufferBase (ℤ × List UInt8),
      { rb with items := rb.items.set rb.consume ⟨(rb.item rb.consume).size, none⟩ } = rb₁ →
      rb.popFirst.1 = (rb₁.mergeBack rb₁.consume).1.catchUp (rb₁.mergeBack rb₁.consume).2 := by
    rintro rb₁ rfl
    rw [CRingBufferBase.popFirst, if_neg (by simp [hused])]
  generalize hrb₁ : ({ rb with items := rb.items.set rb.consume ⟨(rb.item rb.consume).size, none⟩ } :
    CRingBufferBase (ℤ × List UInt8)) = rb₁ at hrepr₁
  obtain ⟨m₂, hmerge₂, hrepr₂, hblock⟩ := hrepr₁.mergeBack hrepr₁.consume_lt
  have hle : (rb₁.mergeBack rb₁.consume).1.items.length ≤ m.memory / itemSize :=
    (length_mergeBack_le rb₁ rb₁.consume).trans hrepr₁.held.length_le
  rw [hpop rb₁ hrb₁, CRingBufferBase.catchUp]
  generalize rb₁.mergeBack rb₁.consume = r at hmerge₂ hrepr₂ hblock hle
  have hrepr₃ := hrepr₂.setConsume (nextBlock_lt hblock)
  obtain ⟨m₄, hadvance, hrepr₄⟩ := @Repr.advance _ _ m.rounds _
    (Nat.lt_of_le_of_lt hle (by rw [RingMemory.rounds]; omega)) hrepr₃ (distance_le hrepr₃.produce_lt)
  obtain ⟨m₅, hmerge₅, hrepr₅, -⟩ := hrepr₄.mergeBack hrepr₄.consume_lt
  rw [← hrepr₁.consume] at hmerge₂
  rw [← hrepr₄.consume] at hmerge₅
  have hstore' : m.update m.consume (fun x => { x with free := true }) = _ := h.consume.symm ▸ hstore
  refine ⟨m₅, ?_, hrepr₅⟩
  have hheader := h.held.header _ h.consume_lt
  rw [← h.consume] at hheader ⊢
  rw [RingMemory.popFirst, hheader, Option.bind_some, hfree, if_neg (by simp)]
  have hadvance' : RingMemory.advance ({ m with items := items, bytes := bytes } : RingMemory).rounds _ = _ := hadvance
  simp only [hstore', Option.bind_some, hmerge₂, hrepr₂.nextBlock hblock]
  rw [hadvance', Option.bind_some, hmerge₅, Option.map_some]

/-! ### Appending an item -/

/-- The search for a block. -/
lemma Repr.findBlock (h : Repr m rb data) (wanted : ℕ) :
    m.findBlock wanted = some ((rb.findBlock wanted).map rb.offset) := by
  rw [RingMemory.findBlock, h.produce, h.held.header _ h.produce_lt, Option.bind_some, CRingBufferBase.findBlock]
  have hfree : (rb.header rb.produce).free = rb.isFree rb.produce := rfl
  have hsize : (rb.header rb.produce).size = (rb.item rb.produce).size := rfl
  simp only [hfree, hsize, Nat.cast_le]
  by_cases h1 : rb.isFree rb.produce = true
  · rw [if_pos h1, if_pos h1]
    by_cases h2 : wanted ≤ (rb.item rb.produce).size
    · rw [if_pos h2, if_pos h2]
      rfl
    · have hfirst : m.items m.first = some (rb.header 0) := by
        rw [h.first]
        exact h.held.header 0 (Nat.zero_lt_of_lt h.produce_lt)
      have hcond : ((rb.header 0).free = true ∧ (wanted : ℤ) ≤ (rb.header 0).size) ↔
          (rb.isFree 0 && decide (wanted ≤ (rb.item 0).size)) = true := by
        rw [Bool.and_eq_true, decide_eq_true_eq, ← Nat.cast_le (α := ℤ)]
        rfl
      rw [if_neg h2, if_neg h2, hfirst, Option.map_some]
      simp only [hcond, h.first]
      split_ifs <;> rfl
  · rw [if_neg h1, if_neg h1]
    rfl

lemma findBlock_free {wanted block : ℕ} (hlen : 0 < rb.items.length) (hproduce : rb.produce < rb.items.length)
    (h : rb.findBlock wanted = some block) :
    block < rb.items.length ∧ rb.isFree block = true ∧ wanted ≤ (rb.item block).size := by
  rw [CRingBufferBase.findBlock] at h
  split_ifs at h with h1 h2 h3
  · obtain rfl : rb.produce = block := by simpa using h
    exact ⟨hproduce, h1, h2⟩
  · obtain rfl : 0 = block := by simpa using h
    rw [Bool.and_eq_true, decide_eq_true_eq] at h3
    exact ⟨hlen, h3⟩

lemma Repr.split (h : Repr m rb rb.data) {b wanted : ℕ} (hb : b < rb.items.length) (hfree : rb.isFree b = true)
    (hwanted : itemSize ≤ wanted) (hsplit : wanted + itemSize < (rb.item b).size) :
    ∃ m', m.split (rb.offset b) wanted (rb.header b) = some m' ∧
      Repr m' (rb.split b wanted) (rb.split b wanted).data := by
  have hle : wanted ≤ (rb.item b).size := by omega
  have hlen := @length_split _ rb b wanted hb
  have hitem := @item_split _ rb b wanted hb
  have hoffset := offset_split hb hle
  have hheader := header_split hb hle hfree
  have hrest : (rb.split b wanted).size = rb.size ∧ (rb.split b wanted).recycle = rb.recycle ∧
      (rb.split b wanted).produce = (if b < rb.produce then rb.produce + 1 else rb.produce) ∧
      (rb.split b wanted).consume = (if b < rb.consume then rb.consume + 1 else rb.consume) := ⟨rfl, rfl, rfl, rfl⟩
  have hfix : ∀ i, (rb.split b wanted).offset (if b < i then i + 1 else i) = rb.offset i := by
    intro i
    rw [hoffset]
    rcases Nat.lt_or_ge b i with hlt | hge
    · rw [if_pos hlt, if_neg (show ¬i + 1 ≤ b by omega), if_neg (show i + 1 ≠ b + 1 by omega), Nat.add_sub_cancel]
    · rw [if_neg (show ¬b < i by omega), if_pos hge]
  generalize rb.split b wanted = rb' at *
  obtain ⟨hsize, hrecycle, hproduce', hconsume'⟩ := hrest
  obtain ⟨items₁, bytes₁, hstore, held₁⟩ := h.held.split hb (data_free hfree)
    (show (itemSize : ℤ) ≤ (wanted : ℤ) by exact_mod_cast hwanted) (by rw [offset]; omega)
    ⟨some (rb.offset b), (rb.header b).next, true, (rb.header b).size - wanted⟩
  have hdata : ∀ i < rb'.items.length, rb'.data i =
      (if i ≤ b then rb.data i else if i = b + 1 then [] else rb.data (i - 1)) ∨ rb'.data i = [] := by
    intro i _
    rw [CRingBufferBase.data, hitem]
    rcases Nat.lt_trichotomy i b with hlt | rfl | hgt
    · rw [if_pos hlt, if_pos hlt.le]
      exact Or.inl rfl
    · rw [if_neg (lt_irrefl i), if_pos rfl]
      exact Or.inr rfl
    · rw [if_neg (show ¬i < b by omega), if_neg (show i ≠ b by omega), if_neg (show ¬i ≤ b by omega)]
      rcases eq_or_ne i (b + 1) with rfl | hne
      · rw [if_pos rfl]
        exact Or.inr rfl
      · rw [if_neg hne, if_neg hne]
        exact Or.inl rfl
  have hpointer : ∀ i < rb'.items.length, ∀ x, (rb'.item i).value = some x → x.1 = rb'.offset i + itemSize := by
    intro i hi x hx
    rw [hitem] at hx
    rw [hoffset]
    rcases Nat.lt_trichotomy i b with hlt | rfl | hgt
    · rw [if_pos hlt] at hx
      rw [if_pos hlt.le]
      exact h.pointer i (by omega) x hx
    · rw [if_neg (lt_irrefl i), if_pos rfl] at hx
      exact absurd hx (by simp)
    · rw [if_neg (show ¬i < b by omega), if_neg (show i ≠ b by omega)] at hx
      rw [if_neg (show ¬i ≤ b by omega)]
      rcases eq_or_ne i (b + 1) with rfl | hne
      · rw [if_pos rfl] at hx
        exact absurd hx (by simp)
      · rw [if_neg hne] at hx ⊢
        exact h.pointer (i - 1) (by omega) x hx
  -- what is left is that the stores leave the right headers
  have hend : ∀ (mem : RingMemory) (H : ℕ → ItemHeader) (D : ℕ → List UInt8),
      Held mem rb'.items.length rb'.offset H D → (∀ i < rb'.items.length, rb'.data i = D i ∨ rb'.data i = []) →
      (∀ i < rb'.items.length, rb'.header i = H i) → mem.size = m.size → mem.recycle = m.recycle →
      mem.first = m.first → mem.last = rb'.offset (rb'.items.length - 1) → mem.produce = m.produce →
      mem.consume = m.consume → Repr mem rb' rb'.data := by
    intro mem H D hmem hD hH h1 h2 h3 h4 h5 h6
    have hproduce_lt := h.produce_lt
    have hconsume_lt := h.consume_lt
    exact {
      held := hmem.congr (fun i _ => rfl) hH hD
      size := by rw [h1, h.size, hsize]
      recycle := by rw [h2, h.recycle, hrecycle]
      first := by rw [h3, h.first]
      last := h4
      produce := by rw [h5, h.produce, hproduce', hfix]
      consume := by rw [h6, h.consume, hconsume', hfix]
      produce_lt := by rw [hproduce']; split_ifs <;> omega
      consume_lt := by rw [hconsume']; split_ifs <;> omega
      pointer := hpointer }
  have hp : rb'.offset b = rb.offset b := by rw [hoffset, if_pos le_rfl]
  have hnew : rb'.offset (b + 1) = rb.offset b + wanted := by rw [hoffset, if_neg (by omega), if_pos rfl]
  have held₂ := @Held.congr _ _ _ _ _ held₁ rb'.offset _ _ (fun i _ => hoffset i) (fun _ _ => rfl)
    fun _ _ => Or.inl rfl
  rw [← hlen] at held₂
  rw [RingMemory.split, hstore, Option.bind_some]
  by_cases hlast : b + 1 < rb.items.length
  · have hnext : (rb.header b).next = some (rb.offset (b + 1)) := if_pos hlast
    have hafter : rb'.offset (b + 2) = rb.offset (b + 1) := by
      rw [hoffset, if_neg (by omega), if_neg (by omega)]
      rfl
    obtain ⟨items₂, bytes₂, hlink, held₃⟩ := held₂.update (i := b + 2) (by omega) fun z =>
      { z with prev := some (rb.offset b + wanted) }
    obtain ⟨items₃, bytes₃, hfirst, held₄⟩ := held₃.update (i := b) (by omega) fun y =>
      { y with next := some (rb.offset b + wanted), size := wanted }
    have hread := held₄.header (b + 1) (by omega)
    rw [hafter] at hlink
    rw [hp] at hfirst
    rw [hnew, Function.update_of_ne (by omega), Function.update_of_ne (by omega), if_neg (by omega), if_pos rfl]
      at hread
    simp only [hnext] at hlink hfirst hread ⊢
    rw [hlink, Option.bind_some, hfirst, Option.bind_some]
    simp only [hread, Option.map_some, reduceCtorEq, if_false]
    refine ⟨_, rfl, hend _ _ _ held₄ hdata ?_ rfl rfl rfl ?_ rfl rfl⟩
    · intro i hi
      rw [hheader]
      rcases Nat.lt_trichotomy i b with hlt | rfl | hgt
      · rw [if_pos hlt, Function.update_of_ne (by omega), Function.update_of_ne (by omega), if_pos hlt.le]
      · rw [if_neg (lt_irrefl i), if_pos rfl, Function.update_self, Function.update_of_ne (by omega), if_pos le_rfl]
      · rw [if_neg (show ¬i < b by omega), if_neg (show i ≠ b by omega), Function.update_of_ne (by omega)]
        rcases eq_or_ne i (b + 2) with rfl | hne
        · rw [if_neg (by omega), if_pos rfl, Function.update_self, if_neg (by omega), if_neg (by omega)]
          rfl
        · rw [if_neg hne, Function.update_of_ne hne, if_neg (show ¬i ≤ b by omega), hnext]
    · rw [hoffset, if_neg (by omega), if_neg (by omega), hlen, Nat.add_sub_cancel]
      exact h.last
  · have hnext : (rb.header b).next = none := if_neg hlast
    obtain ⟨items₃, bytes₃, hfirst, held₄⟩ := held₂.update (i := b) (by omega) fun y =>
      { y with next := some (rb.offset b + wanted), size := wanted }
    have hread := held₄.header (b + 1) (by omega)
    rw [hp] at hfirst
    rw [hnew, Function.update_of_ne (by omega), if_neg (by omega), if_pos rfl] at hread
    simp only [hnext] at hfirst hread ⊢
    rw [Option.bind_some, hfirst, Option.bind_some]
    simp only [hread, Option.map_some, if_true]
    refine ⟨_, rfl, hend _ _ _ (held₄.frame _ rfl rfl rfl) hdata ?_ rfl rfl rfl ?_ rfl rfl⟩
    · intro i hi
      rw [hheader]
      rcases Nat.lt_trichotomy i b with hlt | rfl | hgt
      · rw [if_pos hlt, Function.update_of_ne (by omega), if_pos hlt.le]
      · rw [if_neg (lt_irrefl i), if_pos rfl, Function.update_self, if_pos le_rfl]
      · rw [if_neg (show ¬i < b by omega), if_neg (show i ≠ b by omega), Function.update_of_ne (by omega),
          if_neg (show ¬i ≤ b by omega), if_pos (show i = b + 1 by omega), if_pos (show i = b + 1 by omega), hnext]
    · rw [hlen, show rb.items.length + 1 - 1 = b + 1 by omega, hnew]

lemma toInt_eq {n : ℤ} (hlo : -2 ^ 31 ≤ n) (hhi : n < 2 ^ 31) : toInt n = n :=
  Int.bmod_eq_of_le (by norm_num; exact hlo) (by norm_num; exact hhi)

/-- The end of `Allocate`.  The bytes are still to be stored. -/
lemma Repr.place (h : Repr m rb rb.data) {b wanted : ℕ} (hb : b < rb.items.length) (hfree : rb.isFree b = true)
    (hwanted : itemSize ≤ wanted) (hint : (wanted : ℤ) + itemSize < 2 ^ 31) (x : ℤ × List UInt8)
    (hx : x.1 = rb.offset b + itemSize) :
    ∃ m', m.place (rb.offset b) wanted = some m' ∧
      Repr m' (rb.place b wanted x) (Function.update (rb.place b wanted x).data b []) := by
  have hsize : (rb.header b).size = (rb.item b).size := rfl
  have htoInt : toInt ((wanted : ℤ) + itemSize) = (wanted + itemSize : ℕ) := by
    rw [toInt_eq (by omega) hint, Nat.cast_add]
  -- the block is cut in two, or it is large enough as it is
  obtain ⟨s, m₁, hs, hcut, hrepr, hlt, hoffset⟩ : ∃ s m₁,
      (if wanted + itemSize < (rb.item b).size then rb.split b wanted else rb) = s ∧
      (if toInt ((wanted : ℤ) + itemSize) < (rb.header b).size then m.split (rb.offset b) wanted (rb.header b)
        else some m) = some m₁ ∧ Repr m₁ s s.data ∧ b < s.items.length ∧ s.offset b = rb.offset b := by
    simp only [htoInt, hsize, Nat.cast_lt]
    by_cases hsplit : wanted + itemSize < (rb.item b).size
    · obtain ⟨m₁, hcut, hrepr⟩ := h.split hb hfree hwanted hsplit
      refine ⟨_, m₁, if_pos hsplit, by rw [if_pos hsplit, hcut], hrepr, by rw [length_split hb]; omega, ?_⟩
      rw [offset_split hb (by omega), if_pos le_rfl]
    · exact ⟨rb, m, if_neg hsplit, if_neg hsplit, h, hb, rfl⟩
  obtain ⟨items, bytes, hstore, hrepr'⟩ := (hrepr.setProduce (nextBlock_lt hlt)).setValue hlt (some x) (by
    rintro y hy
    obtain rfl : x = y := by simpa using hy
    have hsame : ({ s with produce := s.nextBlock b } : CRingBufferBase (ℤ × List UInt8)).offset = s.offset :=
      offset_of_items rfl
    rw [hsame, hoffset, hx])
  have hsame : ({ s with produce := s.nextBlock b } : CRingBufferBase (ℤ × List UInt8)).offset = s.offset :=
    offset_of_items rfl
  rw [hsame, hoffset] at hstore
  have hplace := @place_eq _ b wanted rb hb x
  simp only [hs] at hplace
  have hdata : Function.update (rb.place b wanted x).data b [] = Function.update s.data b [] := by
    have hset := data_setValue s hlt (some x)
    have hfields : (rb.place b wanted x).data = ({ s with items := s.items.set b ⟨(s.item b).size, some x⟩ } :
        CRingBufferBase (ℤ × List UInt8)).data := by
      rw [hplace]
      rfl
    rw [hfields, hset, Function.update_idem]
  rw [hdata, hplace]
  rw [RingMemory.place, h.held.header b hb, Option.bind_some, hcut, Option.bind_some, ← hoffset, hrepr.nextBlock hlt,
    Option.bind_some, hoffset]
  exact ⟨_, hstore, hrepr'⟩

/-- The bytes of the new item are stored. -/
lemma Repr.storeData {b : ℕ} (h : Repr m rb (Function.update rb.data b [])) (hb : b < rb.items.length)
    {x : ℤ × List UInt8} (hx : (rb.item b).value = some x) (hroom : itemSize + x.2.length ≤ (rb.item b).size) :
    ∃ m', m.storeData x.1 x.2 = some m' ∧ Repr m' rb rb.data := by
  obtain ⟨items, bytes, hstore, hheld⟩ := @Held.storeData _ _ _ _ _ h.held _ hb x.2 (by rw [offset]; omega)
  have hdata : Function.update (Function.update rb.data b []) b x.2 = rb.data := by
    have hb' : x.2 = rb.data b := by rw [CRingBufferBase.data, hx]; rfl
    rw [Function.update_idem, hb', Function.update_eq_self]
  rw [hdata] at hheld
  rw [h.pointer b hb x hx]
  exact ⟨_, hstore, hheld, h.size, h.recycle, h.first, h.last, h.produce, h.consume, h.produce_lt, h.consume_lt,
    h.pointer⟩

end RingMemory

end DDNet
