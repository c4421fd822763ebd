/-
The limits of the snapshot builder (`engine/shared/snapshot.cpp`).

`NewItem` makes sure that there is room for the item.  If the item is the first one of an extended type, then the hidden
item of the type goes in before it, and its place has not been counted.  The builder stays within its limits as long as
no such call finds room for one of the two items only (`run_keeps_iff`).
-/
import DDNet.Shared.SnapshotFind

namespace DDNet

namespace CSnapshot

/-- `IsValid`, for offsets that are those of the items. -/
def isValid (s : CSnapshot) (actualSize : ℕ) : Bool :=
  8 ≤ actualSize && actualSize ≤ maxSize && s.length ≤ maxItems && actualSize = totalSize s &&
    (List.range s.length).all (fun index => offset s index ≤ dataSize s) &&
    (List.range s.length).all (fun index => 0 ≤ getItemSize s index)

lemma offset_add_size {s : CSnapshot} {item : CSnapshotItem} {i : ℕ} (h : s[i]? = some item) :
    offset s i + item.size ≤ dataSize s := by
  have hwhole : dataSize s = dataSize (s.take (i + 1)) + dataSize (s.drop (i + 1)) := by
    rw [dataSize, dataSize, dataSize, ← List.sum_append, ← List.map_append, List.take_append_drop]
  have hnext : dataSize (s.take (i + 1)) = offset s i + item.size := by
    rw [offset, List.take_add_one, h, dataSize, List.map_append, List.sum_append]
    rfl
  omega

/-- The offsets of items that fit are those of a valid snapshot. -/
lemma isValid_totalSize {s : CSnapshot} (hlength : s.length ≤ maxItems) (hsize : totalSize s ≤ maxSize) :
    isValid s (totalSize s) = true := by
  have hitem : ∀ index ∈ List.range s.length, ∃ item, s[index]? = some item := fun index hindex =>
    ⟨_, List.getElem?_eq_getElem (List.mem_range.1 hindex)⟩
  have hoffsets : (List.range s.length).all (fun index => offset s index ≤ dataSize s) = true := by
    refine List.all_eq_true.2 fun index hindex => decide_eq_true ?_
    obtain ⟨item, hitem⟩ := hitem index hindex
    exact le_trans (Nat.le_add_right _ _) (offset_add_size hitem)
  have hsizes : (List.range s.length).all (fun index => 0 ≤ getItemSize s index) = true := by
    refine List.all_eq_true.2 fun index hindex => decide_eq_true ?_
    obtain ⟨item, hitem⟩ := hitem index hindex
    rw [getItemSize_of_getElem? hitem]
    omega
  have hhead : 8 ≤ totalSize s := by
    rw [totalSize]
    omega
  rw [isValid, hoffsets, hsizes]
  simp [hhead, hsize, hlength]

end CSnapshot

namespace CSnapshotBuilder

open CSnapshot

variable {sixToSeven : ℤ → ℤ} {uuids : CUuidManager} {b b' : CSnapshotBuilder} {type id : ℤ} {data : List (BitVec 32)}

/-! ### One call -/

/-- The builder has not more items and bytes than a snapshot can have. -/
structure Fits (b : CSnapshotBuilder) : Prop where
  items : b.items.length ≤ maxItems
  size : totalSize b.items ≤ maxSize

/-- The builder is within its limits: the offsets and the data that were written lie in `m_aOffsets` and `m_aData`, and
`Finish` makes a valid snapshot of it. -/
structure Keeps (b : CSnapshotBuilder) : Prop where
  fits : Fits b
  written : ∀ index item, b.items[index]? = some item → index < maxItems ∧ offset b.items index + item.size ≤ maxSize
  finished : ∃ s, b.finish = some s ∧ isValid s (totalSize s) = true

lemma Fits.keeps (h : Fits b) : Keeps b := by
  refine ⟨h, fun index item hitem => ⟨?_, ?_⟩, b.items, if_pos ⟨h.items, h.size⟩, isValid_totalSize h.items h.size⟩
  · exact lt_of_lt_of_le (List.getElem?_eq_some_iff.1 hitem).1 h.items
  · have hsize := h.size
    rw [totalSize] at hsize
    exact le_trans (offset_add_size hitem) (by omega)

lemma keeps_iff : Keeps b ↔ Fits b := ⟨Keeps.fits, Fits.keeps⟩

lemma length_push : (b.push type id data).items.length = b.items.length + 1 := by
  rw [push_items, List.length_append, List.length_singleton]

lemma totalSize_push :
    totalSize (b.push type id data).items = totalSize b.items + (8 + 4 * data.length) := by
  rw [totalSize, totalSize, length_push, push_items, dataSize, dataSize, List.map_append, List.sum_append]
  simp only [List.map_cons, List.map_nil, List.sum_singleton, CSnapshotItem.size]
  ring

lemma hasRoom_iff {words : ℕ} :
    b.hasRoom words = true ↔ b.items.length < maxItems ∧ totalSize b.items + (8 + 4 * words) ≤ maxSize := by
  rw [hasRoom, Bool.and_eq_true, decide_eq_true_eq, decide_eq_true_eq, totalSize]
  constructor <;> rintro ⟨hitems, hsize⟩ <;> exact ⟨hitems, by omega⟩

/-- `NewItem` checks what the item needs. -/
lemma fits_push_iff : Fits (b.push type id data) ↔ b.hasRoom data.length = true := by
  rw [hasRoom_iff]
  constructor
  · rintro ⟨hitems, hsize⟩
    rw [length_push] at hitems
    rw [totalSize_push] at hsize
    exact ⟨hitems, hsize⟩
  · rintro ⟨hitems, hsize⟩
    exact ⟨by rwa [length_push], by rwa [totalSize_push]⟩

lemma Fits.newPlainItem (h : newPlainItem sixToSeven b type id data = some b') (hsixup : b.sixup = false) :
    Fits b' := by
  obtain rfl := newPlainItem_eq hsixup h
  refine fits_push_iff.2 ?_
  rw [CSnapshotBuilder.newPlainItem] at h
  split_ifs at h with hroom
  all_goals simpa using (not_or.1 hroom).2

lemma Fits.addExtendedItemType {index : ℕ} (hsixup : b.sixup = false)
    (h : addExtendedItemType sixToSeven uuids b index = some b') : Fits b' :=
  Fits.newPlainItem h hsixup

lemma addExtendedItemType_sixup {index : ℕ} (hsixup : b.sixup = false)
    (h : addExtendedItemType sixToSeven uuids b index = some b') : b'.sixup = false := by
  obtain rfl := newPlainItem_eq hsixup h
  exact hsixup

/-- The hidden item of a new type is added if there is room for it. -/
lemma addExtendedItemType_isSome (hsixup : b.sixup = false) {index : ℕ} (hindex : index ≤ maxExtendedItemTypes) :
    (addExtendedItemType sixToSeven uuids b index).isSome = true ↔ b.hasRoom 4 = true := by
  have hid : getTypeFromIndex index ≠ -1 := by
    rw [maxExtendedItemTypes] at hindex
    rw [getTypeFromIndex, maxType]
    omega
  rw [CSnapshotBuilder.addExtendedItemType, CSnapshotBuilder.newPlainItem, length_uuidItem]
  cases hroom : b.hasRoom 4 <;> simp [hid, hsixup]

/-- The hidden items of the known types are only added as far as there is room. -/
lemma fits_init (b : CSnapshotBuilder) :
    Fits (init sixToSeven uuids b false) ∧ (init sixToSeven uuids b false).sixup = false := by
  have hstart : Fits { b with items := [], sixup := false } := ⟨Nat.zero_le _, by simp [totalSize, dataSize, maxSize_eq]⟩
  refine List.foldlRecOn (motive := fun b : CSnapshotBuilder => Fits b ∧ b.sixup = false) _ _ ⟨hstart, rfl⟩ ?_
  rintro b ⟨hfits, hsixup⟩ index -
  cases hadd : CSnapshotBuilder.addExtendedItemType sixToSeven uuids b index with
  | none => exact ⟨hfits, hsixup⟩
  | some added => exact ⟨Fits.addExtendedItemType hsixup hadd, addExtendedItemType_sixup hsixup hadd⟩

/-- The call is one of those of a server for 0.6 clients. -/
def Call.Plain06 : Call → Prop
  | .init sixup => sixup = false
  | .newItem _ id _ => 0 ≤ id ∧ id ≤ 0xffff

/-- The first item of an extended type does not find room for itself and for the hidden item, but not for both. -/
def RoomForBoth (b : CSnapshotBuilder) : Call → Prop
  | .init _ => True
  | .newItem type _ data =>
    offsetUuid ≤ type ∧ type ∉ b.extendedItemTypes ∧ b.hasRoom data.length = true ∧ b.hasRoom 4 = true →
      b.items.length + 2 ≤ maxItems ∧ totalSize b.items + 24 + (8 + 4 * data.length) ≤ maxSize

/-- After a call the builder is within its limits if and only if the call did not need more room than it asked for. -/
lemma fits_exec_iff (hfits : Fits b) (hsixup : b.sixup = false)
    (hlen : b.extendedItemTypes.length ≤ maxExtendedItemTypes) {call : Call} (hcall : call.Plain06) :
    Fits (exec sixToSeven uuids b call) ↔ RoomForBoth b call := by
  cases call with
  | init sixup =>
    obtain rfl : sixup = false := hcall
    exact ⟨fun _ => trivial, fun _ => (fits_init b).1⟩
  | newItem type id data =>
    obtain ⟨hid, -⟩ := hcall
    rw [exec, RoomForBoth, newItem]
    split_ifs with hplain hroom
    · have hleft : Fits ((newPlainItem sixToSeven b type id data).getD b) := by
        cases hnew : newPlainItem sixToSeven b type id data with
        | none => exact hfits
        | some b' => exact Fits.newPlainItem hnew hsixup
      exact ⟨fun _ hextended => absurd hplain (not_lt.2 hextended.1), fun _ => hleft⟩
    · have hfull : b.hasRoom data.length = false := hroom.resolve_left (by omega)
      exact ⟨fun _ hextended => absurd hextended.2.2.1 (by rw [hfull]; exact Bool.false_ne_true), fun _ => hfits⟩
    · have hextended := le_of_not_gt hplain
      have hroom' : b.hasRoom data.length = true := by simpa using (not_or.1 hroom).2
      cases hindex : getExtendedItemTypeIndex sixToSeven uuids b type with
      | none =>
        have hhidden : b.hasRoom 4 = false := by
          rw [getExtendedItemTypeIndex] at hindex
          split at hindex
          · contradiction
          · have hnone := Option.map_eq_none_iff.1 hindex
            rw [← Bool.not_eq_true]
            intro hhidden
            have hsome : (addExtendedItemType sixToSeven uuids
                { b with extendedItemTypes := b.extendedItemTypes ++ [type] } b.extendedItemTypes.length).isSome = true :=
              (addExtendedItemType_isSome (b := { b with extendedItemTypes := b.extendedItemTypes ++ [type] }) hsixup
                hlen).2 hhidden
            rw [hnone] at hsome
            contradiction
        exact ⟨fun _ hextended => absurd hextended.2.2.2 (by rw [hhidden]; exact Bool.false_ne_true), fun _ => hfits⟩
      | some found =>
        obtain ⟨index, b'⟩ := found
        rw [Option.map_some, Option.getD_some]
        rcases getExtendedItemTypeIndex_cases hindex with ⟨hmem, -, rfl⟩ | ⟨hnew, rfl, hadd⟩
        · exact ⟨fun _ hextended => absurd hmem hextended.2.1, fun _ => fits_push_iff.2 hroom'⟩
        · have hhidden : b.hasRoom 4 = true :=
            (addExtendedItemType_isSome (b := { b with extendedItemTypes := b.extendedItemTypes ++ [type] }) hsixup
              hlen).1 (Option.isSome_iff_exists.2 ⟨b', hadd⟩)
          obtain rfl := newPlainItem_eq (b := { b with extendedItemTypes := b.extendedItemTypes ++ [type] }) hsixup hadd
          rw [fits_push_iff, hasRoom_iff, length_push, totalSize_push, length_uuidItem]
          constructor
          · rintro ⟨hitems, hsize⟩ -
            exact ⟨hitems, hsize⟩
          · intro hboth
            exact hboth ⟨hextended, hnew, hroom', hhidden⟩

/-! ### Runs -/

lemma exec_sixup (hsixup : b.sixup = false) {call : Call} (hcall : call.Plain06) :
    (exec sixToSeven uuids b call).sixup = false := by
  cases call with
  | init sixup =>
    obtain rfl : sixup = false := hcall
    exact (fits_init b).2
  | newItem type id data =>
    rw [exec]
    cases hnew : newItem sixToSeven uuids b type id data with
    | none => exact hsixup
    | some b' =>
      rw [newItem] at hnew
      split_ifs at hnew
      · obtain rfl := newPlainItem_eq hsixup hnew
        exact hsixup
      · obtain ⟨⟨index, found⟩, hfound, rfl⟩ := Option.map_eq_some_iff.1 hnew
        rcases getExtendedItemTypeIndex_cases hfound with ⟨-, -, rfl⟩ | ⟨-, -, hadd⟩
        · exact hsixup
        · have hfound : found.sixup = false := addExtendedItemType_sixup
            (b := { b with extendedItemTypes := b.extendedItemTypes ++ [type] }) hsixup hadd
          exact hfound

lemma length_types_exec (call : Call) :
    b.extendedItemTypes.length ≤ (exec sixToSeven uuids b call).extendedItemTypes.length := by
  cases call with
  | init sixup => rw [exec, init_types]
  | newItem type id data =>
    rw [exec]
    cases hnew : newItem sixToSeven uuids b type id data with
    | none => exact le_rfl
    | some b' =>
      rcases newItem_types hnew with heq | ⟨-, -, heq⟩
      · rw [Option.getD_some, heq]
      · rw [Option.getD_some, heq, List.length_append]
        exact Nat.le_add_right _ _

lemma run_append (calls : List Call) (call : Call) :
    run sixToSeven uuids b (calls ++ [call]) = exec sixToSeven uuids (run sixToSeven uuids b calls) call := by
  rw [run, List.foldl_append]
  rfl

lemma run_sixup {calls : List Call} (hcalls : ∀ call ∈ calls, call.Plain06) :
    (run sixToSeven uuids new calls).sixup = false :=
  List.foldlRecOn (motive := fun b : CSnapshotBuilder => b.sixup = false) calls _ rfl
    fun _ hsixup call hcall => exec_sixup hsixup (hcalls call hcall)

/-- A builder with at most 64 extended types is within its limits after each call if and only if every call for a new
extended type finds room for both items. -/
theorem run_keeps_iff {calls : List Call} (hcalls : ∀ call ∈ calls, call.Plain06)
    (hlen : (run sixToSeven uuids new calls).extendedItemTypes.length ≤ maxExtendedItemTypes) :
    (∀ before, before <+: calls → Keeps (run sixToSeven uuids new before)) ↔
      ∀ before call, before ++ [call] <+: calls → RoomForBoth (run sixToSeven uuids new before) call := by
  induction calls using List.reverseRecOn with
  | nil =>
    refine ⟨fun _ before call hstart => absurd (List.prefix_nil.1 hstart) (by simp), fun _ before hbefore => ?_⟩
    obtain rfl := List.prefix_nil.1 hbefore
    exact keeps_iff.2 ⟨Nat.zero_le _, by simp [run, new, totalSize, dataSize, maxSize_eq]⟩
  | append_singleton calls call ih =>
    have hcalls' : ∀ call ∈ calls, call.Plain06 := fun call hcall => hcalls call (List.mem_append_left _ hcall)
    have hcall : call.Plain06 := hcalls call (List.mem_append_right _ (List.mem_singleton_self call))
    rw [run_append] at hlen
    have hlen' := le_trans (length_types_exec call) hlen
    have ih := ih hcalls' hlen'
    have hstep : Keeps (run sixToSeven uuids new calls) →
        (Keeps (run sixToSeven uuids new (calls ++ [call])) ↔ RoomForBoth (run sixToSeven uuids new calls) call) := by
      intro hkeeps
      rw [keeps_iff, run_append]
      exact fits_exec_iff hkeeps.fits (run_sixup hcalls') hlen' hcall
    constructor
    · intro hkeeps before next hstart
      have hkeeps' : ∀ before, before <+: calls → Keeps (run sixToSeven uuids new before) := fun before hbefore =>
        hkeeps before (hbefore.trans (List.prefix_append _ _))
      rcases List.prefix_concat_iff.1 hstart with heq | hstart
      · obtain ⟨rfl, rfl⟩ := List.append_inj' heq rfl |>.imp_right List.singleton_inj.1
        exact (hstep (hkeeps' before List.prefix_rfl)).1 (hkeeps _ List.prefix_rfl)
      · exact ih.1 hkeeps' before next hstart
    · intro hroom before hbefore
      have hkeeps' := ih.2 fun before next hstart => hroom before next (hstart.trans (List.prefix_append _ _))
      rcases List.prefix_concat_iff.1 hbefore with rfl | hbefore
      · exact (hstep (hkeeps' calls List.prefix_rfl)).2 (hroom calls call List.prefix_rfl)
      · exact hkeeps' before hbefore

end CSnapshotBuilder

namespace CSnapshotBuilder

open CSnapshot

/-- An item of a plain type, and one of an extended type. -/
def itemThenExtended (data : List (BitVec 32)) : List Call :=
  [.init false, .newItem 5 0 data, .newItem offsetUuid 0 []]

lemma itemThenExtended_plain (data : List (BitVec 32)) : ∀ call ∈ itemThenExtended data, call.Plain06 := by
  intro call hcall
  simp only [itemThenExtended, List.mem_cons, List.not_mem_nil, or_false] at hcall
  rcases hcall with rfl | rfl | rfl
  · rfl
  · exact ⟨le_rfl, by decide⟩
  · exact ⟨le_rfl, by decide⟩

theorem run_keeps_iff_smallItem :
    (∀ before, before <+: itemThenExtended [1] → Keeps (run id twoUuids new before)) ↔
      ∀ before call, before ++ [call] <+: itemThenExtended [1] → RoomForBoth (run id twoUuids new before) call :=
  run_keeps_iff (itemThenExtended_plain [1]) (by decide +kernel)

/-- An item of this size leaves room for an empty item or for a hidden one, but not for both. -/
lemma not_fits_both {data : List (BitVec 32)} (hdata : data.length = 16374) :
    ¬ ∀ before, before <+: itemThenExtended data → Keeps (run id twoUuids new before) := by
  intro hkeeps
  have hroom : new.hasRoom data.length = true := by
    rw [hasRoom_iff, hdata]
    decide
  have hlarge : run id twoUuids new [.init false, .newItem 5 0 data] = new.push 5 0 data := by
    show (CSnapshotBuilder.newItem id twoUuids new 5 0 data).getD new = _
    rw [newItem, if_pos (by decide), newPlainItem, if_neg (by simp [hroom])]
    rfl
  have hrun : run id twoUuids new (itemThenExtended data) =
      exec id twoUuids (new.push 5 0 data) (.newItem offsetUuid 0 []) := by
    rw [← hlarge]
    rfl
  have hfits := (hkeeps [.init false, .newItem 5 0 data] ⟨[.newItem offsetUuid 0 []], rfl⟩).fits
  have hboth := (hkeeps (itemThenExtended data) List.prefix_rfl).fits
  have hextended : (Call.newItem offsetUuid 0 []).Plain06 := ⟨le_rfl, by decide⟩
  rw [hlarge] at hfits
  rw [hrun, fits_exec_iff hfits rfl (Nat.zero_le _) hextended] at hboth
  have hbytes : totalSize (new.push 5 0 data).items = 65512 := by
    rw [totalSize_push, hdata]
    rfl
  have hone : (new.push 5 0 data).items.length < maxItems := by
    rw [length_push]
    decide
  have hsize := (hboth ⟨le_rfl, List.not_mem_nil, hasRoom_iff.2 ⟨hone, by rw [hbytes]; decide⟩,
    hasRoom_iff.2 ⟨hone, by rw [hbytes]; decide⟩⟩).2
  rw [hbytes, maxSize_eq] at hsize
  revert hsize
  decide

theorem not_keeps_largeItem :
    ¬ ∀ before, before <+: itemThenExtended (List.replicate 16374 0) → Keeps (run id twoUuids new before) :=
  not_fits_both List.length_replicate

end CSnapshotBuilder

end DDNet
