/-
The storage of snapshots (`CSnapshotStorage`, `engine/shared/snapshot.cpp`), in which the server
keeps what a client may have acknowledged.

The holders of the snapshots are allocated one by one and linked in both directions.  An operation
that would read or write a holder that is not allocated, or that would not come to an end, has no
result; `run_inv` says that this does not happen, and `get_run` that the storage is a map from
ticks to snapshots.
-/
import DDNet.Lib.LinkedList
import DDNet.Shared.Snapshot
import Mathlib.Data.Finset.Basic
import Mathlib.Data.Finset.Card

namespace DDNet

open Lib Lib.DList

/-- The address of a holder. -/
abbrev HolderPtr := ℕ

/-- What a `CHolder` holds; `altSnap` is `none` where `m_pAltSnap` is null. -/
structure CHolder where
  tagtime : ℤ
  tick : ℤ
  snap : List UInt8
  altSnap : Option (List UInt8)
deriving DecidableEq

/-- `CSnapshotStorage` and the memory of its holders, with the addresses that are allocated. -/
structure CSnapshotStorage where
  first : Option HolderPtr
  last : Option HolderPtr
  next : HolderPtr → Option HolderPtr
  prev : HolderPtr → Option HolderPtr
  holder : HolderPtr → CHolder
  allocated : Finset HolderPtr

namespace CSnapshotStorage

/-- The holders as a linked list. -/
def list (s : CSnapshotStorage) : DList HolderPtr := ⟨s.first, s.next, s.prev⟩

/-- The storage with another list. -/
def setList (s : CSnapshotStorage) (l : DList HolderPtr) : CSnapshotStorage :=
  { s with first := l.head, next := l.next, prev := l.prev }

/-- `free`. -/
def free (s : CSnapshotStorage) (p : HolderPtr) : CSnapshotStorage :=
  { s with allocated := s.allocated.erase p }

/-- `Init`. -/
def init : CSnapshotStorage where
  first := none
  last := none
  next _ := none
  prev _ := none
  holder _ := ⟨0, 0, [], none⟩
  allocated := ∅

/-- The loop of `PurgeAll`. -/
def purgeAllLoop : ℕ → CSnapshotStorage → Option CSnapshotStorage
  | 0, _ => none
  | fuel + 1, s =>
    match s.first with
    | none => some s
    | some p =>
      if p ∈ s.allocated then purgeAllLoop fuel { s.free p with first := s.next p } else none

/-- `PurgeAll`. -/
def purgeAll (s : CSnapshotStorage) : Option CSnapshotStorage :=
  (purgeAllLoop (s.allocated.card + 1) s).map fun s => { s with last := none }

/-- What `PurgeUntil` does when nothing is left. -/
def clear (s : CSnapshotStorage) : CSnapshotStorage := { s with first := none, last := none }

/-- The loop of `PurgeUntil`, from the holder `p` on. -/
def purgeUntilLoop (tick : ℤ) : ℕ → HolderPtr → CSnapshotStorage → Option CSnapshotStorage
  | 0, _, _ => none
  | fuel + 1, p, s =>
    if p ∈ s.allocated then
      if (s.holder p).tick ≥ tick then some s -- no more to remove
      else
        match s.next p with
        | none => some (s.free p).clear -- we came to the end of the list
        | some q =>
          if q ∈ (s.free p).allocated then
            purgeUntilLoop tick fuel q ((s.free p).setList (s.list.popFront p))
          else none
    else none

/-- `PurgeUntil`. -/
def purgeUntil (s : CSnapshotStorage) (tick : ℤ) : Option CSnapshotStorage :=
  match s.first with
  | none => some s.clear
  | some p => purgeUntilLoop tick (s.allocated.card + 1) p s

/-- What `Add` stores. -/
def newHolder (tick tagtime : ℤ) (data altData : List UInt8) : CHolder :=
  ⟨tagtime, tick, data, if altData = [] then none else some altData⟩

/-- `Add`, where `malloc` has returned the address `p`; the sizes are asserted. -/
def add (s : CSnapshotStorage) (p : HolderPtr) (tick tagtime : ℤ) (data altData : List UInt8) :
    Option CSnapshotStorage :=
  if data.length ≤ CSnapshot.maxSize ∧ altData.length ≤ CSnapshot.maxSize then
    let s := { s with
      holder := Function.update s.holder p (newHolder tick tagtime data altData)
      allocated := insert p s.allocated }
    if ∀ q ∈ s.last, q ∈ s.allocated then
      some { s.setList (s.list.pushBack s.last p) with last := some p }
    else none
  else none

/-- The loop of `Get`. -/
def getLoop (s : CSnapshotStorage) (tick : ℤ) : ℕ → Option HolderPtr → Option (Option CHolder)
  | _, none => some none
  | 0, some _ => none
  | fuel + 1, some p =>
    if p ∈ s.allocated then
      if (s.holder p).tick = tick then some (some (s.holder p)) else getLoop s tick fuel (s.next p)
    else none

/-- `Get`: the holder whose data it returns, with `m_SnapSize` as the result, or `none` for the
result -1. -/
def get (s : CSnapshotStorage) (tick : ℤ) : Option (Option CHolder) :=
  s.getLoop tick s.allocated.card s.first

/-! ### Runs -/

/-- The operations that change the storage. -/
inductive Op where
  | add (tick tagtime : ℤ) (data altData : List UInt8)
  | purgeUntil (tick : ℤ)
  | purgeAll

/-- One operation; `malloc` chooses an address that is not allocated. -/
def step (malloc : Finset HolderPtr → HolderPtr) (s : CSnapshotStorage) : Op → Option CSnapshotStorage
  | .add tick tagtime data altData => s.add (malloc s.allocated) tick tagtime data altData
  | .purgeUntil tick => s.purgeUntil tick
  | .purgeAll => s.purgeAll

/-- Some operations. -/
def run (malloc : Finset HolderPtr → HolderPtr) : List Op → CSnapshotStorage → Option CSnapshotStorage
  | [], s => some s
  | op :: ops, s => (s.step malloc op).bind (run malloc ops)

namespace Op

/-- The sizes pass the assertions of `Add`. -/
def Valid : Op → Prop
  | .add _ _ data altData => data.length ≤ CSnapshot.maxSize ∧ altData.length ≤ CSnapshot.maxSize
  | _ => True

/-- The tick that is added. -/
def addedTick : Op → Option ℤ
  | .add tick _ _ _ => some tick
  | _ => none

/-- The operation does not remove what was added with the tick. -/
def Keeps (tick : ℤ) : Op → Prop
  | .add _ _ _ _ => True
  | .purgeUntil bound => bound ≤ tick
  | .purgeAll => False

end Op

/-- The holder was added by one of the operations, and no later one removes it. -/
def Stored (ops : List Op) (h : CHolder) : Prop :=
  ∃ before tick tagtime data altData after, ops = before ++ .add tick tagtime data altData :: after ∧
    h = newHolder tick tagtime data altData ∧ ∀ op ∈ after, op.Keeps tick

/-! ### The list of the holders -/

/-- The holders `ps` are linked in this order from the first one to the last one, they are all that is
allocated, and their ticks increase. -/
structure Inv (s : CSnapshotStorage) (ps : List HolderPtr) : Prop where
  list : s.list.IsList ps
  last : s.last = ps.getLast?
  allocated : ∀ p, p ∈ s.allocated ↔ p ∈ ps
  sorted : ps.Pairwise fun p q => (s.holder p).tick < (s.holder q).tick

variable {s : CSnapshotStorage} {ps : List HolderPtr} {p : HolderPtr}

lemma inv_init : init.Inv [] := ⟨⟨rfl, trivial, List.nodup_nil⟩, rfl, by simp [init], List.Pairwise.nil⟩

lemma Inv.first (h : s.Inv ps) : s.first = ps.head? := h.list.head

lemma Inv.card (h : s.Inv ps) : s.allocated.card = ps.length := by
  have heq : s.allocated = ps.toFinset := by
    ext p
    rw [h.allocated, List.mem_toFinset]
  rw [heq, List.toFinset_card_of_nodup h.list.nodup]

lemma Inv.next (h : s.Inv (p :: ps)) : s.next p = ps.head? := by
  obtain ⟨-, hnext, -⟩ := linked_cons.1 h.list.linked
  rwa [Option.or_none] at hnext

lemma Inv.add (h : s.Inv ps) (hp : p ∉ ps) {tick tagtime : ℤ} {data altData : List UInt8}
    (hvalid : (Op.add tick tagtime data altData).Valid) (htick : ∀ q ∈ ps, (s.holder q).tick < tick) :
    ∃ s', s.add p tick tagtime data altData = some s' ∧ s'.Inv (ps ++ [p]) ∧
      (ps ++ [p]).map s'.holder = ps.map s.holder ++ [newHolder tick tagtime data altData] := by
  have hne : ∀ q ∈ ps, q ≠ p := by
    rintro q hq rfl
    exact hp hq
  have hother : ∀ q ∈ ps,
      Function.update s.holder p (newHolder tick tagtime data altData) q = s.holder q :=
    fun q hq => Function.update_of_ne (hne q hq) _ _
  have hlast : ∀ q ∈ s.last, q ∈ insert p s.allocated := by
    intro q hq
    rw [h.last] at hq
    exact Finset.mem_insert_of_mem ((h.allocated q).2 (List.mem_of_getLast? hq))
  refine ⟨_, (if_pos hvalid).trans (if_pos hlast), ⟨?_, ?_, ?_, ?_⟩, ?_⟩
  · have hpush := pushBack_spec h.list hp
    rwa [← h.last] at hpush
  · exact List.getLast?_concat.symm
  · intro q
    show q ∈ insert p s.allocated ↔ _
    rw [Finset.mem_insert, h.allocated, List.mem_append, List.mem_singleton, or_comm]
  · refine List.pairwise_append.2 ⟨h.sorted.imp_of_mem ?_, List.pairwise_singleton _ _, ?_⟩
    · intro a b ha hb hab
      show (Function.update s.holder p _ a).tick < (Function.update s.holder p _ b).tick
      rwa [hother a ha, hother b hb]
    · rintro q hq r hr
      obtain rfl := List.mem_singleton.1 hr
      show (Function.update s.holder r _ q).tick < (Function.update s.holder r _ r).tick
      rw [hother q hq, Function.update_self]
      exact htick q hq
  · rw [List.map_append]
    show ps.map (Function.update s.holder p _) ++ [Function.update s.holder p _ p] = _
    rw [List.map_congr_left hother, Function.update_self]

/-- The first holder is freed, and the list starts behind it. -/
lemma Inv.popFront (h : s.Inv (p :: ps)) (hps : ps ≠ []) :
    ((s.free p).setList (s.list.popFront p)).Inv ps where
  list := popFront_spec h.list
  last := by
    show s.last = _
    rw [h.last, List.getLast?_cons]
    cases hlast : ps.getLast? with
    | none => exact absurd (List.getLast?_eq_none_iff.1 hlast) hps
    | some q => rfl
  allocated q := by
    show q ∈ s.allocated.erase p ↔ _
    have hp := (List.nodup_cons.1 h.list.nodup).1
    rw [Finset.mem_erase, h.allocated, List.mem_cons]
    constructor
    · rintro ⟨hne, rfl | hq⟩
      · exact absurd rfl hne
      · exact hq
    · intro hq
      exact ⟨fun heq => hp (heq ▸ hq), .inr hq⟩
  sorted := (List.pairwise_cons.1 h.sorted).2

/-- Nothing is left. -/
lemma inv_clear {s : CSnapshotStorage} (h : s.allocated = ∅) : s.clear.Inv [] :=
  ⟨⟨rfl, trivial, List.nodup_nil⟩, rfl, by simp [clear, h], List.Pairwise.nil⟩

lemma Inv.free_last (h : s.Inv [p]) : (s.free p).allocated = ∅ := by
  ext q
  simp [free, h.allocated]

lemma purgeUntilLoop_spec (tick : ℤ) {fuel : ℕ} (h : s.Inv (p :: ps)) (hfuel : ps.length < fuel) :
    ∃ s', purgeUntilLoop tick fuel p s = some s' ∧ s'.holder = s.holder ∧
      s'.Inv ((p :: ps).filter fun q => tick ≤ (s.holder q).tick) := by
  induction ps generalizing p s fuel with
  | nil =>
    obtain ⟨fuel, rfl⟩ := Nat.exists_eq_succ_of_ne_zero (Nat.ne_zero_of_lt hfuel)
    have hp : p ∈ s.allocated := (h.allocated p).2 (by simp)
    rw [purgeUntilLoop, if_pos hp]
    by_cases htick : (s.holder p).tick ≥ tick
    · rw [if_pos htick, List.filter_cons_of_pos (by simpa using htick)]
      exact ⟨s, rfl, rfl, h⟩
    · rw [if_neg htick, h.next, List.filter_cons_of_neg (by simpa using htick)]
      exact ⟨_, rfl, rfl, inv_clear h.free_last⟩
  | cons q ps ih =>
    obtain ⟨fuel, rfl⟩ := Nat.exists_eq_succ_of_ne_zero (Nat.ne_zero_of_lt hfuel)
    have hp : p ∈ s.allocated := (h.allocated p).2 (by simp)
    rw [purgeUntilLoop, if_pos hp]
    by_cases htick : (s.holder p).tick ≥ tick
    · -- the ticks behind this one are larger
      have hall : ∀ r ∈ p :: q :: ps, decide (tick ≤ (s.holder r).tick) = true := by
        intro r hr
        rw [decide_eq_true_eq]
        rcases List.mem_cons.1 hr with rfl | hr
        · exact htick
        · have hlt := (List.pairwise_cons.1 h.sorted).1 r hr
          omega
      rw [if_pos htick, List.filter_eq_self.2 hall]
      exact ⟨s, rfl, rfl, h⟩
    · have hpop := h.popFront (List.cons_ne_nil q ps)
      have hq : q ∈ (s.free p).allocated := (hpop.allocated q).2 (by simp)
      rw [if_neg htick, h.next, List.head?_cons, List.filter_cons_of_neg (by simpa using htick)]
      dsimp only
      rw [if_pos hq]
      exact ih hpop (by simpa using hfuel)

/-- `PurgeUntil` leaves the holders from the tick on. -/
lemma Inv.purgeUntil (h : s.Inv ps) (tick : ℤ) :
    ∃ s', s.purgeUntil tick = some s' ∧ s'.holder = s.holder ∧
      s'.Inv (ps.filter fun q => tick ≤ (s.holder q).tick) := by
  rw [CSnapshotStorage.purgeUntil, h.first]
  cases ps with
  | nil =>
    have hnone : s.allocated = ∅ := by
      ext q
      simp [h.allocated]
    exact ⟨_, rfl, rfl, inv_clear hnone⟩
  | cons p ps => exact purgeUntilLoop_spec tick h (by rw [h.card, List.length_cons]; omega)

lemma purgeAllLoop_spec {fuel : ℕ} {q : Option HolderPtr} (hfirst : s.first = ps.head?)
    (hlinked : Linked s.next s.prev q ps none) (hnodup : ps.Nodup)
    (hallocated : ∀ p, p ∈ s.allocated ↔ p ∈ ps) (hfuel : ps.length < fuel) :
    ∃ s', purgeAllLoop fuel s = some s' ∧ s'.first = none ∧ s'.allocated = ∅ := by
  induction ps generalizing s fuel q with
  | nil =>
    obtain ⟨fuel, rfl⟩ := Nat.exists_eq_succ_of_ne_zero (Nat.ne_zero_of_lt hfuel)
    refine ⟨s, by rw [purgeAllLoop, hfirst, List.head?_nil], hfirst, ?_⟩
    ext p
    simp [hallocated]
  | cons p ps ih =>
    obtain ⟨fuel, rfl⟩ := Nat.exists_eq_succ_of_ne_zero (Nat.ne_zero_of_lt hfuel)
    obtain ⟨hp, hnodup⟩ := List.nodup_cons.1 hnodup
    obtain ⟨-, hnext, hlinked⟩ := linked_cons.1 hlinked
    have hmem : p ∈ s.allocated := (hallocated p).2 (by simp)
    rw [purgeAllLoop, hfirst, List.head?_cons]
    dsimp only
    rw [if_pos hmem]
    refine ih (hnext.trans (Option.or_none)) hlinked hnodup (fun q => ?_) (by simpa using hfuel)
    show q ∈ s.allocated.erase p ↔ _
    rw [Finset.mem_erase, hallocated, List.mem_cons]
    constructor
    · rintro ⟨hne, rfl | hq⟩
      · exact absurd rfl hne
      · exact hq
    · intro hq
      exact ⟨fun heq => hp (heq ▸ hq), .inr hq⟩

/-- `PurgeAll` leaves nothing. -/
lemma Inv.purgeAll (h : s.Inv ps) : ∃ s', s.purgeAll = some s' ∧ s'.Inv [] := by
  obtain ⟨s', hloop, hfirst, hallocated⟩ :=
    purgeAllLoop_spec h.first h.list.linked h.list.nodup h.allocated (Nat.lt_succ_of_le h.card.ge)
  refine ⟨{ s' with last := none }, by rw [CSnapshotStorage.purgeAll, hloop]; rfl, ?_⟩
  exact ⟨⟨hfirst, trivial, List.nodup_nil⟩, rfl, by simp [hallocated], List.Pairwise.nil⟩

lemma getLoop_spec (tick : ℤ) {fuel : ℕ} {q : Option HolderPtr} (hlinked : Linked s.next s.prev q ps none)
    (hallocated : ∀ p ∈ ps, p ∈ s.allocated) (hfuel : ps.length ≤ fuel) :
    s.getLoop tick fuel ps.head? = some ((ps.map s.holder).find? fun h => h.tick = tick) := by
  induction ps generalizing fuel q with
  | nil => rw [List.head?_nil, getLoop]; rfl
  | cons p ps ih =>
    obtain ⟨fuel, rfl⟩ := Nat.exists_eq_succ_of_ne_zero (Nat.ne_zero_of_lt hfuel)
    obtain ⟨-, hnext, hlinked⟩ := linked_cons.1 hlinked
    rw [List.head?_cons, getLoop, if_pos (hallocated p (by simp)), List.map_cons]
    by_cases htick : (s.holder p).tick = tick
    · rw [if_pos htick, List.find?_cons_of_pos (by simpa using htick)]
    · rw [if_neg htick, List.find?_cons_of_neg (by simpa using htick), hnext, Option.or_none]
      exact ih hlinked (fun p hp => hallocated p (List.mem_cons_of_mem _ hp)) (by simpa using hfuel)

lemma Inv.get (h : s.Inv ps) (tick : ℤ) :
    s.get tick = some ((ps.map s.holder).find? fun h => h.tick = tick) := by
  rw [CSnapshotStorage.get, h.first]
  exact getLoop_spec tick h.list.linked (fun p hp => (h.allocated p).2 hp) h.card.ge

/-! ### The storage as a map -/

/-- What an operation does to the holders in their order. -/
def Op.apply (hs : List CHolder) : Op → List CHolder
  | .add tick tagtime data altData => hs ++ [newHolder tick tagtime data altData]
  | .purgeUntil tick => hs.filter fun h => tick ≤ h.tick
  | .purgeAll => []

lemma Inv.step {malloc : Finset HolderPtr → HolderPtr} (hmalloc : ∀ allocated, malloc allocated ∉ allocated)
    (h : s.Inv ps) {op : Op} (hvalid : op.Valid)
    (htick : ∀ tick ∈ op.addedTick, ∀ h ∈ ps.map s.holder, h.tick < tick) :
    ∃ s' ps', s.step malloc op = some s' ∧ s'.Inv ps' ∧ ps'.map s'.holder = op.apply (ps.map s.holder) := by
  cases op with
  | add tick tagtime data altData =>
    have hp : malloc s.allocated ∉ ps := fun hp => hmalloc s.allocated ((h.allocated _).2 hp)
    have hlt : ∀ q ∈ ps, (s.holder q).tick < tick :=
      fun q hq => htick tick rfl _ (List.mem_map_of_mem hq)
    obtain ⟨s', hadd, hinv, hmap⟩ : ∃ s', s.add (malloc s.allocated) tick tagtime data altData = some s' ∧
        s'.Inv (ps ++ [malloc s.allocated]) ∧ (ps ++ [malloc s.allocated]).map s'.holder =
          ps.map s.holder ++ [newHolder tick tagtime data altData] := h.add hp hvalid hlt
    exact ⟨s', _, hadd, hinv, hmap⟩
  | purgeUntil tick =>
    obtain ⟨s', hpurge, hholder, hinv⟩ := h.purgeUntil tick
    refine ⟨s', _, hpurge, hinv, ?_⟩
    rw [hholder, Op.apply, List.filter_map]
    rfl
  | purgeAll =>
    obtain ⟨s', hpurge, hinv⟩ := h.purgeAll
    exact ⟨s', [], hpurge, hinv, rfl⟩

/-- The ticks of the `Add` calls increase, and are larger than those of the holders `hs`. -/
def Increasing (ops : List Op) (hs : List CHolder) : Prop :=
  (ops.filterMap Op.addedTick).Pairwise (· < ·) ∧
    ∀ h ∈ hs, ∀ tick ∈ ops.filterMap Op.addedTick, h.tick < tick

lemma Increasing.head {op : Op} {ops : List Op} {hs : List CHolder} (h : Increasing (op :: ops) hs) :
    ∀ tick ∈ op.addedTick, ∀ h ∈ hs, h.tick < tick := by
  intro tick htick holder hholder
  refine h.2 holder hholder tick (List.mem_filterMap.2 ⟨op, by simp, htick⟩)

lemma Increasing.tail {op : Op} {ops : List Op} {hs : List CHolder} (h : Increasing (op :: ops) hs) :
    Increasing ops (op.apply hs) := by
  obtain ⟨hsorted, hless⟩ := h
  cases op with
  | add tick tagtime data altData =>
    rw [List.filterMap_cons_some (by rfl)] at hsorted hless
    obtain ⟨hfirst, hsorted⟩ := List.pairwise_cons.1 hsorted
    refine ⟨hsorted, fun holder hholder later hlater => ?_⟩
    rcases List.mem_append.1 hholder with hholder | hholder
    · exact hless holder hholder later (List.mem_cons_of_mem _ hlater)
    · obtain rfl := List.mem_singleton.1 hholder
      exact hfirst later hlater
  | purgeUntil tick =>
    rw [List.filterMap_cons_none (by rfl)] at hsorted hless
    exact ⟨hsorted, fun holder hholder => hless holder (List.mem_of_mem_filter hholder)⟩
  | purgeAll =>
    rw [List.filterMap_cons_none (by rfl)] at hsorted
    exact ⟨hsorted, fun holder hholder => absurd hholder List.not_mem_nil⟩

/-- Every operation of a run comes to an end without touching memory that is not allocated, and
leaves the list well linked. -/
lemma Inv.run {malloc : Finset HolderPtr → HolderPtr} (hmalloc : ∀ allocated, malloc allocated ∉ allocated)
    {ops : List Op} (h : s.Inv ps) (hvalid : ∀ op ∈ ops, op.Valid)
    (hincreasing : Increasing ops (ps.map s.holder)) :
    ∃ s' ps', run malloc ops s = some s' ∧ s'.Inv ps' ∧
      ps'.map s'.holder = ops.foldl Op.apply (ps.map s.holder) := by
  induction ops generalizing s ps with
  | nil => exact ⟨s, ps, rfl, h, rfl⟩
  | cons op ops ih =>
    obtain ⟨s₁, ps₁, hstep, hinv₁, hmap₁⟩ := h.step hmalloc (hvalid op (by simp)) hincreasing.head
    obtain ⟨s₂, ps₂, hrun, hinv₂, hmap₂⟩ := ih hinv₁ (fun op hop => hvalid op (by simp [hop]))
      (hmap₁ ▸ hincreasing.tail)
    exact ⟨s₂, ps₂, by rw [CSnapshotStorage.run, hstep]; exact hrun, hinv₂,
      by rw [hmap₂, hmap₁, List.foldl_cons]⟩

lemma Op.mem_apply {op : Op} {hs : List CHolder} {h : CHolder} :
    h ∈ op.apply hs ↔ h ∈ hs ∧ op.Keeps h.tick ∨
      ∃ tick tagtime data altData, op = .add tick tagtime data altData ∧
        h = newHolder tick tagtime data altData := by
  cases op with
  | add tick tagtime data altData => simp [Op.apply, Op.Keeps]
  | purgeUntil tick => simp [Op.apply, Op.Keeps]
  | purgeAll => simp [Op.apply, Op.Keeps]

/-- The holders after some operations are those from before that nothing has removed, and those that
the operations have stored. -/
lemma mem_foldl_apply {ops : List Op} {hs : List CHolder} {h : CHolder} :
    h ∈ ops.foldl Op.apply hs ↔ h ∈ hs ∧ (∀ op ∈ ops, op.Keeps h.tick) ∨ Stored ops h := by
  induction ops generalizing hs with
  | nil => simp [Stored]
  | cons op ops ih =>
    rw [List.foldl_cons, ih, Op.mem_apply]
    constructor
    · rintro (⟨⟨hmem, hkeep⟩ | ⟨tick, tagtime, data, altData, rfl, rfl⟩, hkeeps⟩ | hstored)
      · exact .inl ⟨hmem, List.forall_mem_cons.2 ⟨hkeep, hkeeps⟩⟩
      · exact .inr ⟨[], tick, tagtime, data, altData, ops, rfl, rfl, hkeeps⟩
      · obtain ⟨before, tick, tagtime, data, altData, after, rfl, rfl, hkeeps⟩ := hstored
        exact .inr ⟨op :: before, tick, tagtime, data, altData, after, rfl, rfl, hkeeps⟩
    · rintro (⟨hmem, hkeeps⟩ | ⟨before, tick, tagtime, data, altData, after, heq, rfl, hkeeps⟩)
      · obtain ⟨hkeep, hkeeps⟩ := List.forall_mem_cons.1 hkeeps
        exact .inl ⟨.inl ⟨hmem, hkeep⟩, hkeeps⟩
      · cases before with
        | nil =>
          obtain ⟨rfl, rfl⟩ := List.cons.inj heq
          exact .inl ⟨.inr ⟨tick, tagtime, data, altData, rfl, rfl⟩, hkeeps⟩
        | cons first before =>
          obtain ⟨rfl, rfl⟩ := List.cons.inj heq
          exact .inr ⟨before, tick, tagtime, data, altData, after, rfl, rfl, hkeeps⟩

/-- In a list of holders with increasing ticks, each tick finds its own holder. -/
lemma find?_eq_some_iff {hs : List CHolder} (hsorted : hs.Pairwise fun a b => a.tick < b.tick) {tick : ℤ}
    {h : CHolder} : (hs.find? fun h => h.tick = tick) = some h ↔ h ∈ hs ∧ h.tick = tick := by
  induction hs with
  | nil => simp
  | cons a hs ih =>
    obtain ⟨hfirst, hsorted⟩ := List.pairwise_cons.1 hsorted
    by_cases htick : a.tick = tick
    · rw [List.find?_cons_of_pos (by simpa using htick)]
      constructor
      · rintro ⟨⟩
        exact ⟨by simp, htick⟩
      · rintro ⟨hmem, htick'⟩
        rcases List.mem_cons.1 hmem with rfl | hmem
        · rfl
        · exact absurd (hfirst h hmem) (by omega)
    · rw [List.find?_cons_of_neg (by simpa using htick), ih hsorted, List.mem_cons]
      constructor
      · rintro ⟨hmem, htick'⟩
        exact ⟨.inr hmem, htick'⟩
      · rintro ⟨rfl | hmem, htick'⟩
        · exact absurd htick' htick
        · exact ⟨hmem, htick'⟩

/-- **The storage is a map.**  After `Add` calls with increasing ticks, `PurgeUntil` and `PurgeAll` in
any order, the list of the holders is well linked and sorted, and `Get` finds for each tick what
was added with it and not removed since, and returns -1 for all others. -/
theorem get_run (malloc : Finset HolderPtr → HolderPtr) (hmalloc : ∀ allocated, malloc allocated ∉ allocated)
    (ops : List Op) (hvalid : ∀ op ∈ ops, op.Valid)
    (hincreasing : (ops.filterMap Op.addedTick).Pairwise (· < ·)) :
    ∃ s ps, run malloc ops init = some s ∧ s.Inv ps ∧
      ∀ tick, ∃ result, s.get tick = some result ∧
        ∀ h, result = some h ↔ Stored ops h ∧ h.tick = tick := by
  obtain ⟨s, ps, hrun, hinv, hmap⟩ := inv_init.run hmalloc hvalid
    ⟨hincreasing, fun h hh => absurd hh List.not_mem_nil⟩
  have hsorted : (ps.map s.holder).Pairwise fun a b => a.tick < b.tick :=
    List.pairwise_map.2 hinv.sorted
  refine ⟨s, ps, hrun, hinv, fun tick => ⟨_, hinv.get tick, fun h => ?_⟩⟩
  rw [find?_eq_some_iff hsorted, hmap, mem_foldl_apply]
  simp

/-- Two snapshots, of which the first one is purged and the second one has an alternative. -/
theorem get_run_two :
    ∃ s ps, run (fun allocated => allocated.sup id + 1)
        [.add 1 10 [1] [], .add 5 50 [2] [3], .purgeUntil 5] init = some s ∧ s.Inv ps ∧
      ∀ tick, ∃ result, s.get tick = some result ∧ ∀ h, result = some h ↔
        Stored [.add 1 10 [1] [], .add 5 50 [2] [3], .purgeUntil 5] h ∧ h.tick = tick := by
  refine get_run _ (fun allocated hmem => ?_) _ ?_ ?_
  · have hle : allocated.sup id + 1 ≤ allocated.sup id := Finset.le_sup (f := id) hmem
    exact absurd hle (Nat.not_succ_le_self _)
  · simp [Op.Valid, CSnapshot.maxSize_eq]
  · decide

end CSnapshotStorage

end DDNet
