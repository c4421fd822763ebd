/-
The pool of snapshot ids (`engine/server/snap_id_pool.cpp`).

The free ids and the timed ids are two lists in one array.  A freed id waits on the list of timed ids until its timeout
has passed, or until `TimeoutIds`.  Its timeout is an `int` although the times count nanoseconds, so it can lie before
the time at which the id was freed.  Ids are kept for five seconds as long as no timeout has passed early (`run_keepsIds`).
-/
import DDNet.Base.StrParse
import DDNet.Lib.LinkedQueue
import Mathlib.Data.Fintype.Card
import Mathlib.Data.List.FinRange
import Mathlib.Data.List.TakeWhile

namespace DDNet

open Lib

namespace CSnapIdPool

def maxIds : ℕ := 32 * 1024

/-- An index of `m_aIds`. -/
abbrev Id := Fin maxIds

instance : NeZero maxIds := ⟨by decide⟩

/-- The state of a snap id. -/
inductive State
  | free
  | allocated
  | timed
deriving DecidableEq

structure CID where
  next : Option Id
  state : State
  timeout : ℤ

end CSnapIdPool

/-- The index `-1` is `none`. -/
structure CSnapIdPool where
  ids : CSnapIdPool.Id → CSnapIdPool.CID
  firstFree : Option CSnapIdPool.Id
  firstTimed : Option CSnapIdPool.Id
  lastTimed : Option CSnapIdPool.Id
  usage : ℤ
  inUsage : ℤ

namespace CSnapIdPool

/-! ### The functions -/

/-- Five times `time_freq()`. -/
def fiveSeconds : ℕ := 5 * 10 ^ 9

/-- The next pointers of all ids. -/
def next (this : CSnapIdPool) : Id → Option Id := fun x => (this.ids x).next

/-- Write one element of `m_aIds`. -/
def setId (this : CSnapIdPool) (x : Id) (id : CID) : CSnapIdPool :=
  { this with ids := Function.update this.ids x id }

/-- The timeouts are not written. -/
def reset (this : CSnapIdPool) : CSnapIdPool where
  ids i := ⟨if h : i + 1 < maxIds then some ⟨i + 1, h⟩ else none, .free, (this.ids i).timeout⟩
  firstFree := some 0
  firstTimed := none
  lastTimed := none
  usage := 0
  inUsage := 0

/-- `RemoveFirstTimeout`, where `x` is `m_FirstTimed`. -/
def removeFirstTimeout (this : CSnapIdPool) (x : Id) : CSnapIdPool :=
  let nextTimed := (this.ids x).next
  { this.setId x ⟨this.firstFree, .free, (this.ids x).timeout⟩ with
    firstFree := some x
    firstTimed := nextTimed
    lastTimed := if nextTimed.isNone then none else this.lastTimed
    usage := this.usage - 1 }

/-- The loops over the timed ids, with the number of ids they may look at. -/
def processTimed (expired : CID → Bool) : ℕ → CSnapIdPool → Option CSnapIdPool
  | 0, _ => none
  | fuel + 1, this =>
    match this.firstTimed with
    | none => some this
    | some x => if expired (this.ids x) then processTimed expired fuel (this.removeFirstTimeout x) else some this

/-- The part of `NewId` behind the loop. -/
def takeFree (this : CSnapIdPool) : CSnapIdPool × Option Id :=
  match this.firstFree with
  | none => (this, none)
  | some x =>
    ({ this.setId x { this.ids x with state := .allocated } with
      firstFree := (this.ids x).next
      usage := this.usage + 1
      inUsage := this.inUsage + 1 }, some x)

def newId (this : CSnapIdPool) (now : ℕ) : Option (CSnapIdPool × Option Id) :=
  (processTimed (fun id => id.timeout < now) (maxIds + 1) this).map takeFree

def timeoutIds (this : CSnapIdPool) : Option CSnapIdPool :=
  processTimed (fun _ => true) (maxIds + 1) this

/-- The part of `FreeId` behind the assertions. -/
def addTimed (this : CSnapIdPool) (now : ℕ) (x : Id) : CSnapIdPool :=
  let freed := { this.setId x ⟨none, .timed, toInt32 (now + fiveSeconds)⟩ with inUsage := this.inUsage - 1 }
  match this.lastTimed with
  | some last => { freed.setId last { freed.ids last with next := some x } with lastTimed := some x }
  | none => { freed with firstTimed := some x, lastTimed := some x }

/-- `FreeId`; a failed assertion is `none`. -/
def freeId (this : CSnapIdPool) (now : ℕ) (id : ℤ) : Option CSnapIdPool :=
  if id < 0 then some this
  else if h : id.toNat < maxIds then
    if (this.ids ⟨id.toNat, h⟩).state = .allocated then some (this.addTimed now ⟨id.toNat, h⟩) else none
  else none

/-! ### Runs -/

inductive Op
  | newId
  | freeId (id : ℤ)
  | timeoutIds
deriving DecidableEq

/-- A call, and what `time_get()` returns in it. -/
structure Call where
  time : ℕ
  op : Op
deriving DecidableEq

/-- One call: the pool, and what `NewId` returns. -/
def step (this : CSnapIdPool) (c : Call) : Option (CSnapIdPool × Option Id) :=
  match c.op with
  | .newId => this.newId c.time
  | .freeId id => (this.freeId c.time id).map fun pool => (pool, none)
  | .timeoutIds => this.timeoutIds.map fun pool => (pool, none)

/-- The calls on a new pool, in the memory `this`. -/
def run (this : CSnapIdPool) (calls : List Call) : Option CSnapIdPool :=
  calls.foldlM (fun pool c => (pool.step c).map Prod.fst) this.reset

/-- The time of the last `FreeId` of an id, if `TimeoutIds` has not been called since. -/
def freedAt (calls : List Call) (x : Id) : Option ℕ :=
  calls.foldl (fun time c =>
    match c.op with
    | .newId => time
    | .freeId id => if id = x then some c.time else time
    | .timeoutIds => none) none

/-- A call that the users of the pool make: the time does not run backwards, and freed ids are allocated. -/
structure Allowed (calls : List Call) (pool : CSnapIdPool) (c : Call) : Prop where
  time_le : ∀ c' ∈ calls, c'.time ≤ c.time
  allocated : ∀ id, c.op = .freeId id → id < 0 ∨ ∃ x : Id, id = x ∧ (pool.ids x).state = .allocated

/-- The timed ids `timed` are linked from the first one on. -/
structure TimedList (pool : CSnapIdPool) (timed : List Id) : Prop where
  first : pool.firstTimed = timed.head?
  chained : Chained pool.next timed none

/-- `NewId` would take an id from the timed list only when the five seconds are over. -/
def OnTimeAt (calls : List Call) (pool : CSnapIdPool) (now : ℕ) : Prop :=
  ∀ timed, TimedList pool timed → ∀ x ∈ timed.takeWhile (fun x => (pool.ids x).timeout < now),
    ∀ t ∈ freedAt calls x, t + fiveSeconds < now

/-- A property of every call, the calls before it and the pool it is made on. -/
def AtEach (this : CSnapIdPool) (calls : List Call) (property : List Call → CSnapIdPool → Call → Prop) : Prop :=
  ∀ before c after, calls = before ++ c :: after → ∀ pool, run this before = some pool → property before pool c

/-- Every call is one that the users make. -/
def Legal (this : CSnapIdPool) (calls : List Call) : Prop := AtEach this calls Allowed

/-- In no call of `NewId` does the timeout of an id pass early. -/
def OnTime (this : CSnapIdPool) (calls : List Call) : Prop :=
  AtEach this calls fun before pool c => c.op = .newId → OnTimeAt before pool c.time

/-! ### The lists -/

variable {this pool pool' : CSnapIdPool} {free timed : List Id} {entries : List (Id × ℕ)} {x y : Id} {now : ℕ}
  {calls : List Call} {c : Call}

/-- The free ids `free` and the timed ids `timed` are linked, and the states say on which list an id is. -/
structure Lists (pool : CSnapIdPool) (free timed : List Id) : Prop extends TimedList pool timed where
  firstFree : pool.firstFree = free.head?
  chainedFree : Chained pool.next free none
  last : pool.lastTimed = timed.getLast?
  nodup : (free ++ timed).Nodup
  free_iff : ∀ x, (pool.ids x).state = .free ↔ x ∈ free
  timed_iff : ∀ x, (pool.ids x).state = .timed ↔ x ∈ timed

/-- The timed ids have been freed at the times `entries`. -/
structure Repr (pool : CSnapIdPool) (free : List Id) (entries : List (Id × ℕ)) : Prop
    extends Lists pool free (entries.map Prod.fst) where
  timeout : ∀ e ∈ entries, (pool.ids e.1).timeout = toInt32 (e.2 + fiveSeconds)
  usage : pool.usage = maxIds - free.length
  inUsage : pool.inUsage = maxIds - free.length - entries.length

lemma next_setId (id : CID) : (this.setId x id).next = Function.update this.next x id.next := by
  ext1 y
  simp only [next, setId, Function.update_apply]
  split <;> rfl

lemma next_addTimed : (this.addTimed now x).next =
    setAt (Function.update this.next x none) this.lastTimed (some x) := by
  rw [addTimed]
  cases this.lastTimed with
  | none => exact next_setId _
  | some last => exact (next_setId _).trans (congrArg (Function.update · last (some x)) (next_setId _))

lemma ids_setId_self (id : CID) : (this.setId x id).ids x = id := by
  simp only [setId, Function.update_self]

lemma ids_setId_of_ne (id : CID) (h : y ≠ x) : (this.setId x id).ids y = this.ids y := by
  simp only [setId, Function.update_of_ne h]

/-- The last id keeps its state and its timeout. -/
lemma ids_addTimed (this : CSnapIdPool) (now : ℕ) (x y : Id) : ∃ next, (this.addTimed now x).ids y =
    { (this.setId x ⟨none, .timed, toInt32 (now + fiveSeconds)⟩).ids y with next := next } := by
  rw [addTimed]
  cases this.lastTimed with
  | none => exact ⟨_, rfl⟩
  | some last =>
    by_cases hy : y = last
    · exact ⟨some x, by rw [hy]; exact ids_setId_self _⟩
    · exact ⟨_, ids_setId_of_ne _ hy⟩

/-- The ends of the lists and the counters behind `FreeId`. -/
lemma addTimed_eq (this : CSnapIdPool) (now : ℕ) (x : Id) : ∃ ids, this.addTimed now x =
    { this with
      ids := ids
      firstTimed := if this.lastTimed.isSome then this.firstTimed else some x
      lastTimed := some x
      inUsage := this.inUsage - 1 } := by
  rw [addTimed]
  cases this.lastTimed <;> exact ⟨_, rfl⟩

/-! ### The functions on the lists -/

lemma Repr.reset (hfree : free = List.finRange maxIds) : Repr this.reset free [] where
  first := rfl
  chained := trivial
  firstFree := by
    rw [hfree, List.head?_eq_getElem?, List.getElem?_eq_getElem (by rw [List.length_finRange]; decide),
      List.getElem_finRange]
    rfl
  chainedFree := chained_of_getElem? fun i x hx => by
    rw [hfree] at hx ⊢
    obtain ⟨hi, rfl⟩ := List.getElem?_eq_some_iff.1 hx
    rw [List.getElem_finRange]
    by_cases h : i + 1 < maxIds
    · rw [List.getElem?_eq_getElem (by rwa [List.length_finRange]), List.getElem_finRange]
      exact dif_pos h
    · rw [List.getElem?_eq_none (by rw [List.length_finRange]; omega)]
      exact dif_neg h
  last := rfl
  nodup := by
    rw [hfree, List.map_nil, List.append_nil]
    exact List.nodup_finRange maxIds
  free_iff x := iff_of_true rfl (hfree ▸ List.mem_finRange x)
  timed_iff x := iff_of_false State.noConfusion List.not_mem_nil
  timeout e he := absurd he List.not_mem_nil
  usage := by
    rw [hfree, List.length_finRange, sub_self]
    rfl
  inUsage := by
    rw [hfree, List.length_finRange, sub_self]
    rfl

/-- The first timed id goes to the free ids. -/
lemma Repr.removeFirstTimeout {t : ℕ} (h : Repr pool free ((x, t) :: entries)) :
    Repr (pool.removeFirstTimeout x) (x :: free) entries := by
  have hnodup : (x :: (free ++ entries.map Prod.fst)).Nodup := List.perm_middle.nodup_iff.1 h.nodup
  obtain ⟨hx, -⟩ := List.nodup_cons.1 hnodup
  rw [List.mem_append, not_or] at hx
  obtain ⟨hnext, hchained⟩ := h.chained
  rw [Option.or_none] at hnext
  have hids : ∀ y, y ≠ x → (pool.removeFirstTimeout x).ids y = pool.ids y := fun y hy => ids_setId_of_ne _ hy
  have hself : (pool.removeFirstTimeout x).ids x = ⟨pool.firstFree, .free, (pool.ids x).timeout⟩ := ids_setId_self _
  have hnext' : (pool.removeFirstTimeout x).next = Function.update pool.next x pool.firstFree := next_setId _
  refine ⟨⟨⟨hnext, ?_⟩, rfl, ?_, ?_, hnodup, fun y => ?_, fun y => ?_⟩, fun e he => ?_, ?_, ?_⟩
  · rw [hnext']
    exact hchained.update hx.2 _
  · rw [hnext', chained_cons, Function.update_self, Option.or_none]
    exact ⟨h.firstFree, h.chainedFree.update hx.1 _⟩
  · show (if (pool.ids x).next.isNone then none else pool.lastTimed) = _
    rw [← next, hnext, h.last]
    cases entries with
    | nil => rfl
    | cons e entries =>
      simp only [List.map_cons, List.getLast?_cons_cons]
      rfl
  · by_cases hy : y = x
    · rw [hy, hself]
      simp
    · rw [hids y hy, h.free_iff, List.mem_cons]
      exact ⟨Or.inr, fun hmem => hmem.resolve_left hy⟩
  · by_cases hy : y = x
    · rw [hy, hself]
      exact iff_of_false State.noConfusion hx.2
    · rw [hids y hy, h.timed_iff, List.map_cons, List.mem_cons]
      exact ⟨fun hmem => hmem.resolve_left hy, Or.inr⟩
  · have he' : e.1 ≠ x := fun heq => hx.2 (heq ▸ List.mem_map_of_mem he)
    rw [hids _ he', h.timeout e (List.mem_cons_of_mem _ he)]
  · rw [List.length_cons, Nat.cast_succ, ← sub_sub, ← h.usage]
    rfl
  · have hlength := h.inUsage
    rw [List.length_cons] at hlength ⊢
    show pool.inUsage = _
    omega

lemma Repr.length_le (h : Repr pool free entries) : entries.length ≤ maxIds := by
  have hle := (List.nodup_append.1 h.nodup).2.1.length_le_card
  rwa [List.length_map, Fintype.card_fin] at hle

/-- The loops move the first timed ids to the free ids, in reverse order. -/
lemma Repr.processTimed (h : Repr pool free entries) (expired : ℤ → Bool) {fuel : ℕ} (hfuel : entries.length < fuel) :
    ∃ pool', processTimed (fun id => expired id.timeout) fuel pool = some pool' ∧
      Repr pool' (((entries.takeWhile fun e => expired (toInt32 (e.2 + fiveSeconds))).map Prod.fst).reverse ++ free)
        (entries.dropWhile fun e => expired (toInt32 (e.2 + fiveSeconds))) := by
  induction entries generalizing pool free fuel with
  | nil =>
    obtain ⟨fuel, rfl⟩ := Nat.exists_eq_add_one_of_ne_zero hfuel.ne'
    rw [CSnapIdPool.processTimed, h.first]
    exact ⟨pool, rfl, h⟩
  | cons e entries ih =>
    obtain ⟨fuel, rfl⟩ := Nat.exists_eq_add_one_of_ne_zero (Nat.ne_of_gt (Nat.zero_lt_of_lt hfuel))
    rw [CSnapIdPool.processTimed, h.first, List.map_cons, List.head?_cons]
    dsimp only
    rw [h.timeout e List.mem_cons_self, List.takeWhile_cons, List.dropWhile_cons]
    cases he : expired (toInt32 (e.2 + fiveSeconds)) with
    | false => exact ⟨pool, rfl, h⟩
    | true =>
      obtain ⟨pool', hrun, h'⟩ := ih h.removeFirstTimeout (Nat.lt_of_succ_lt_succ hfuel)
      refine ⟨pool', hrun, ?_⟩
      rw [if_pos rfl, if_pos rfl, List.map_cons, List.reverse_cons, List.append_assoc]
      exact h'

/-- The first free id becomes allocated. -/
lemma Repr.takeFree_cons (h : Repr pool (x :: free) entries) :
    ∃ pool', pool.takeFree = (pool', some x) ∧ Repr pool' free entries := by
  have hdef : pool.takeFree = ({ pool.setId x { pool.ids x with state := .allocated } with
      firstFree := (pool.ids x).next
      usage := pool.usage + 1
      inUsage := pool.inUsage + 1 }, some x) := by
    rw [takeFree, h.firstFree]
    rfl
  obtain ⟨hx, hnodup⟩ := List.nodup_cons.1 (List.cons_append ▸ h.nodup)
  rw [List.mem_append, not_or] at hx
  obtain ⟨hfree, hchained⟩ := h.chainedFree
  rw [Option.or_none] at hfree
  have hnext : (pool.setId x { pool.ids x with state := .allocated }).next = pool.next :=
    (next_setId _).trans (Function.update_eq_self x pool.next)
  have hids : ∀ y, y ≠ x → (pool.setId x { pool.ids x with state := .allocated }).ids y = pool.ids y :=
    fun y hy => ids_setId_of_ne _ hy
  have hself : ((pool.setId x { pool.ids x with state := .allocated }).ids x).state = .allocated := by
    rw [ids_setId_self]
  refine ⟨_, hdef, ⟨⟨⟨h.first, hnext ▸ h.chained⟩, hfree, hnext ▸ hchained, h.last, hnodup, fun y => ?_, fun y => ?_⟩,
    fun e he => ?_, ?_, ?_⟩⟩
  · by_cases hy : y = x
    · rw [hy]
      exact iff_of_false (fun hstate => State.noConfusion (hself.symm.trans hstate)) hx.1
    · refine (hids y hy ▸ h.free_iff y).trans ?_
      rw [List.mem_cons]
      exact ⟨fun hmem => hmem.resolve_left hy, Or.inr⟩
  · by_cases hy : y = x
    · rw [hy]
      exact iff_of_false (fun hstate => State.noConfusion (hself.symm.trans hstate)) hx.2
    · exact hids y hy ▸ h.timed_iff y
  · have he' : e.1 ≠ x := fun heq => hx.2 (heq ▸ List.mem_map_of_mem he)
    exact hids _ he' ▸ h.timeout e he
  · have hlength := h.usage
    rw [List.length_cons] at hlength
    show pool.usage + 1 = _
    omega
  · have hlength := h.inUsage
    rw [List.length_cons] at hlength
    show pool.inUsage + 1 = _
    omega

lemma Repr.takeFree (h : Repr pool free entries) :
    ∃ pool', pool.takeFree = (pool', free.head?) ∧ Repr pool' free.tail entries := by
  cases free with
  | nil =>
    refine ⟨pool, ?_, h⟩
    rw [CSnapIdPool.takeFree, h.firstFree]
    rfl
  | cons x free => exact h.takeFree_cons

/-- A freed id goes behind the last timed id. -/
lemma Repr.addTimed (h : Repr pool free entries) (hx : (pool.ids x).state = .allocated) :
    Repr (pool.addTimed now x) free (entries ++ [(x, now)]) := by
  have hfree : x ∉ free := fun hmem => State.noConfusion (hx.symm.trans ((h.free_iff x).2 hmem))
  have htimed : x ∉ entries.map Prod.fst := fun hmem => State.noConfusion (hx.symm.trans ((h.timed_iff x).2 hmem))
  have hdisj := (List.nodup_append.1 h.nodup).2.2
  have hnodup : (free ++ entries.map Prod.fst ++ [x]).Nodup := by
    rw [← List.concat_eq_append, List.nodup_concat, List.mem_append, not_or]
    exact ⟨⟨hfree, htimed⟩, h.nodup⟩
  have hself : ((pool.addTimed now x).ids x).state = .timed ∧
      ((pool.addTimed now x).ids x).timeout = toInt32 (now + fiveSeconds) := by
    obtain ⟨next, hids⟩ := ids_addTimed pool now x x
    rw [hids, ids_setId_self]
    exact ⟨rfl, rfl⟩
  have hother : ∀ y, y ≠ x → ((pool.addTimed now x).ids y).state = (pool.ids y).state ∧
      ((pool.addTimed now x).ids y).timeout = (pool.ids y).timeout := by
    intro y hy
    obtain ⟨next, hids⟩ := ids_addTimed pool now x y
    rw [hids, ids_setId_of_ne _ hy]
    exact ⟨rfl, rfl⟩
  obtain ⟨ids, hpool⟩ := addTimed_eq pool now x
  refine ⟨⟨⟨?_, ?_⟩, ?_, ?_, ?_, ?_, fun y => ?_, fun y => ?_⟩, fun e he => ?_, ?_, ?_⟩
  · rw [hpool, List.map_append, List.head?_append, ← h.first]
    show (if pool.lastTimed.isSome then pool.firstTimed else some x) = _
    rw [h.last, h.first]
    cases entries <;> rfl
  · rw [next_addTimed, h.last, List.map_append]
    exact h.chained.concat (hnodup.sublist (List.append_assoc free _ _ ▸ List.sublist_append_right free _))
  · rw [hpool]
    exact h.firstFree
  · refine (chained_congr fun y hy => ?_).2 h.chainedFree
    rw [next_addTimed, h.last, setAt_of_ne, Function.update_of_ne]
    · exact fun heq => hfree (heq ▸ hy)
    · exact fun hlast => hdisj y hy y (List.mem_of_getLast? hlast.symm) rfl
  · rw [hpool, List.map_append]
    exact (List.getLast?_concat).symm
  · rw [List.map_append, ← List.append_assoc]
    exact hnodup
  · by_cases hy : y = x
    · rw [hy, hself.1]
      exact iff_of_false State.noConfusion hfree
    · rw [(hother y hy).1]
      exact h.free_iff y
  · by_cases hy : y = x
    · rw [hy, hself.1]
      simp
    · rw [(hother y hy).1, h.timed_iff y]
      simp [hy]
  · obtain he | he := List.mem_append.1 he
    · have he' : e.1 ≠ x := fun heq => htimed (heq ▸ List.mem_map_of_mem he)
      rw [(hother _ he').2]
      exact h.timeout e he
    · rw [List.mem_singleton.1 he]
      exact hself.2
  · rw [hpool]
    exact h.usage
  · rw [hpool, List.length_append]
    show pool.inUsage - 1 = _
    rw [h.inUsage, List.length_singleton]
    omega

/-- The timeout of an id that was freed with this time has passed. -/
def TimedOut (now : ℕ) (e : Id × ℕ) : Bool := toInt32 (e.2 + fiveSeconds) < now

/-- The ids that `NewId` moves to the free ids. -/
def returned (now : ℕ) (entries : List (Id × ℕ)) : List Id := ((entries.takeWhile (TimedOut now)).map Prod.fst).reverse

lemma Repr.newId (h : Repr pool free entries) (now : ℕ) :
    ∃ pool', pool.newId now = some (pool', (returned now entries ++ free).head?) ∧
      Repr pool' (returned now entries ++ free).tail (entries.dropWhile (TimedOut now)) := by
  obtain ⟨pool', hrun, h'⟩ := h.processTimed (· < now) (Nat.lt_succ_of_le h.length_le)
  obtain ⟨pool'', htake, h''⟩ := h'.takeFree
  refine ⟨pool'', ?_, h''⟩
  rw [CSnapIdPool.newId, hrun]
  exact congrArg some htake

lemma Repr.timeoutIds (h : Repr pool free entries) :
    ∃ pool' free', pool.timeoutIds = some pool' ∧ Repr pool' free' [] := by
  obtain ⟨pool', hrun, h'⟩ := h.processTimed (fun _ => true) (Nat.lt_succ_of_le h.length_le)
  rw [List.dropWhile_eq_nil_iff.2 fun _ _ => rfl] at h'
  exact ⟨pool', _, hrun, h'⟩

lemma freeId_of_neg {id : ℤ} (hid : id < 0) : this.freeId now id = some this := if_pos hid

lemma freeId_coe (hx : (this.ids x).state = .allocated) : this.freeId now x = some (this.addTimed now x) := by
  have hid : ¬ ((x : ℕ) : ℤ) < 0 := by omega
  rw [freeId, if_neg hid, dif_pos (show ((x : ℕ) : ℤ).toNat < maxIds from x.isLt)]
  exact if_pos hx

/-- The ids that time out are the first ones of the list in memory. -/
lemma Repr.takeWhile_eq (h : Repr pool free entries) (now : ℕ) :
    (entries.map Prod.fst).takeWhile (fun x => (pool.ids x).timeout < now) =
      (entries.takeWhile (TimedOut now)).map Prod.fst := by
  have htimeout := h.timeout
  clear h
  induction entries with
  | nil => rfl
  | cons e entries ih =>
    rw [List.map_cons, List.takeWhile_cons, List.takeWhile_cons, htimeout e List.mem_cons_self, ← TimedOut,
      ih fun e' he' => htimeout e' (List.mem_cons_of_mem _ he')]
    cases TimedOut now e <;> rfl

/-! ### Runs -/

lemma run_concat (hrun : run this calls = some pool) :
    run this (calls ++ [c]) = (pool.step c).map Prod.fst := by
  rw [run, List.foldlM_append, ← run, hrun, Option.bind_eq_bind, Option.bind_some, List.foldlM_cons]
  exact bind_pure _

lemma freedAt_concat : freedAt (calls ++ [c]) x = match c.op with
    | .newId => freedAt calls x
    | .freeId id => if id = x then some c.time else freedAt calls x
    | .timeoutIds => none := by
  rw [freedAt, List.foldl_append]
  rfl

section AtEach

variable {property : List Call → CSnapIdPool → Call → Prop}

lemma AtEach.before {rest : List Call} (h : AtEach this (calls ++ rest) property) : AtEach this calls property := by
  rintro before c after rfl pool hpool
  exact h before c (after ++ rest) (by simp) pool hpool

lemma AtEach.concat (h : AtEach this calls property)
    (hlast : ∀ pool, run this calls = some pool → property calls pool c) :
    AtEach this (calls ++ [c]) property := by
  rintro before c' after heq pool hrun
  obtain rfl | ⟨after, last, rfl⟩ := List.eq_nil_or_concat' after
  · obtain ⟨rfl, hc⟩ := List.append_inj' heq rfl
    obtain rfl := List.singleton_inj.1 hc
    exact hlast pool hrun
  · rw [← List.cons_append, ← List.append_assoc] at heq
    exact h before c' after (List.append_inj' heq rfl).1 pool hrun

lemma AtEach.last (h : AtEach this (calls ++ [c]) property) (hrun : run this calls = some pool) :
    property calls pool c := h calls c [] rfl pool hrun

end AtEach

/-- What is known behind the calls of a run. -/
structure Holds (this : CSnapIdPool) (calls : List Call) (pool : CSnapIdPool) (free : List Id)
    (entries : List (Id × ℕ)) : Prop extends Repr pool free entries where
  freed : ∀ e ∈ entries, freedAt calls e.1 = some e.2
  /-- A freed id has been timed since, or its five seconds are over. -/
  kept : OnTime this calls → ∀ x, ∀ t ∈ freedAt calls x, (x, t) ∈ entries ∨ ∃ c ∈ calls, t + fiveSeconds < c.time

lemma Holds.reset (hfree : free = List.finRange maxIds) : Holds this [] this.reset free [] where
  toRepr := Repr.reset hfree
  freed _ he := absurd he List.not_mem_nil
  kept _ _ t ht := absurd ht (Option.not_mem_none t)

/-- What times out in a call of `NewId` has been kept for five seconds. -/
lemma Holds.timedOut (h : Holds this calls pool free entries) (hontime : OnTimeAt calls pool now) {e : Id × ℕ}
    (he : e ∈ entries.takeWhile (TimedOut now)) : e.2 + fiveSeconds < now := by
  refine hontime _ h.toTimedList e.1 ?_ e.2 (h.freed e ((List.takeWhile_sublist _).subset he))
  rw [h.takeWhile_eq]
  exact List.mem_map_of_mem he

lemma Holds.newId (h : Holds this calls pool free entries) (hrun : run this calls = some pool) (now : ℕ) :
    ∃ pool', pool.newId now = some (pool', (returned now entries ++ free).head?) ∧
      Holds this (calls ++ [⟨now, .newId⟩]) pool' (returned now entries ++ free).tail
        (entries.dropWhile (TimedOut now)) := by
  obtain ⟨pool', hnew, h'⟩ := h.toRepr.newId now
  refine ⟨pool', hnew, h', fun e he => ?_, fun hontime x t ht => ?_⟩
  · exact freedAt_concat.trans (h.freed e ((List.dropWhile_sublist _).subset he))
  · rw [freedAt_concat] at ht
    obtain hmem | ⟨c, hc, hlt⟩ := h.kept hontime.before x t ht
    · rw [← List.takeWhile_append_dropWhile (p := TimedOut now) (l := entries), List.mem_append] at hmem
      obtain hmem | hmem := hmem
      · exact .inr ⟨_, List.mem_append_right _ (List.mem_singleton_self _),
          h.timedOut (hontime.last hrun rfl) hmem⟩
      · exact .inl hmem
    · exact .inr ⟨c, List.mem_append_left _ hc, hlt⟩

lemma Holds.addTimed (h : Holds this calls pool free entries) (hx : (pool.ids x).state = .allocated) :
    Holds this (calls ++ [⟨now, .freeId x⟩]) (pool.addTimed now x) free (entries ++ [(x, now)]) := by
  have htimed : x ∉ entries.map Prod.fst := fun hmem => State.noConfusion (hx.symm.trans ((h.timed_iff x).2 hmem))
  have hother : ∀ y, y ≠ x → freedAt (calls ++ [⟨now, .freeId x⟩]) y = freedAt calls y := by
    intro y hy
    rw [freedAt_concat]
    refine if_neg fun heq => hy ?_
    exact Fin.ext (Int.ofNat.inj heq).symm
  have hself : freedAt (calls ++ [⟨now, .freeId x⟩]) x = some now := by
    rw [freedAt_concat]
    exact if_pos rfl
  refine ⟨h.toRepr.addTimed hx, fun e he => ?_, fun hontime y t ht => ?_⟩
  · obtain he | he := List.mem_append.1 he
    · have he' : e.1 ≠ x := fun heq => htimed (heq ▸ List.mem_map_of_mem he)
      rw [hother _ he']
      exact h.freed e he
    · rw [List.mem_singleton.1 he]
      exact hself
  · by_cases hy : y = x
    · rw [hy, hself] at ht
      rw [hy, ← Option.some.inj ht]
      exact .inl (by simp)
    · rw [hother y hy] at ht
      obtain hmem | ⟨c, hc, hlt⟩ := h.kept hontime.before y t ht
      · exact .inl (List.mem_append_left _ hmem)
      · exact .inr ⟨c, List.mem_append_left _ hc, hlt⟩

lemma Holds.timeoutIds (h : Holds this calls pool free entries) :
    ∃ pool' free', pool.timeoutIds = some pool' ∧ Holds this (calls ++ [⟨now, .timeoutIds⟩]) pool' free' [] := by
  obtain ⟨pool', free', hrun, h'⟩ := h.toRepr.timeoutIds
  refine ⟨pool', free', hrun, h', fun e he => absurd he List.not_mem_nil, fun _ x t ht => ?_⟩
  rw [freedAt_concat] at ht
  exact absurd ht (Option.not_mem_none t)

lemma Holds.ignoreFree {id : ℤ} (h : Holds this calls pool free entries) (hid : id < 0) :
    Holds this (calls ++ [⟨now, .freeId id⟩]) pool free entries := by
  have hfreed : ∀ x, freedAt (calls ++ [⟨now, .freeId id⟩]) x = freedAt calls x := by
    intro x
    rw [freedAt_concat]
    exact if_neg (by omega)
  refine ⟨h.toRepr, fun e he => (hfreed e.1).trans (h.freed e he), fun hontime x t ht => ?_⟩
  rw [hfreed] at ht
  obtain hmem | ⟨c, hc, hlt⟩ := h.kept hontime.before x t ht
  · exact .inl hmem
  · exact .inr ⟨c, List.mem_append_left _ hc, hlt⟩

lemma Holds.step (h : Holds this calls pool free entries) (hrun : run this calls = some pool)
    (hallowed : Allowed calls pool c) :
    ∃ pool' free' entries', (pool.step c).map Prod.fst = some pool' ∧
      Holds this (calls ++ [c]) pool' free' entries' := by
  obtain ⟨now, op⟩ := c
  cases op with
  | newId =>
    obtain ⟨pool', hnew, h'⟩ := h.newId hrun now
    exact ⟨pool', _, _, congrArg (Option.map Prod.fst) hnew, h'⟩
  | freeId id =>
    obtain hid | ⟨x, rfl, hx⟩ := hallowed.allocated id rfl
    · exact ⟨pool, free, entries, by simp only [CSnapIdPool.step, freeId_of_neg hid, Option.map_some], h.ignoreFree hid⟩
    · exact ⟨_, _, _, by simp only [CSnapIdPool.step, freeId_coe hx, Option.map_some], h.addTimed hx⟩
  | timeoutIds =>
    obtain ⟨pool', free', htimeout, h'⟩ := h.timeoutIds
    exact ⟨pool', free', _, by simp only [CSnapIdPool.step, htimeout, Option.map_some], h'⟩

lemma exists_holds (h : Legal this calls) :
    ∃ pool free entries, run this calls = some pool ∧ Holds this calls pool free entries := by
  induction calls using List.reverseRecOn with
  | nil => exact ⟨_, _, _, rfl, Holds.reset rfl⟩
  | append_singleton calls c ih =>
    obtain ⟨pool, free, entries, hrun, hholds⟩ := ih h.before
    obtain ⟨pool', free', entries', hstep, h'⟩ := hholds.step hrun (h.last hrun)
    exact ⟨pool', free', entries', (run_concat hrun).trans hstep, h'⟩

/-! ### What the pool promises -/

/-- The counters are the numbers of ids that are not free, and of allocated ids. -/
structure Counts (pool : CSnapIdPool) : Prop where
  usage : pool.usage = (Finset.univ.filter fun x => (pool.ids x).state ≠ .free).card
  inUsage : pool.inUsage = (Finset.univ.filter fun x => (pool.ids x).state = .allocated).card

/-- `NewId` returns an id that is not allocated, and only fails if none is free and none has waited for five seconds. -/
structure Answers (calls : List Call) (pool : CSnapIdPool) (now : ℕ) (result : Option Id) : Prop where
  not_allocated : ∀ x ∈ result, (pool.ids x).state ≠ .allocated
  fails : result = none → ∀ x, (pool.ids x).state = .allocated ∨
    (pool.ids x).state = .timed ∧ ∃ t ∈ freedAt calls x, now ≤ t + fiveSeconds

/-- The id that `NewId` returns has waited for five seconds, unless `TimeoutIds` was called. -/
def NotEarly (calls : List Call) (now : ℕ) (result : Option Id) : Prop :=
  ∀ x ∈ result, ∀ t ∈ freedAt calls x, t + fiveSeconds ≤ now

/-- The lists and the counters behind a run, and the results of `NewId` in it. -/
structure KeepsLists (this : CSnapIdPool) (calls : List Call) (pool : CSnapIdPool) : Prop where
  lists : ∃ free timed, Lists pool free timed
  counts : Counts pool
  answers : AtEach this calls fun before pool c => c.op = .newId →
    ∃ pool' result, pool.newId c.time = some (pool', result) ∧ Answers before pool c.time result

structure Keeps (this : CSnapIdPool) (calls : List Call) (pool : CSnapIdPool) : Prop
    extends KeepsLists this calls pool where
  not_early : AtEach this calls fun before pool c => c.op = .newId →
    ∀ pool' result, pool.newId c.time = some (pool', result) → NotEarly before c.time result

lemma card_notMem {ids : List Id} (hnodup : ids.Nodup) {property : Id → Prop} [DecidablePred property]
    (hproperty : ∀ x, property x ↔ x ∉ ids) :
    ((Finset.univ.filter property).card : ℤ) = maxIds - ids.length := by
  have hcompl : Finset.univ.filter property = ids.toFinsetᶜ := by
    ext x
    simp [hproperty]
  have hle : ids.length ≤ maxIds := by
    have hle := hnodup.length_le_card
    rwa [Fintype.card_fin] at hle
  rw [hcompl, Finset.card_compl, List.toFinset_card_of_nodup hnodup, Fintype.card_fin, Nat.cast_sub hle]

lemma Lists.allocated_iff (h : Lists pool free timed) : (pool.ids x).state = .allocated ↔ x ∉ free ++ timed := by
  rw [List.mem_append, not_or, ← h.free_iff, ← h.timed_iff]
  cases (pool.ids x).state <;> simp

lemma Repr.counts (h : Repr pool free entries) : Counts pool where
  usage := by
    rw [h.usage, card_notMem (List.nodup_append.1 h.nodup).1 fun x => not_congr (h.free_iff x)]
  inUsage := by
    rw [h.inUsage, card_notMem h.nodup fun x => h.allocated_iff, List.length_append, List.length_map, Nat.cast_add,
      sub_sub]

/-- An id that `NewId` returns has not been freed in the last five seconds. -/
lemma Holds.not_early (h : Holds this calls pool free entries) (hrun : run this calls = some pool)
    (hallowed : Allowed calls pool ⟨now, .newId⟩) (hontime : OnTime this (calls ++ [⟨now, .newId⟩])) :
    NotEarly calls now (returned now entries ++ free).head? := by
  rintro x hx t ht
  obtain hmem | ⟨c, hc, hlt⟩ := h.kept hontime.before x t ht
  · -- a timed id comes from the ids that have just timed out
    have hfree : x ∉ free := fun hfree =>
      (List.nodup_append.1 h.nodup).2.2 x hfree x (List.mem_map_of_mem hmem) rfl
    have hreturned := (List.mem_append.1 (List.mem_of_mem_head? hx)).resolve_right hfree
    rw [returned, List.mem_reverse, List.mem_map] at hreturned
    obtain ⟨e, he, rfl⟩ := hreturned
    have hlt := h.timedOut (hontime.last hrun rfl) he
    rw [h.freed e ((List.takeWhile_sublist _).subset he)] at ht
    exact Option.some.inj ht ▸ hlt.le
  · have hle := hallowed.time_le c hc
    exact (hlt.trans_le hle).le

/-- No timeout is later than 2 ^ 31, which is less than five seconds. -/
lemma le_of_not_timedOut {e : Id × ℕ} (h : TimedOut now e = false) (t : ℕ) : now ≤ t + fiveSeconds := by
  rw [TimedOut, decide_eq_false_iff_not, not_lt, toInt32] at h
  rw [fiveSeconds] at h ⊢
  omega

/-- `NewId` only fails if all ids are allocated, or wait for the end of their five seconds. -/
lemma Holds.fails (h : Holds this calls pool free entries) (hnone : (returned now entries ++ free).head? = none)
    (x : Id) :
    (pool.ids x).state = .allocated ∨ (pool.ids x).state = .timed ∧ ∃ t ∈ freedAt calls x, now ≤ t + fiveSeconds := by
  obtain ⟨hreturned, hfree⟩ := List.append_eq_nil_iff.1 (List.head?_eq_none_iff.1 hnone)
  cases hstate : (pool.ids x).state with
  | free => exact absurd (hfree ▸ (h.free_iff x).1 hstate) List.not_mem_nil
  | allocated => exact .inl rfl
  | timed =>
    obtain ⟨e, he, rfl⟩ := List.mem_map.1 ((h.timed_iff x).1 hstate)
    refine .inr ⟨rfl, e.2, h.freed e he, ?_⟩
    cases entries with
    | nil => exact absurd he List.not_mem_nil
    | cons first entries =>
      rw [returned, List.reverse_eq_nil_iff, List.map_eq_nil_iff, List.takeWhile_cons] at hreturned
      cases hfirst : TimedOut now first with
      | false => exact le_of_not_timedOut hfirst e.2
      | true =>
        rw [hfirst] at hreturned
        exact absurd hreturned (List.cons_ne_nil _ _)

lemma Holds.not_allocated (h : Holds this calls pool free entries) (hx : x ∈ (returned now entries ++ free).head?) :
    (pool.ids x).state ≠ .allocated := by
  rw [Ne, h.allocated_iff, not_not, List.mem_append]
  obtain hx | hx := List.mem_append.1 (List.mem_of_mem_head? hx)
  · rw [returned, List.mem_reverse] at hx
    exact .inr (((List.takeWhile_sublist _).map _).subset hx)
  · exact .inl hx

/-- The lists and the counters do not depend on the timeouts. -/
theorem run_keepsLists (hlegal : Legal this calls) :
    ∃ pool, run this calls = some pool ∧ KeepsLists this calls pool := by
  obtain ⟨pool, free, entries, hrun, h⟩ := exists_holds hlegal
  refine ⟨pool, hrun, ⟨free, _, h.toLists⟩, h.counts, ?_⟩
  rintro before ⟨now, op⟩ after rfl pool' hrun' rfl
  obtain ⟨pool'', free', entries', hrun'', h'⟩ := exists_holds hlegal.before
  obtain rfl : pool' = pool'' := Option.some.inj (hrun'.symm.trans hrun'')
  obtain ⟨next, hnew, -⟩ := h'.newId hrun' now
  exact ⟨next, _, hnew, fun x => h'.not_allocated, h'.fails⟩

/-- If no timeout passes early then no id is handed out early. -/
theorem run_keepsIds (hlegal : Legal this calls) (hontime : OnTime this calls) :
    ∃ pool, run this calls = some pool ∧ Keeps this calls pool := by
  obtain ⟨pool, hrun, hlists⟩ := run_keepsLists hlegal
  refine ⟨pool, hrun, hlists, ?_⟩
  rintro before ⟨now, op⟩ after rfl pool' hrun' rfl next result hnew
  rw [List.append_cons] at hlegal hontime
  obtain ⟨pool'', free', entries', hrun'', h'⟩ := exists_holds hlegal.before.before
  obtain rfl : pool' = pool'' := Option.some.inj (hrun'.symm.trans hrun'')
  obtain ⟨next', hnew', -⟩ := h'.newId hrun' now
  obtain ⟨-, rfl⟩ := Prod.mk.inj (Option.some.inj (hnew.symm.trans hnew'))
  exact h'.not_early hrun' (hlegal.before.last hrun') hontime.before

/-! ### An id that is used again -/

/-- The first id is freed at once, and later another id is asked for. -/
def reuse (now : ℕ) : List Call := [⟨0, .newId⟩, ⟨0, .freeId 0⟩, ⟨now, .newId⟩]

/-- The memory before the first call of `Reset`. -/
def blank : CSnapIdPool := ⟨fun _ => ⟨none, .free, 0⟩, none, none, none, 0, 0⟩

lemma exists_holds_new (this : CSnapIdPool) : ∃ pool free, run this [⟨0, .newId⟩] = some pool ∧ (pool.ids 0).state = .allocated ∧
    Holds this [⟨0, .newId⟩] pool free [] := by
  obtain ⟨free, hfree⟩ : ∃ free, free = List.finRange maxIds := ⟨_, rfl⟩
  have hreset : Holds this [] this.reset free [] := Holds.reset hfree
  have hstart : run this [] = some this.reset := rfl
  obtain ⟨pool, hnew, h⟩ := hreset.newId hstart 0
  have hrun : run this ([] ++ [⟨0, .newId⟩]) = some pool :=
    (run_concat hstart).trans (congrArg (Option.map Prod.fst) hnew)
  refine ⟨pool, _, hrun, ?_, h⟩
  have hfirst : some 0 = free.head? := hreset.firstFree
  have hnodup : free.Nodup := (List.nodup_append.1 hreset.nodup).1
  rw [List.eq_cons_of_mem_head? hfirst.symm, List.nodup_cons] at hnodup
  rw [h.allocated_iff]
  simpa [returned] using hnodup.1

lemma exists_holds_freed (this : CSnapIdPool) : ∃ pool free, run this [⟨0, .newId⟩] = some pool ∧ (pool.ids 0).state = .allocated ∧
    run this [⟨0, .newId⟩, ⟨0, .freeId 0⟩] = some (pool.addTimed 0 0) ∧
    Holds this [⟨0, .newId⟩, ⟨0, .freeId 0⟩] (pool.addTimed 0 0) free [(0, 0)] := by
  obtain ⟨pool, free, hrun, hstate, h⟩ := exists_holds_new this
  have hfreed : run this ([⟨0, .newId⟩] ++ [⟨0, .freeId 0⟩]) = some (pool.addTimed 0 0) := by
    have hfree : pool.freeId 0 0 = some (pool.addTimed 0 0) := freeId_coe hstate
    rw [run_concat hrun]
    simp only [CSnapIdPool.step, hfree, Option.map_some]
  exact ⟨pool, free, hrun, hstate, hfreed, h.addTimed hstate⟩

lemma legal_reuse (now : ℕ) : Legal this (reuse now) := by
  obtain ⟨pool, free, hrun, hstate, hfreed, -⟩ := exists_holds_freed this
  have hnil : Legal this [] := fun before c after h => absurd h (by simp)
  have hnew : Legal this [⟨0, .newId⟩] := hnil.concat fun _ _ => ⟨by simp, fun _ h => Op.noConfusion h⟩
  have hfree : Legal this [⟨0, .newId⟩, ⟨0, .freeId 0⟩] := by
    refine hnew.concat (c := ⟨0, .freeId 0⟩) fun pool' hpool => ⟨by simp, fun id hid => .inr ⟨0, ?_⟩⟩
    obtain rfl := Option.some.inj (hrun.symm.trans hpool)
    exact ⟨(Op.freeId.inj hid).symm, hstate⟩
  exact hfree.concat (c := ⟨now, .newId⟩) fun _ _ => ⟨by simp, fun _ h => Op.noConfusion h⟩

/-- An id that is freed at the start is handed out again after one second. -/
theorem reuse_early : Legal blank (reuse (10 ^ 9)) ∧
    ¬ ∃ pool, run blank (reuse (10 ^ 9)) = some pool ∧ Keeps blank (reuse (10 ^ 9)) pool := by
  refine ⟨legal_reuse _, fun ⟨pool, _, hkeeps⟩ => ?_⟩
  obtain ⟨freed, free, -, -, hrun, h⟩ := exists_holds_freed blank
  obtain ⟨next, hnew, -⟩ := h.newId hrun (10 ^ 9)
  have hlate := hkeeps.not_early _ ⟨10 ^ 9, .newId⟩ [] rfl _ hrun rfl next _ hnew 0 rfl 0 rfl
  exact absurd hlate (by decide)

/-- After six seconds it may be. -/
theorem reuse_late : ∃ pool, run blank (reuse (6 * 10 ^ 9)) = some pool ∧ Keeps blank (reuse (6 * 10 ^ 9)) pool := by
  refine run_keepsIds (legal_reuse _) ?_
  have hnil : OnTime blank [] := fun before c after h => absurd h (by simp)
  have hnew : OnTime blank [⟨0, .newId⟩] :=
    hnil.concat fun _ _ _ _ _ x _ t ht => absurd ht (Option.not_mem_none t)
  have hfree : OnTime blank [⟨0, .newId⟩, ⟨0, .freeId 0⟩] :=
    hnew.concat (c := ⟨0, .freeId 0⟩) fun _ _ hop => Op.noConfusion hop
  refine hfree.concat (c := ⟨6 * 10 ^ 9, .newId⟩) fun _ _ _ _ _ x _ t ht => ?_
  have ht : (if (0 : ℤ) = (x : ℕ) then some 0 else none) = some t := ht
  split at ht
  · rw [← Option.some.inj ht]
    decide
  · exact absurd ht (Option.not_mem_none t)

end CSnapIdPool

end DDNet
