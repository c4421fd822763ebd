/-
Runs of a pool of bans (`CNetBan::CBanPool`, `engine/shared/netban.h` and `netban.cpp`).

`Ban` adds no data that are in the pool already.  Here `Add` may be called with any data, the same
ones several times; the lists of the pool are well formed all the same (`run_wellFormed`).
-/
import DDNet.Shared.BanList
import Mathlib.Data.Fintype.Card

namespace DDNet.CBanPool

open Lib Lib.DList

variable {T : Type*}

/-- The operations on a pool.  A caller of `Remove` or `Update` has its ban from `Get` or `Find`; every
ban in use has an index with which `Get` returns it. -/
inductive Op (T : Type*) where
  | add (data : T) (info : CBanInfo)
  | remove (index : ℤ)
  | update (index : ℤ) (info : CBanInfo)
  | reset
  /-- The loop of `CNetBan::Update` at a time. -/
  | expire (now : ℤ)

/-- One operation. -/
def step [Bannable T] (zero : T) (pool : CBanPool T) : Op T → CBanPool T
  | .add data info => (pool.add data info (BanData.netHash data)).1
  | .remove index =>
    match pool.get index with
    | some ban => pool.remove ban
    | none => pool
  | .update index info =>
    match pool.get index with
    | some ban => pool.update ban info
    | none => pool
  | .reset => reset zero
  | .expire now => CNetBan.updateLoop now maxBans pool

/-- Some operations. -/
def run [Bannable T] (zero : T) (pool : CBanPool T) (ops : List (Op T)) : CBanPool T :=
  ops.foldl (step zero) pool

/-- What an operation does to the bans in their order. -/
def Op.apply (bans : List (T × CBanInfo)) : Op T → List (T × CBanInfo)
  | .add data info => if bans.length < maxBans then insertEntry (data, info) bans else bans
  | .remove index => if index < 0 then bans else bans.eraseIdx index.toNat
  | .update index info =>
    match if index < 0 then none else bans[index.toNat]? with
    | some ban => insertEntry (ban.1, info) (bans.eraseIdx index.toNat)
    | none => bans
  | .reset => []
  | .expire now => bans.filter fun ban => !CNetBan.expired now ban.2

/-- The lists of the pool are well formed, with the bans `us` in use and the bans `fs` free; `netHash` is
the hash of an address or a range. -/
structure WellFormed (netHash : T → CNetHash) (pool : CBanPool T) (us fs : List BanPtr) : Prop where
  /-- The used list is linked in both directions, from its first ban on. -/
  used : pool.used.IsList us
  free : pool.free.IsList fs
  /-- Every ban is in exactly one of the two. -/
  exactlyOne : ∀ p, p ∈ us ∧ p ∉ fs ∨ p ∉ us ∧ p ∈ fs
  /-- The list of a hash is linked in both directions, and holds the bans in use that have the hash. -/
  buckets : ∀ hash, ∃ ps, (pool.bucket hash).IsList ps ∧
    ∀ p, p ∈ ps ↔ p ∈ us ∧ netHash (pool.data p) = hash
  /-- The used list is sorted by the expiry, with the permanent bans last. -/
  sorted : us.Pairwise fun p q => expiresBefore (pool.info p) (pool.info q)
  countUsed : pool.countUsed = us.length

lemma PoolInv.wellFormed [BanData T] {pool : CBanPool T} {us fs : List BanPtr} (h : PoolInv pool us fs) :
    WellFormed BanData.netHash pool us fs where
  used := h.used
  free := h.free
  exactlyOne p := by
    have hnodup : (us ++ fs).Nodup := List.nodup_append.2
      ⟨h.used.nodup, h.free.nodup, fun a ha b hb heq => h.disjoint a ha (heq ▸ hb)⟩
    have hcard : (us ++ fs).toFinset.card = Fintype.card BanPtr := by
      rw [List.toFinset_card_of_nodup hnodup, List.length_append, h.total, Fintype.card_fin]
    have hmem : p ∈ us ++ fs := by
      rw [← List.mem_toFinset, Finset.card_eq_iff_eq_univ _ |>.1 hcard]
      exact Finset.mem_univ p
    rcases List.mem_append.1 hmem with hp | hp
    · exact .inl ⟨hp, h.disjoint p hp⟩
    · exact .inr ⟨fun hus => h.disjoint p hus hp, hp⟩
  buckets hash := by
    obtain ⟨ps, hps, hmem⟩ := h.buckets hash
    refine ⟨ps, hps, fun p => (hmem p).trans (and_congr_right fun hp => ?_)⟩
    rw [h.netHash p hp]
  sorted := h.sorted
  countUsed := h.count

/-! ### Steps where no two data are the same -/

section Loose

variable [Bannable T] {pool : CBanPool T} {bans : List (T × CBanInfo)}

/-- The ban with an index is taken out of the list, or put into its new place. -/
lemma Holds.update_get (hsymm : ∀ a b : T, BanData.same a b = true → BanData.same b a = true)
    (h : pool.Holds bans) {index : ℤ} {p : BanPtr} (hp : pool.get index = some p) (info : CBanInfo) :
    ∃ ban, 0 ≤ index ∧ bans[index.toNat]? = some ban ∧
      (pool.update p info).Holds (insertEntry (ban.1, info) (bans.eraseIdx index.toNat)) := by
  obtain ⟨us, fs, hinv, rfl⟩ := h
  rw [get_spec hinv] at hp
  split_ifs at hp with hneg
  obtain ⟨hindex, rfl⟩ := List.getElem?_eq_some_iff.1 hp
  have hsplit : us = us.take index.toNat ++ us[index.toNat] :: us.drop (index.toNat + 1) := by
    rw [← List.drop_eq_getElem_cons hindex, List.take_append_drop]
  obtain ⟨us', hinv', hentries⟩ := update_spec hsymm (hsplit ▸ hinv) info
  refine ⟨(pool.data us[index.toNat], pool.info us[index.toNat]), Int.not_lt.1 hneg, ?_,
    us', fs, hinv', hentries.trans ?_⟩
  · rw [entries, List.getElem?_map, hp]
    rfl
  · rw [List.eraseIdx_eq_take_drop_succ, entries, entries, List.map_append, List.map_take, List.map_drop]

lemma step_holds (hloose : ∀ a b : T, BanData.same a b = false) (zero : T) (h : pool.Holds bans) (op : Op T) :
    (pool.step zero op).Holds (op.apply bans) := by
  have hsymm : ∀ a b : T, BanData.same a b = true → BanData.same b a = true := by
    intro a b hab
    rw [hloose] at hab
    exact Bool.noConfusion hab
  cases op with
  | add data info => exact h.add hsymm data info fun ban _ => hloose ban.1 data
  | remove index =>
    have hget := h.get index
    rw [step, Op.apply]
    cases hp : pool.get index with
    | some p =>
      rw [hp] at hget
      rw [if_neg (by omega)]
      exact hget.2.2
    | none =>
      rw [hp] at hget
      split_ifs with hneg
      · exact h
      · rw [List.eraseIdx_of_length_le (by omega)]
        exact h
  | update index info =>
    have hget := h.get index
    rw [step, Op.apply]
    cases hp : pool.get index with
    | some p =>
      obtain ⟨ban, hpos, hban, hholds⟩ := h.update_get hsymm hp info
      rw [if_neg (by omega), hban]
      exact hholds
    | none =>
      rw [hp] at hget
      split_ifs with hneg
      · exact h
      · rw [List.getElem?_eq_none (by omega)]
        exact h
  | reset => exact holds_reset zero
  | expire now => exact CNetBan.updateLoop_holds now h h.length_le

lemma run_holds (hloose : ∀ a b : T, BanData.same a b = false) (zero : T) (ops : List (Op T))
    (h : pool.Holds bans) : (pool.run zero ops).Holds (ops.foldl Op.apply bans) := by
  induction ops generalizing pool bans with
  | nil => exact h
  | cons op ops ih => exact ih (step_holds hloose zero h op)

lemma run_wellFormed_loose (hloose : ∀ a b : T, BanData.same a b = false) (zero : T) (ops : List (Op T)) :
    ∃ us fs, WellFormed BanData.netHash ((reset zero).run zero ops) us fs ∧
      ((reset zero).run zero ops).entries us = ops.foldl Op.apply [] := by
  obtain ⟨us, fs, hinv, hentries⟩ := run_holds hloose zero ops (holds_reset zero)
  exact ⟨us, fs, hinv.wellFormed, hentries⟩

end Loose

/-! ### Every run -/

/-- The data, where no two of them count as the same. -/
abbrev looseBans (T : Type*) [bans : Bannable T] : Bannable T := { bans with same := fun _ _ => false }

/-- **The pool.**  After any sequence of operations the lists of the pool are well formed, and the used
list holds the bans in their order.  In particular, what expires are the bans that are not
permanent and whose expiry lies before the time. -/
theorem run_wellFormed [Bannable T] (zero : T) (ops : List (Op T)) :
    ∃ us fs, WellFormed BanData.netHash ((reset zero).run zero ops) us fs ∧
      ((reset zero).run zero ops).entries us = ops.foldl Op.apply [] :=
  -- no operation of the pool compares data
  @run_wellFormed_loose T (looseBans T) (fun _ _ => rfl) zero ops

end DDNet.CBanPool
