/-
The pool of bans (`CNetBan::CBanPool`, `engine/shared/netban.h` and `netban.cpp`).

The bans of a pool lie in an array and are linked into three kinds of lists: the bans in use in
the order in which they expire, the free ones, and a list for each hash.  `PoolInv` says what
these lists hold, and `entries` is what the pool stands for: its bans in the order of the used
list.  `add_spec`, `remove_spec`, `update_spec`, `find_spec` and `get_spec` say what the
operations do to the entries.
-/
import DDNet.Lib.LinkedList
import DDNet.Base.NetAddr
import Mathlib.Data.List.Sort

namespace DDNet

open Lib Lib.DList

/-- `MAX_BANS`. -/
def maxBans : ℕ := 1024

/-- A pointer to a ban of the pool. -/
abbrev BanPtr := Fin maxBans

/-- `CBanInfo`. -/
structure CBanInfo where
  expires : ℤ
  reason : List UInt8
  verbatimReason : Bool
deriving DecidableEq

/-- `EXPIRES_NEVER`. -/
def expiresNever : ℤ := -1

/-- `CNetHash`. -/
structure CNetHash where
  hash : ℕ
  hashIndex : ℕ
deriving DecidableEq

/-- What the pool needs of its data: `NetComp(..) == 0`, the constructor of `CNetHash`, and which
data this constructor is for. -/
class BanData (T : Type*) where
  same : T → T → Bool
  netHash : T → CNetHash
  isValid : T → Bool

/-- Equal data have the same hash. -/
class LawfulBanData (T : Type*) [BanData T] : Prop where
  refl : ∀ a : T, BanData.same a a = true
  symm : ∀ a b : T, BanData.same a b = true → BanData.same b a = true
  trans : ∀ a b c : T, BanData.same a b = true → BanData.same b c = true → BanData.same a c = true
  netHash : ∀ a b : T, BanData.isValid a = true → BanData.same a b = true →
    BanData.netHash a = BanData.netHash b

/-- `CBanPool`. -/
structure CBanPool (T : Type*) where
  data : BanPtr → T
  info : BanPtr → CBanInfo
  netHash : BanPtr → CNetHash
  hashNext : BanPtr → Option BanPtr
  hashPrev : BanPtr → Option BanPtr
  next : BanPtr → Option BanPtr
  prev : BanPtr → Option BanPtr
  hashList : CNetHash → Option BanPtr
  firstFree : Option BanPtr
  firstUsed : Option BanPtr
  countUsed : ℤ

namespace CBanPool

variable {T : Type*}

/-! ### The lists of the pool -/

/-- The list of the bans in use. -/
def used (pool : CBanPool T) : DList BanPtr := ⟨pool.firstUsed, pool.next, pool.prev⟩

/-- The list of the free bans. -/
def free (pool : CBanPool T) : DList BanPtr := ⟨pool.firstFree, pool.next, pool.prev⟩

/-- The list of the bans with a hash. -/
def bucket (pool : CBanPool T) (hash : CNetHash) : DList BanPtr :=
  ⟨pool.hashList hash, pool.hashNext, pool.hashPrev⟩

/-- The pool with another list of used bans. -/
def setUsed (pool : CBanPool T) (l : DList BanPtr) : CBanPool T :=
  { pool with firstUsed := l.head, next := l.next, prev := l.prev }

/-- The pool with another list of free bans. -/
def setFree (pool : CBanPool T) (l : DList BanPtr) : CBanPool T :=
  { pool with firstFree := l.head, next := l.next, prev := l.prev }

/-- The pool with another list of the bans with a hash. -/
def setBucket (pool : CBanPool T) (hash : CNetHash) (l : DList BanPtr) : CBanPool T :=
  { pool with
    hashList := Function.update pool.hashList hash l.head
    hashNext := l.next
    hashPrev := l.prev }

/-! ### The operations -/

/-- The ban `a` comes before the ban `b` in the used list. -/
def expiresBefore (a b : CBanInfo) : Prop :=
  b.expires = expiresNever ∨ a.expires ≠ expiresNever ∧ a.expires ≤ b.expires

instance (a b : CBanInfo) : Decidable (expiresBefore a b) :=
  inferInstanceAs (Decidable (_ ∨ _ ∧ _))

/-- The loop of `InsertUsed`; `fuel` bounds the number of bans. -/
def insertLoop (ban : BanPtr) : ℕ → BanPtr → CBanPool T → CBanPool T
  | 0, _, pool => pool
  | fuel + 1, p, pool =>
      if expiresBefore (pool.info ban) (pool.info p) then
        -- insert before
        pool.setUsed (pool.used.insertBefore p ban)
      else
        match pool.next p with
        | none => pool.setUsed (pool.used.insertLast p ban) -- last entry
        | some q => insertLoop ban fuel q pool

/-- `InsertUsed`. -/
def insertUsed (pool : CBanPool T) (ban : BanPtr) : CBanPool T :=
  match pool.firstUsed with
  | some p => insertLoop ban maxBans p pool
  | none => pool.setUsed (pool.used.pushFront ban)

/-- What `Add` does with the first free ban. -/
def addAt (pool : CBanPool T) (ban : BanPtr) (data : T) (info : CBanInfo) (netHash : CNetHash) :
    CBanPool T :=
  -- create new ban
  let pool := { pool with
    data := Function.update pool.data ban data
    info := Function.update pool.info ban info
    netHash := Function.update pool.netHash ban netHash }
  let pool := pool.setFree (pool.free.unlink ban)
  -- add it to the hash list
  let pool := pool.setBucket netHash ((pool.bucket netHash).pushFront ban)
  -- insert it into the used list
  let pool := pool.insertUsed ban
  { pool with countUsed := pool.countUsed + 1 }

/-- `Add`. -/
def add (pool : CBanPool T) (data : T) (info : CBanInfo) (netHash : CNetHash) :
    CBanPool T × Option BanPtr :=
  match pool.firstFree with
  | none => (pool, none)
  | some ban => (pool.addAt ban data info netHash, some ban)

/-- `Remove`. -/
def remove (pool : CBanPool T) (ban : BanPtr) : CBanPool T :=
  -- remove from hash list
  let pool := pool.setBucket (pool.netHash ban) ((pool.bucket (pool.netHash ban)).unlink ban)
  let pool := { pool with
    hashNext := Function.update pool.hashNext ban none
    hashPrev := Function.update pool.hashPrev ban none }
  -- remove from used list
  let pool := pool.setUsed (pool.used.unlink ban)
  -- add to recycle list
  let pool := pool.setFree (pool.free.pushFront ban)
  { pool with countUsed := pool.countUsed - 1 }

/-- `Update`. -/
def update (pool : CBanPool T) (ban : BanPtr) (info : CBanInfo) : CBanPool T :=
  let pool := { pool with info := Function.update pool.info ban info }
  let pool := pool.setUsed (pool.used.unlink ban)
  pool.insertUsed ban

/-- `Reset`, with the data of a ban after `mem_zero`. -/
def reset (zero : T) : CBanPool T where
  data _ := zero
  info _ := ⟨0, [], false⟩
  netHash _ := ⟨0, 0⟩
  hashNext _ := none
  hashPrev _ := none
  next i := if h : i.val + 1 < maxBans then some ⟨i.val + 1, h⟩ else none
  prev i := if i.val = 0 then none else some ⟨i.val - 1, by omega⟩
  hashList _ := none
  firstFree := some ⟨0, by decide⟩
  firstUsed := none
  countUsed := 0

/-- The loop along a list of bans with one hash, up to the first one that `isMatch` takes;
`fuel` bounds the number of bans. -/
def hashLoop (pool : CBanPool T) (isMatch : T → Bool) : ℕ → Option BanPtr → Option BanPtr
  | fuel + 1, some ban =>
      if isMatch (pool.data ban) then some ban else hashLoop pool isMatch fuel (pool.hashNext ban)
  | _, _ => none

/-- `Find`. -/
def find [BanData T] (pool : CBanPool T) (data : T) (netHash : CNetHash) : Option BanPtr :=
  pool.hashLoop (fun other => BanData.same other data) maxBans (pool.hashList netHash)

/-- The loop of `Get`. -/
def getLoop (pool : CBanPool T) : ℕ → Option BanPtr → Option BanPtr
  | 0, ban => ban
  | index + 1, some ban => getLoop pool index (pool.next ban)
  | _, none => none

/-- `Get`. -/
def get (pool : CBanPool T) (index : ℤ) : Option BanPtr :=
  if index < 0 || index ≥ pool.countUsed then none else pool.getLoop index.toNat pool.firstUsed

/-! ### What the pool holds -/

/-- The list of a hash holds those of the bans `us` that have the hash. -/
def Buckets (pool : CBanPool T) (us : List BanPtr) : Prop :=
  ∀ hash, ∃ ps, (pool.bucket hash).IsList ps ∧ ∀ p, p ∈ ps ↔ p ∈ us ∧ pool.netHash p = hash

/-- The bans `us` are in use, in this order, and the bans `fs` are free. -/
structure PoolInv [BanData T] (pool : CBanPool T) (us fs : List BanPtr) : Prop where
  used : pool.used.IsList us
  free : pool.free.IsList fs
  disjoint : ∀ p ∈ us, p ∉ fs
  total : us.length + fs.length = maxBans
  buckets : pool.Buckets us
  netHash : ∀ p ∈ us, pool.netHash p = BanData.netHash (pool.data p)
  distinct : us.Pairwise fun p q => BanData.same (pool.data p) (pool.data q) = false
  sorted : us.Pairwise fun p q => expiresBefore (pool.info p) (pool.info q)
  count : pool.countUsed = us.length

/-- The bans of the pool, in the order of the used list. -/
def entries (pool : CBanPool T) (us : List BanPtr) : List (T × CBanInfo) :=
  us.map fun p => (pool.data p, pool.info p)

instance : Std.Total expiresBefore where
  total a b := by
    rw [expiresBefore, expiresBefore]
    rcases eq_or_ne a.expires expiresNever with ha | ha
    · exact .inr (.inl ha)
    rcases eq_or_ne b.expires expiresNever with hb | hb
    · exact .inl (.inl hb)
    rcases le_total a.expires b.expires with hle | hle
    · exact .inl (.inr ⟨ha, hle⟩)
    · exact .inr (.inr ⟨hb, hle⟩)

instance : IsTrans CBanInfo expiresBefore where
  trans a b c := by
    rintro (hb | ⟨ha, hab⟩) (hc | ⟨hb', hbc⟩)
    · exact .inl hc
    · exact absurd hb hb'
    · exact .inl hc
    · exact .inr ⟨ha, hab.trans hbc⟩

/-- A ban is put into its place among the others. -/
def insertEntry (entry : T × CBanInfo) (bans : List (T × CBanInfo)) : List (T × CBanInfo) :=
  bans.orderedInsert (fun a b => expiresBefore a.2 b.2) entry

/-! ### The used list -/

/-- The used list has the nodes `us`, and the pointers of the other bans are as they were. -/
def UsedSet (pool pool' : CBanPool T) (us : List BanPtr) : Prop :=
  ∃ l, pool' = pool.setUsed l ∧ l.IsList us ∧ pool.used.SameOutside l us

lemma insertLoop_spec {pool : CBanPool T} {ban p : BanPtr} {as bs : List BanPtr} {fuel : ℕ}
    (h : pool.used.IsList (as ++ p :: bs)) (hban : ban ∉ as ++ p :: bs) (hfuel : bs.length < fuel) :
    UsedSet pool (pool.insertLoop ban fuel p)
      (as ++ (p :: bs).orderedInsert (fun p q => expiresBefore (pool.info p) (pool.info q)) ban) := by
  induction fuel generalizing as p bs with
  | zero => omega
  | succ fuel ih =>
    rw [insertLoop, List.orderedInsert_cons]
    split_ifs with hbefore
    · obtain ⟨hlist, hsame⟩ := insertBefore_spec h hban
      exact ⟨_, rfl, hlist, hsame⟩
    · obtain ⟨-, -, hnext, -⟩ := h.split
      have hnext : pool.next p = bs.head? := hnext
      cases bs with
      | nil =>
        rw [hnext]
        obtain ⟨hlist, hsame⟩ := insertLast_spec h hban
        exact ⟨_, rfl, hlist, hsame⟩
      | cons q bs =>
        rw [hnext]
        have hassoc : as ++ p :: q :: bs = (as ++ [p]) ++ q :: bs := by simp
        have hstep := ih (hassoc ▸ h) (hassoc ▸ hban) (by simpa using hfuel)
        rwa [List.append_assoc, List.singleton_append] at hstep

lemma insertUsed_spec {pool : CBanPool T} {ban : BanPtr} {us : List BanPtr} (h : pool.used.IsList us)
    (hban : ban ∉ us) (hlen : us.length ≤ maxBans) :
    UsedSet pool (pool.insertUsed ban)
      (us.orderedInsert (fun p q => expiresBefore (pool.info p) (pool.info q)) ban) := by
  have hfirst : pool.firstUsed = us.head? := h.head
  rw [insertUsed, hfirst]
  cases us with
  | nil =>
    obtain ⟨hlist, hsame⟩ := pushFront_spec h hban
    exact ⟨_, rfl, hlist, hsame⟩
  | cons p us => exact insertLoop_spec (show pool.used.IsList ([] ++ p :: us) from h) hban (by rw [List.length_cons] at hlen; omega)

lemma UsedSet.free {pool pool' : CBanPool T} {us fs : List BanPtr} (h : UsedSet pool pool' us)
    (hfree : pool.free.IsList fs) (hdisjoint : ∀ p ∈ fs, p ∉ us) : pool'.free.IsList fs := by
  obtain ⟨l, rfl, -, hsame⟩ := h
  exact hfree.frame hsame hdisjoint rfl

/-- The order of the used list is the order of the entries. -/
lemma entries_orderedInsert (pool : CBanPool T) (ban : BanPtr) (us : List BanPtr) :
    pool.entries (us.orderedInsert (fun p q => expiresBefore (pool.info p) (pool.info q)) ban) =
      insertEntry (pool.data ban, pool.info ban) (pool.entries us) :=
  List.map_orderedInsert _ _ _ _ _ (fun _ _ => Iff.rfl) fun _ _ => Iff.rfl

lemma sorted_orderedInsert (pool : CBanPool T) (ban : BanPtr) {us : List BanPtr}
    (h : us.Pairwise fun p q => expiresBefore (pool.info p) (pool.info q)) :
    (us.orderedInsert (fun p q => expiresBefore (pool.info p) (pool.info q)) ban).Pairwise
      fun p q => expiresBefore (pool.info p) (pool.info q) := by
  have : Std.Total fun p q => expiresBefore (pool.info p) (pool.info q) :=
    ⟨fun p q => Std.Total.total (pool.info p) (pool.info q)⟩
  have : IsTrans BanPtr fun p q => expiresBefore (pool.info p) (pool.info q) :=
    ⟨fun _ _ _ hpq hqr => IsTrans.trans _ _ _ hpq hqr⟩
  exact h.orderedInsert ban us

/-! ### The lists of the hashes -/

section Buckets

variable {pool pool' : CBanPool T} {us us' : List BanPtr}

lemma Buckets.congr (h : pool.Buckets us) (hmem : ∀ p, p ∈ us' ↔ p ∈ us)
    (hlist : pool'.hashList = pool.hashList) (hnext : pool'.hashNext = pool.hashNext)
    (hprev : pool'.hashPrev = pool.hashPrev) (hhash : ∀ p ∈ us, pool'.netHash p = pool.netHash p) :
    pool'.Buckets us' := by
  intro hash
  obtain ⟨ps, hps, hmemps⟩ := h hash
  refine ⟨ps, by rw [bucket, hlist, hnext, hprev]; exact hps, fun p => ?_⟩
  rw [hmemps, hmem]
  constructor
  · rintro ⟨hp, hph⟩
    exact ⟨hp, (hhash p hp).trans hph⟩
  · rintro ⟨hp, hph⟩
    exact ⟨hp, (hhash p hp).symm.trans hph⟩

/-- The lists after an operation on the list of one hash. -/
lemma Buckets.setBucket {hash : CNetHash} {l : DList BanPtr} {ps : List BanPtr} (h : pool.Buckets us)
    (hps : l.IsList ps) (hsame : (pool.bucket hash).SameOutside l ps)
    (hmem : ∀ p, p ∈ ps ↔ p ∈ us' ∧ pool.netHash p = hash)
    (hother : ∀ p, pool.netHash p ≠ hash → (p ∈ us' ↔ p ∈ us)) :
    (pool.setBucket hash l).Buckets us' := by
  intro hash'
  by_cases hh : hash' = hash
  · subst hh
    exact ⟨ps, ⟨(Function.update_self _ _ _).trans hps.head, hps.linked, hps.nodup⟩, hmem⟩
  · obtain ⟨qs, hqs, hmemqs⟩ := h hash'
    refine ⟨qs, ?_, fun p => ?_⟩
    · refine IsList.frame (l := pool.bucket hash') hqs hsame (fun p hp hpps => ?_)
        (Function.update_of_ne hh _ _)
      exact hh (((hmemqs p).1 hp).2.symm.trans ((hmem p).1 hpps).2)
    · show p ∈ qs ↔ p ∈ us' ∧ pool.netHash p = hash'
      rw [hmemqs]
      constructor
      · rintro ⟨hp, rfl⟩
        exact ⟨(hother p hh).2 hp, rfl⟩
      · rintro ⟨hp, rfl⟩
        exact ⟨(hother p hh).1 hp, rfl⟩

lemma Buckets.pushFront {f : BanPtr} (h : pool.Buckets us) (hf : f ∉ us) :
    (pool.setBucket (pool.netHash f) ((pool.bucket (pool.netHash f)).pushFront f)).Buckets (f :: us) := by
  obtain ⟨ps, hps, hmem⟩ := h (pool.netHash f)
  obtain ⟨hlist, hsame⟩ := pushFront_spec hps fun hfps => hf ((hmem f).1 hfps).1
  refine h.setBucket hlist hsame (fun p => ?_) fun p hp => ?_
  · rw [List.mem_cons, List.mem_cons, hmem]
    constructor
    · rintro (rfl | ⟨hp, hph⟩)
      · exact ⟨.inl rfl, rfl⟩
      · exact ⟨.inr hp, hph⟩
    · rintro ⟨rfl | hp, hph⟩
      · exact .inl rfl
      · exact .inr ⟨hp, hph⟩
  · rw [List.mem_cons, or_iff_right]
    rintro rfl
    exact hp rfl

omit T in
lemma mem_append_iff_of_nodup {p : BanPtr} {as bs : List BanPtr} (hnodup : (as ++ p :: bs).Nodup)
    (q : BanPtr) : q ∈ as ++ bs ↔ q ∈ as ++ p :: bs ∧ q ≠ p := by
  have hp := (List.nodup_cons.1 (List.nodup_middle.1 hnodup)).1
  constructor
  · intro hq
    refine ⟨?_, fun heq => hp (heq ▸ hq)⟩
    rw [List.mem_append] at hq ⊢
    exact hq.imp_right (List.mem_cons_of_mem _)
  · simp only [List.mem_append, List.mem_cons]
    tauto

lemma Buckets.unlink {p : BanPtr} {as bs : List BanPtr} (h : pool.Buckets (as ++ p :: bs))
    (hnodup : (as ++ p :: bs).Nodup) :
    (pool.setBucket (pool.netHash p) ((pool.bucket (pool.netHash p)).unlink p)).Buckets (as ++ bs) := by
  obtain ⟨ps, hps, hmem⟩ := h (pool.netHash p)
  obtain ⟨cs, ds, rfl⟩ := List.append_of_mem ((hmem p).2 ⟨by simp, rfl⟩)
  obtain ⟨hlist, hsame⟩ := unlink_spec hps
  refine h.setBucket hlist hsame (fun q => ?_) fun q hq => ?_
  · rw [mem_append_iff_of_nodup hps.nodup, hmem, mem_append_iff_of_nodup hnodup]
    tauto
  · rw [mem_append_iff_of_nodup hnodup, and_iff_left]
    rintro rfl
    exact hq rfl

/-- The pointers of a ban that is in no list do not matter. -/
lemma Buckets.clear {p : BanPtr} (h : pool.Buckets us) (hp : p ∉ us) (v w : Option BanPtr) :
    Buckets { pool with
      hashNext := Function.update pool.hashNext p v
      hashPrev := Function.update pool.hashPrev p w } us := by
  intro hash
  obtain ⟨ps, hps, hmem⟩ := h hash
  have hsame : (pool.bucket hash).SameOutside
      ⟨pool.hashList hash, Function.update pool.hashNext p v, Function.update pool.hashPrev p w⟩ [p] := by
    intro q hq
    have hne : q ≠ p := fun heq => hq (by simp [heq])
    exact ⟨Function.update_of_ne hne _ _, Function.update_of_ne hne _ _⟩
  refine ⟨ps, hps.frame hsame (fun q hq hqp => ?_) rfl, hmem⟩
  rw [List.mem_singleton] at hqp
  exact hp (hqp ▸ ((hmem q).1 hq).1)

end Buckets

/-! ### Add -/

variable [BanData T] {pool : CBanPool T} {us fs : List BanPtr}

lemma PoolInv.length_le (h : PoolInv pool us fs) : us.length ≤ maxBans := by
  have htotal := h.total
  omega

lemma PoolInv.head_free (h : PoolInv pool us fs) : pool.firstFree = fs.head? := h.free.head

/-- That no two bans are the same does not depend on the order. -/
lemma distinct_of_perm (hsymm : ∀ a b : T, BanData.same a b = true → BanData.same b a = true)
    (pool : CBanPool T) {us us' : List BanPtr} (hperm : us'.Perm us)
    (h : us.Pairwise fun p q => BanData.same (pool.data p) (pool.data q) = false) :
    us'.Pairwise fun p q => BanData.same (pool.data p) (pool.data q) = false := by
  refine (hperm.pairwise_iff fun {p q} hpq => ?_).2 h
  rw [← Bool.not_eq_true] at hpq ⊢
  exact fun hqp => hpq (hsymm _ _ hqp)

lemma add_full (h : PoolInv pool us []) (data : T) (info : CBanInfo) (netHash : CNetHash) :
    pool.add data info netHash = (pool, none) := by
  rw [add, show pool.firstFree = none from h.head_free]

lemma PoolInv.addAt_spec (hsymm : ∀ a b : T, BanData.same a b = true → BanData.same b a = true)
    {f : BanPtr} (h : PoolInv pool us (f :: fs)) (data : T) (info : CBanInfo)
    (hnew : ∀ p ∈ us, BanData.same (pool.data p) data = false) :
    ∃ us', PoolInv (pool.addAt f data info (BanData.netHash data)) us' fs ∧
      (pool.addAt f data info (BanData.netHash data)).entries us' =
        insertEntry (data, info) (pool.entries us) := by
  have hf : f ∉ us := fun hmem => h.disjoint f hmem (by simp)
  have hfs : f ∉ fs := (List.nodup_cons.1 h.free.nodup).1
  have hne : ∀ p ∈ us, p ≠ f := fun p hp heq => hf (heq ▸ hp)
  obtain ⟨hfree₁, hsame₁⟩ := unlink_spec (show pool.free.IsList ([] ++ f :: fs) from h.free)
  set pool₁ : CBanPool T := { pool with
    data := Function.update pool.data f data
    info := Function.update pool.info f info
    netHash := Function.update pool.netHash f (BanData.netHash data) }
  have hdataf : pool₁.data f = data := Function.update_self _ _ _
  have hinfof : pool₁.info f = info := Function.update_self _ _ _
  have hhashf : pool₁.netHash f = BanData.netHash data := Function.update_self _ _ _
  have hdata : ∀ p ∈ us, pool₁.data p = pool.data p := fun p hp => Function.update_of_ne (hne p hp) _ _
  have hinfo : ∀ p ∈ us, pool₁.info p = pool.info p := fun p hp => Function.update_of_ne (hne p hp) _ _
  have hhash : ∀ p ∈ us, pool₁.netHash p = pool.netHash p := fun p hp =>
    Function.update_of_ne (hne p hp) _ _
  -- out of the free list, and in front of the list of its hash
  set pool₂ := pool₁.setFree (pool₁.free.unlink f)
  set pool₃ := pool₂.setBucket (BanData.netHash data)
    ((pool₂.bucket (BanData.netHash data)).pushFront f)
  have hused₃ : pool₃.used.IsList us :=
    h.used.frame hsame₁ (fun p hp hmem => h.disjoint p hp (List.mem_cons_of_mem _ hmem)) rfl
  have hbuckets₃ : pool₃.Buckets (f :: us) := by
    have hbuckets₂ : pool₂.Buckets us := h.buckets.congr (fun _ => Iff.rfl) rfl rfl rfl hhash
    have hpush := hbuckets₂.pushFront hf
    rwa [show pool₂.netHash f = BanData.netHash data from hhashf] at hpush
  -- into its place in the used list
  obtain ⟨l, hl, hused₄, hsame₄⟩ := insertUsed_spec hused₃ hf h.length_le
  set us' := us.orderedInsert (fun p q => expiresBefore (pool₃.info p) (pool₃.info q)) f with hus'
  have hperm : us'.Perm (f :: us) := List.perm_orderedInsert _ f us
  have hmem : ∀ p, p ∈ us' ↔ p = f ∨ p ∈ us := fun p => by rw [hperm.mem_iff, List.mem_cons]
  have hdisjoint : ∀ p ∈ us', p ∉ fs := by
    intro p hp hpfs
    rcases (hmem p).1 hp with rfl | hp
    · exact hfs hpfs
    · exact h.disjoint p hp (List.mem_cons_of_mem _ hpfs)
  have hadd : pool.addAt f data info (BanData.netHash data) =
      { pool₃.setUsed l with countUsed := pool.countUsed + 1 } := by
    show { pool₃.insertUsed f with countUsed := (pool₃.insertUsed f).countUsed + 1 } = _
    rw [hl]
    rfl
  rw [hadd]
  refine ⟨us', ⟨hused₄, ?_, hdisjoint, ?_, ?_, ?_, ?_, ?_, ?_⟩, ?_⟩
  · exact IsList.frame (l := pool₃.free) hfree₁ hsame₄ (fun p hp hp' => hdisjoint p hp' hp) rfl
  · rw [hperm.length_eq, ← h.total, List.length_cons, List.length_cons]
    omega
  · exact hbuckets₃.congr (fun p => hperm.mem_iff) rfl rfl rfl fun _ _ => rfl
  · intro p hp
    rcases (hmem p).1 hp with rfl | hp
    · exact hhashf.trans (congrArg _ hdataf.symm)
    · exact ((hhash p hp).trans (h.netHash p hp)).trans (congrArg _ (hdata p hp).symm)
  · refine distinct_of_perm hsymm pool₃ hperm (List.pairwise_cons.2 ⟨fun p hp => ?_, ?_⟩)
    · show BanData.same (pool₁.data f) (pool₁.data p) = false
      rw [hdataf, hdata p hp, ← Bool.not_eq_true]
      intro hsame
      have := hnew p hp
      rw [hsymm _ _ hsame] at this
      exact Bool.noConfusion this
    · refine h.distinct.imp_of_mem fun {p q} hp hq hpq => ?_
      show BanData.same (pool₁.data p) (pool₁.data q) = false
      rwa [hdata p hp, hdata q hq]
  · refine sorted_orderedInsert pool₃ f (h.sorted.imp_of_mem fun {p q} hp hq hpq => ?_)
    show expiresBefore (pool₁.info p) (pool₁.info q)
    rwa [hinfo p hp, hinfo q hq]
  · show pool.countUsed + 1 = _
    rw [h.count, hperm.length_eq, List.length_cons]
    norm_num
  · have hentries : pool₃.entries us = pool.entries us := List.map_congr_left fun p hp => by
      show (pool₁.data p, pool₁.info p) = _
      rw [hdata p hp, hinfo p hp]
    have hinsert := entries_orderedInsert pool₃ f us
    rw [hentries] at hinsert
    exact hinsert.trans (by rw [show pool₃.data f = data from hdataf, show pool₃.info f = info from hinfof])

theorem add_spec (hsymm : ∀ a b : T, BanData.same a b = true → BanData.same b a = true)
    (h : PoolInv pool us fs) (hfree : us.length < maxBans) (data : T) (info : CBanInfo)
    (hnew : ∀ p ∈ us, BanData.same (pool.data p) data = false) :
    ∃ us' fs', PoolInv (pool.add data info (BanData.netHash data)).1 us' fs' ∧
      (pool.add data info (BanData.netHash data)).1.entries us' =
        insertEntry (data, info) (pool.entries us) := by
  cases fs with
  | nil =>
    have htotal := h.total
    rw [List.length_nil] at htotal
    omega
  | cons f fs =>
    obtain ⟨us', hinv, hentries⟩ := h.addAt_spec hsymm data info hnew
    rw [add, show pool.firstFree = some f from h.head_free]
    exact ⟨us', fs, hinv, hentries⟩

/-! ### Remove and update -/

theorem remove_spec {p : BanPtr} {as bs : List BanPtr} (h : PoolInv pool (as ++ p :: bs) fs) :
    PoolInv (pool.remove p) (as ++ bs) (p :: fs) ∧
      (pool.remove p).entries (as ++ bs) = pool.entries (as ++ bs) := by
  have hsub : (as ++ bs).Sublist (as ++ p :: bs) := by simp
  have hmem : ∀ q ∈ as ++ bs, q ∈ as ++ p :: bs ∧ q ≠ p := fun q =>
    (mem_append_iff_of_nodup h.used.nodup q).1
  have hpfs : p ∉ fs := h.disjoint p (by simp)
  have hbuckets := (h.buckets.unlink h.used.nodup).clear (fun hp => (hmem p hp).2 rfl) none none
  obtain ⟨hused, hsame⟩ := unlink_spec h.used
  have hfree : IsList ⟨pool.firstFree, (pool.used.unlink p).next, (pool.used.unlink p).prev⟩ fs :=
    h.free.frame hsame (fun q hq hq' => h.disjoint q (hmem q hq').1 hq) rfl
  obtain ⟨hfree', hsame'⟩ := pushFront_spec hfree hpfs
  have hdisjoint : ∀ q ∈ as ++ bs, q ∉ p :: fs := by
    intro q hq
    rw [List.mem_cons, not_or]
    exact ⟨(hmem q hq).2, h.disjoint q (hmem q hq).1⟩
  refine ⟨⟨?_, hfree', hdisjoint, ?_, ?_, ?_, ?_, ?_, ?_⟩, rfl⟩
  · exact hused.frame hsame' hdisjoint rfl
  · rw [← h.total]
    simp only [List.length_append, List.length_cons]
    omega
  · exact hbuckets.congr (fun _ => Iff.rfl) rfl rfl rfl fun _ _ => rfl
  · exact fun q hq => h.netHash q (hmem q hq).1
  · exact h.distinct.sublist hsub
  · exact h.sorted.sublist hsub
  · show pool.countUsed - 1 = _
    rw [h.count]
    simp only [List.length_append, List.length_cons]
    omega

theorem update_spec (hsymm : ∀ a b : T, BanData.same a b = true → BanData.same b a = true)
    {p : BanPtr} {as bs : List BanPtr} (h : PoolInv pool (as ++ p :: bs) fs) (info : CBanInfo) :
    ∃ us', PoolInv (pool.update p info) us' fs ∧
      (pool.update p info).entries us' = insertEntry (pool.data p, info) (pool.entries (as ++ bs)) := by
  have hsub : (as ++ bs).Sublist (as ++ p :: bs) := by simp
  have hmem : ∀ q ∈ as ++ bs, q ∈ as ++ p :: bs ∧ q ≠ p := fun q =>
    (mem_append_iff_of_nodup h.used.nodup q).1
  have hp : p ∉ as ++ bs := fun hp => (hmem p hp).2 rfl
  set pool₁ : CBanPool T := { pool with info := Function.update pool.info p info }
  have hinfo : ∀ q ∈ as ++ bs, pool₁.info q = pool.info q := fun q hq =>
    Function.update_of_ne (hmem q hq).2 _ _
  obtain ⟨hused₁, hsame₁⟩ := unlink_spec h.used
  set pool₂ := pool₁.setUsed (pool₁.used.unlink p)
  have hlen : (as ++ bs).length ≤ maxBans := hsub.length_le.trans h.length_le
  obtain ⟨l, hl, hused₂, hsame₂⟩ := insertUsed_spec (show pool₂.used.IsList (as ++ bs) from hused₁) hp hlen
  set us' := (as ++ bs).orderedInsert (fun p q => expiresBefore (pool₂.info p) (pool₂.info q)) p
  have hperm : us'.Perm (as ++ p :: bs) :=
    (List.perm_orderedInsert _ p (as ++ bs)).trans List.perm_middle.symm
  have hdisjoint : ∀ q ∈ us', q ∉ fs := fun q hq => h.disjoint q (hperm.mem_iff.1 hq)
  have hupdate : pool.update p info = pool₂.setUsed l := hl
  have hfree₁ : pool₂.free.IsList fs :=
    h.free.frame hsame₁ (fun q hq hq' => h.disjoint q (hmem q hq').1 hq) rfl
  rw [hupdate]
  refine ⟨us', ⟨hused₂, ?_, hdisjoint, ?_, ?_, ?_, ?_, ?_, ?_⟩, ?_⟩
  · exact IsList.frame (l := pool₂.free) hfree₁ hsame₂ (fun q hq hq' => hdisjoint q hq' hq) rfl
  · rw [hperm.length_eq, h.total]
  · exact h.buckets.congr (fun q => hperm.mem_iff) rfl rfl rfl fun _ _ => rfl
  · exact fun q hq => h.netHash q (hperm.mem_iff.1 hq)
  · exact distinct_of_perm hsymm pool₂ hperm h.distinct
  · refine sorted_orderedInsert pool₂ p ((h.sorted.sublist hsub).imp_of_mem fun {q r} hq hr hqr => ?_)
    show expiresBefore (pool₁.info q) (pool₁.info r)
    rwa [hinfo q hq, hinfo r hr]
  · rw [hperm.length_eq]
    exact h.count
  · have hentries : pool₂.entries (as ++ bs) = pool.entries (as ++ bs) := List.map_congr_left fun q hq => by
      show (pool.data q, pool₁.info q) = _
      rw [hinfo q hq]
    have hinsert := entries_orderedInsert pool₂ p (as ++ bs)
    rw [hentries] at hinsert
    exact hinsert.trans (by rw [show pool₂.info p = info from Function.update_self _ _ _]; rfl)

/-! ### Find and get -/

omit [BanData T] in
lemma hashLoop_linked (isMatch : T → Bool) {ps : List BanPtr} {q : Option BanPtr} {fuel : ℕ}
    (h : Linked pool.hashNext pool.hashPrev q ps none) (hfuel : ps.length ≤ fuel) :
    pool.hashLoop isMatch fuel ps.head? = ps.find? fun p => isMatch (pool.data p) := by
  induction ps generalizing q fuel with
  | nil => cases fuel <;> rfl
  | cons p ps ih =>
    obtain ⟨-, hnext, hps⟩ := linked_cons.1 h
    rw [List.length_cons] at hfuel
    obtain ⟨fuel, rfl⟩ : ∃ n, fuel = n + 1 := ⟨fuel - 1, by omega⟩
    rw [List.head?_cons, hashLoop, List.find?_cons, hnext, Option.or_none, ih hps (by omega)]
    cases isMatch (pool.data p) <;> rfl

/-- The loop along the list of a hash finds a ban that has this hash and is taken by `isMatch`. -/
lemma hashLoop_spec (h : PoolInv pool us fs) (isMatch : T → Bool) (hash : CNetHash) :
    match pool.hashLoop isMatch maxBans (pool.hashList hash) with
    | some p => p ∈ us ∧ pool.netHash p = hash ∧ isMatch (pool.data p) = true
    | none => ∀ p ∈ us, pool.netHash p = hash → isMatch (pool.data p) = false := by
  obtain ⟨ps, hps, hmem⟩ := h.buckets hash
  have hlen : ps.length ≤ maxBans := by
    have hsubset : ps ⊆ us := fun p hp => ((hmem p).1 hp).1
    exact (hps.nodup.length_le_of_subset hsubset).trans h.length_le
  rw [show pool.hashList hash = ps.head? from hps.head, hashLoop_linked isMatch hps.linked hlen]
  cases hfind : ps.find? fun p => isMatch (pool.data p) with
  | some p =>
    obtain ⟨hp, hph⟩ := (hmem p).1 (List.mem_of_find?_eq_some hfind)
    have hmatch := List.find?_some hfind
    exact ⟨hp, hph, hmatch⟩
  | none =>
    intro p hp hph
    simpa using List.find?_eq_none.1 hfind p ((hmem p).2 ⟨hp, hph⟩)

theorem find_spec [LawfulBanData T] (h : PoolInv pool us fs) {data : T}
    (hvalid : BanData.isValid data = true) :
    match pool.find data (BanData.netHash data) with
    | some p => p ∈ us ∧ BanData.same (pool.data p) data = true
    | none => ∀ p ∈ us, BanData.same (pool.data p) data = false := by
  have hloop := hashLoop_spec h (fun other => BanData.same other data) (BanData.netHash data)
  rw [find]
  cases hfind : pool.hashLoop (fun other => BanData.same other data) maxBans
      (pool.hashList (BanData.netHash data)) with
  | some p =>
    rw [hfind] at hloop
    exact ⟨hloop.1, hloop.2.2⟩
  | none =>
    rw [hfind] at hloop
    intro p hp
    by_contra hsame
    rw [Bool.not_eq_false] at hsame
    have hhash := LawfulBanData.netHash _ _ hvalid (LawfulBanData.symm _ _ hsame)
    have hhash := (h.netHash p hp).trans hhash.symm
    rw [hloop p hp hhash] at hsame
    exact Bool.noConfusion hsame

omit [BanData T] in
lemma getLoop_linked {q : Option BanPtr} (h : Linked pool.next pool.prev q us none) (index : ℕ) :
    pool.getLoop index us.head? = us[index]? := by
  induction us generalizing q index with
  | nil => cases index <;> rfl
  | cons p us ih =>
    obtain ⟨-, hnext, hus⟩ := linked_cons.1 h
    cases index with
    | zero => rfl
    | succ index => rw [List.head?_cons, getLoop, hnext, Option.or_none, ih hus, List.getElem?_cons_succ]

theorem get_spec (h : PoolInv pool us fs) (index : ℤ) :
    pool.get index = if index < 0 then none else us[index.toNat]? := by
  rw [get, h.count, show pool.firstUsed = us.head? from h.used.head, getLoop_linked h.used.linked]
  by_cases hneg : index < 0
  · simp [hneg]
  · by_cases hlen : (us.length : ℤ) ≤ index
    · have hnone : us[index.toNat]? = none := List.getElem?_eq_none (by omega)
      simp [hneg, hlen, hnone]
    · simp [hneg, hlen]

/-! ### Reset -/

omit [BanData T] in
/-- The free list of an empty pool has all bans in their order in the array. -/
lemma reset_free (zero : T) {fs : List BanPtr} (hlen : fs.length = maxBans)
    (hval : ∀ i (h : i < fs.length), (fs[i]).val = i) : (reset zero).free.IsList fs := by
  refine ⟨?_, ?_, ?_⟩
  · have hpos : 0 < fs.length := by
      rw [hlen]
      norm_num [maxBans]
    rw [List.head?_eq_getElem?, List.getElem?_eq_getElem hpos]
    exact congrArg some (Fin.ext (hval 0 hpos).symm)
  · refine linked_of_getElem (fun i h => ?_) fun i h => ?_
    · have hi := hval i h
      by_cases hzero : i = 0
      · subst hzero
        simp [free, reset, hi]
      · rw [if_neg hzero, List.getElem?_eq_getElem (by omega)]
        have hpred := hval (i - 1) (by omega)
        simp [free, reset, hi, hzero, Fin.ext_iff, hpred]
    · have hi := hval i h
      rw [Option.or_none]
      by_cases hlast : i + 1 < fs.length
      · have hsucc := hval (i + 1) hlast
        rw [List.getElem?_eq_getElem hlast]
        simp [free, reset, hi, ← hlen, hlast, Fin.ext_iff, hsucc]
      · rw [List.getElem?_eq_none (by omega)]
        simp [free, reset, hi, ← hlen, hlast]
  · refine List.nodup_iff_injective_get.2 fun i j hij => Fin.ext ?_
    rw [← hval i i.isLt, ← hval j j.isLt]
    exact congrArg Fin.val hij

theorem reset_spec (zero : T) : ∃ fs, PoolInv (reset zero) [] fs := by
  obtain ⟨fs, hfs⟩ : ∃ fs : List BanPtr, fs = List.finRange maxBans := ⟨_, rfl⟩
  have hlen : fs.length = maxBans := by rw [hfs, List.length_finRange]
  have hval : ∀ i (h : i < fs.length), (fs[i]).val = i := by
    intro i h
    simp only [hfs, List.getElem_finRange]
    rfl
  refine ⟨fs, ⟨rfl, trivial, List.nodup_nil⟩, reset_free zero hlen hval, ?_, ?_, ?_, ?_,
    List.Pairwise.nil, List.Pairwise.nil, rfl⟩
  · exact fun p hp => absurd hp List.not_mem_nil
  · rw [List.length_nil, hlen, Nat.zero_add]
  · exact fun hash => ⟨[], ⟨rfl, trivial, List.nodup_nil⟩, by simp⟩
  · exact fun p hp => absurd hp List.not_mem_nil

/-! ### What the pool stands for -/

/-- The pool holds the bans `bans`. -/
def Holds (pool : CBanPool T) (bans : List (T × CBanInfo)) : Prop :=
  ∃ us fs, PoolInv pool us fs ∧ pool.entries us = bans

/-- The bans without those of the same data. -/
def dropSame (data : T) (bans : List (T × CBanInfo)) : List (T × CBanInfo) :=
  bans.filter fun ban => !BanData.same ban.1 data

lemma holds_reset (zero : T) : (reset zero).Holds [] := by
  obtain ⟨fs, hfs⟩ := reset_spec zero
  exact ⟨[], fs, hfs, rfl⟩

lemma PoolInv.countUsed (h : PoolInv pool us fs) : pool.countUsed = (pool.entries us).length := by
  rw [h.count, entries, List.length_map]

omit [BanData T] in
lemma entries_append (pool : CBanPool T) (as bs : List BanPtr) :
    pool.entries (as ++ bs) = pool.entries as ++ pool.entries bs := List.map_append

/-- Only one ban of the pool can be the same as the data. -/
lemma dropSame_split [LawfulBanData T] {p : BanPtr} {as bs : List BanPtr}
    (h : PoolInv pool (as ++ p :: bs) fs) {data : T} (hsame : BanData.same (pool.data p) data = true) :
    dropSame data (pool.entries (as ++ p :: bs)) = pool.entries (as ++ bs) := by
  have hother : ∀ q ∈ as ++ bs, BanData.same (pool.data q) data = false := by
    intro q hq
    have hpq := (List.pairwise_cons.1 (distinct_of_perm LawfulBanData.symm pool List.perm_middle.symm h.distinct)).1 q hq
    rw [← Bool.not_eq_true] at hpq ⊢
    exact fun hq => hpq (LawfulBanData.trans _ _ _ hsame (LawfulBanData.symm _ _ hq))
  have hkeep : ∀ qs : List BanPtr, qs ⊆ as ++ bs → dropSame data (pool.entries qs) = pool.entries qs := by
    intro qs hqs
    refine List.filter_eq_self.2 fun ban hban => ?_
    obtain ⟨q, hq, rfl⟩ := List.mem_map.1 hban
    simp [hother q (hqs hq)]
  have has := hkeep as (List.subset_append_left _ _)
  have hbs := hkeep bs (List.subset_append_right _ _)
  rw [dropSame] at has hbs
  rw [entries_append, entries_append, dropSame, List.filter_append, has]
  congr 1
  show List.filter _ ((pool.data p, pool.info p) :: pool.entries bs) = _
  rw [List.filter_cons_of_neg (by simp [hsame]), hbs]

/-- `find` finds the ban of the pool that is the same as the data. -/
lemma Holds.find [LawfulBanData T] {bans : List (T × CBanInfo)} (h : pool.Holds bans) {data : T}
    (hvalid : BanData.isValid data = true) :
    (pool.find data (BanData.netHash data)).map (fun p => (pool.data p, pool.info p)) =
      bans.find? fun ban => BanData.same ban.1 data := by
  obtain ⟨us, fs, hinv, rfl⟩ := h
  have hfind := find_spec hinv hvalid
  cases hp : pool.find data (BanData.netHash data) with
  | none =>
    rw [hp] at hfind
    refine (List.find?_eq_none.2 fun ban hban => ?_).symm
    obtain ⟨p, hp, rfl⟩ := List.mem_map.1 hban
    simp [hfind p hp]
  | some p =>
    rw [hp] at hfind
    obtain ⟨as, bs, rfl⟩ := List.append_of_mem hfind.1
    symm
    rw [Option.map_some, List.find?_eq_some_iff_append]
    refine ⟨hfind.2, pool.entries as, pool.entries bs, ?_, ?_⟩
    · exact entries_append _ _ _
    · intro ban hban
      obtain ⟨q, hq, rfl⟩ := List.mem_map.1 hban
      have hqp := (List.pairwise_append.1 hinv.distinct).2.2 q hq p (by simp)
      rw [Bool.not_eq_true', ← Bool.not_eq_true]
      rw [← Bool.not_eq_true] at hqp
      exact fun hqd => hqp (LawfulBanData.trans _ _ _ hqd (LawfulBanData.symm _ _ hfind.2))

/-- A new ban is put into its place, unless the pool is full. -/
lemma Holds.add (hsymm : ∀ a b : T, BanData.same a b = true → BanData.same b a = true)
    {bans : List (T × CBanInfo)} (h : pool.Holds bans) (data : T) (info : CBanInfo)
    (hnew : ∀ ban ∈ bans, BanData.same ban.1 data = false) :
    (pool.add data info (BanData.netHash data)).1.Holds
      (if bans.length < maxBans then insertEntry (data, info) bans else bans) := by
  obtain ⟨us, fs, hinv, rfl⟩ := h
  have hlen : (pool.entries us).length = us.length := List.length_map _
  rw [hlen]
  by_cases hfree : us.length < maxBans
  · rw [if_pos hfree]
    obtain ⟨us', fs', hinv', hentries⟩ := add_spec hsymm hinv hfree data info fun p hp =>
      hnew _ (List.mem_map_of_mem hp)
    exact ⟨us', fs', hinv', hentries⟩
  · rw [if_neg hfree]
    obtain rfl : fs = [] := by
      have htotal := hinv.total
      exact List.length_eq_zero_iff.1 (by omega)
    rw [add_full hinv]
    exact ⟨us, [], hinv, rfl⟩

/-- The ban that `find` finds gets new information and a new place. -/
lemma Holds.update [LawfulBanData T] {bans : List (T × CBanInfo)} {p : BanPtr} {data : T}
    (h : pool.Holds bans) (hvalid : BanData.isValid data = true)
    (hp : pool.find data (BanData.netHash data) = some p) (info : CBanInfo) :
    (pool.update p info).Holds (insertEntry (pool.data p, info) (dropSame data bans)) := by
  obtain ⟨us, fs, hinv, rfl⟩ := h
  have hfind := find_spec hinv hvalid
  rw [hp] at hfind
  obtain ⟨as, bs, rfl⟩ := List.append_of_mem hfind.1
  obtain ⟨us', hinv', hentries⟩ := update_spec LawfulBanData.symm hinv info
  exact ⟨us', fs, hinv', hentries.trans (by rw [dropSame_split hinv hfind.2])⟩

/-- The ban that `find` finds is removed. -/
lemma Holds.remove [LawfulBanData T] {bans : List (T × CBanInfo)} {p : BanPtr} {data : T}
    (h : pool.Holds bans) (hvalid : BanData.isValid data = true)
    (hp : pool.find data (BanData.netHash data) = some p) :
    (pool.remove p).Holds (dropSame data bans) := by
  obtain ⟨us, fs, hinv, rfl⟩ := h
  have hfind := find_spec hinv hvalid
  rw [hp] at hfind
  obtain ⟨as, bs, rfl⟩ := List.append_of_mem hfind.1
  obtain ⟨hinv', hentries⟩ := remove_spec hinv
  exact ⟨as ++ bs, p :: fs, hinv', hentries.trans (dropSame_split hinv hfind.2).symm⟩

lemma Holds.length_le {bans : List (T × CBanInfo)} (h : pool.Holds bans) : bans.length ≤ maxBans := by
  obtain ⟨us, fs, hinv, rfl⟩ := h
  rw [entries, List.length_map]
  exact hinv.length_le

lemma Holds.countUsed {bans : List (T × CBanInfo)} (h : pool.Holds bans) :
    pool.countUsed = bans.length := by
  obtain ⟨us, fs, hinv, rfl⟩ := h
  exact hinv.countUsed

/-- The ban with an index, and the bans without it. -/
lemma Holds.get {bans : List (T × CBanInfo)} (h : pool.Holds bans) (index : ℤ) :
    match pool.get index with
    | some p => 0 ≤ index ∧ index < bans.length ∧ (pool.remove p).Holds (bans.eraseIdx index.toNat)
    | none => index < 0 ∨ bans.length ≤ index := by
  obtain ⟨us, fs, hinv, rfl⟩ := h
  have hlen : (pool.entries us).length = us.length := List.length_map _
  rw [get_spec hinv, hlen]
  by_cases hneg : index < 0
  · rw [if_pos hneg]
    exact .inl hneg
  · rw [if_neg hneg]
    by_cases hindex : index.toNat < us.length
    · rw [List.getElem?_eq_getElem hindex]
      refine ⟨by omega, by omega, ?_⟩
      have hsplit : us = us.take index.toNat ++ us[index.toNat] :: us.drop (index.toNat + 1) := by
        rw [← List.drop_eq_getElem_cons hindex, List.take_append_drop]
      obtain ⟨hinv', hentries⟩ := remove_spec (hsplit ▸ hinv)
      refine ⟨_, _, hinv', hentries.trans ?_⟩
      rw [List.eraseIdx_eq_take_drop_succ, entries, entries, List.map_append, List.map_take, List.map_drop]
    · rw [List.getElem?_eq_none (by omega)]
      exact .inr (by omega)

end CBanPool

end DDNet
