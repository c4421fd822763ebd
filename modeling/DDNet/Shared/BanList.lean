/-
What the ban list is for (`CNetBan`, `engine/shared/netban.cpp`).

`Bans` has the active bans in the order in which they expire.  The ban list does to its pools what
`Bans.step` does to these lists (`step_models`), and `IsBanned` says whether an address is in a
ban that is stored (`isBanned_models`).  It looks for websocket addresses as IPv4 addresses, but
`Ban` stores them as they are, so that only the bans of other addresses work
(`isBanned_iff`, `websocket_ban_ignored`).
-/
import DDNet.Shared.NetBan

namespace DDNet

open CBanPool

/-! ### The hash of a range and the addresses in it -/

lemma memComp_swap (as bs : List UInt8) : memComp bs as = (memComp as bs).swap := by
  induction as generalizing bs with
  | nil => cases bs <;> rfl
  | cons a as ih =>
    cases bs with
    | nil => rfl
    | cons b bs =>
      rw [memComp, memComp]
      split_ifs with hba hab hab
      · exact absurd hab (UInt8.lt_asymm hba)
      · rfl
      · rfl
      · exact ih bs

lemma memComp_ne_lt_iff {as bs : List UInt8} (h : as.length = bs.length) :
    memComp as bs ≠ .lt ↔ bs ≤ as := by
  rw [← memComp_ne_gt_iff h.symm, memComp_swap bs as]
  cases memComp bs as <;> simp [Ordering.swap]

lemma commonPrefix_isPrefix (as bs : List UInt8) :
    commonPrefix as bs <+: as ∧ commonPrefix as bs <+: bs := by
  induction as generalizing bs with
  | nil => simp [commonPrefix]
  | cons a as ih =>
    cases bs with
    | nil => simp [commonPrefix]
    | cons b bs =>
      rw [commonPrefix]
      split_ifs with hab
      · subst hab
        exact ⟨List.cons_prefix_cons.2 ⟨rfl, (ih bs).1⟩, List.cons_prefix_cons.2 ⟨rfl, (ih bs).2⟩⟩
      · exact ⟨List.nil_prefix, List.nil_prefix⟩

lemma commonPrefix_length_lt {as bs : List UInt8} (h : as.length = bs.length) (hne : as ≠ bs) :
    (commonPrefix as bs).length < as.length := by
  obtain ⟨has, hbs⟩ := commonPrefix_isPrefix as bs
  refine lt_of_le_of_ne has.length_le fun hlen => hne ?_
  exact (has.eq_of_length hlen).symm.trans (hbs.eq_of_length (hlen.trans h))

/-- What lies between two lists of bytes has their common prefix. -/
lemma commonPrefix_between {as bs cs : List UInt8} (hac : as.length = cs.length)
    (hbc : bs.length = cs.length) (hlb : as ≤ cs) (hub : cs ≤ bs) : commonPrefix as bs <+: cs := by
  induction as generalizing bs cs with
  | nil => simp [commonPrefix]
  | cons a as ih =>
    cases bs with
    | nil => simp [commonPrefix]
    | cons b bs =>
      cases cs with
      | nil => simp at hac
      | cons c cs =>
        rw [commonPrefix]
        split_ifs with hab
        · subst hab
          rw [List.cons_le_cons_iff] at hlb hub
          obtain rfl : a = c := by
            rcases hlb with hlt | ⟨rfl, -⟩
            · rcases hub with hlt' | ⟨rfl, -⟩
              · exact absurd hlt' (UInt8.lt_asymm hlt)
              · rfl
            · rfl
          have hlb' : as ≤ cs := hlb.elim (fun hlt => absurd hlt (UInt8.lt_irrefl a)) And.right
          have hub' : cs ≤ bs := hub.elim (fun hlt => absurd hlt (UInt8.lt_irrefl a)) And.right
          exact List.cons_prefix_cons.2 ⟨rfl, ih (by simpa using hac) (by simpa using hbc) hlb' hub'⟩
        · exact List.nil_prefix

/-- To compare lists with the same beginning, compare what follows. -/
lemma between_iff {as bs cs : List UInt8} (hac : as.length = cs.length) (hbc : bs.length = cs.length)
    {i : ℕ} (has : as.take i = cs.take i) (hbs : bs.take i = cs.take i) :
    memComp (as.drop i) (cs.drop i) ≠ .gt ∧ memComp (bs.drop i) (cs.drop i) ≠ .lt ↔
      as ≤ cs ∧ cs ≤ bs := by
  have happend : ∀ ds : List UInt8, ds.take i = cs.take i →
      memComp ds cs = memComp (ds.drop i) (cs.drop i) := by
    intro ds hds
    calc memComp ds cs = memComp (ds.take i ++ ds.drop i) (cs.take i ++ cs.drop i) := by
          rw [List.take_append_drop, List.take_append_drop]
      _ = memComp (ds.drop i) (cs.drop i) := by rw [hds, memComp_append_left]
  rw [← memComp_ne_gt_iff hac, ← memComp_ne_lt_iff hbc, happend as has, happend bs hbs]

namespace CNetRange

/-- The range has the address between its ends. -/
def Contains (range : CNetRange) (addr : NETADDR) : Prop :=
  range.lb.type = addr.type ∧ range.lb.ipBytes ≤ addr.ipBytes ∧ addr.ipBytes ≤ range.ub.ipBytes

instance (range : CNetRange) (addr : NETADDR) : Decidable (range.Contains addr) :=
  inferInstanceAs (Decidable (_ ∧ _ ∧ _))

lemma length_ipBytes (addr : NETADDR) : addr.ipBytes.length = NETADDR.ipLength addr.type := by
  rw [NETADDR.ipBytes, List.length_take, Vector.length_toList, NETADDR.ipLength]
  split_ifs <;> rfl

lemma netMatchFrom_iff {range : CNetRange} {addr : NETADDR} (hvalid : range.isValid = true) {i : ℕ}
    (hi : i ≤ NETADDR.ipLength addr.type) :
    range.netMatchFrom addr i (NETADDR.ipLength addr.type) = true ↔ range.lb.type = addr.type ∧
      range.lb.ipBytes.take i = addr.ipBytes.take i ∧
      memComp (range.lb.ipBytes.drop i) (addr.ipBytes.drop i) ≠ .gt ∧
      memComp (range.ub.ipBytes.drop i) (addr.ipBytes.drop i) ≠ .lt := by
  rw [netMatchFrom]
  simp only [Bool.and_eq_true, beq_iff_eq, bne_iff_ne, Bool.or_eq_true, and_assoc]
  refine and_congr_right fun htype => ?_
  have htake : ∀ a : NETADDR, a.type = addr.type → a.ip.toList.take i = a.ipBytes.take i := by
    intro a ha
    rw [NETADDR.ipBytes, ha, List.take_take, min_eq_left hi]
  have hdrop : ∀ a : NETADDR, a.type = addr.type →
      (a.ip.toList.drop i).take (NETADDR.ipLength addr.type - i) = a.ipBytes.drop i := by
    intro a ha
    rw [NETADDR.ipBytes, ha, List.drop_take]
  have hub : range.ub.type = addr.type := (isValid_iff.1 hvalid).1.symm.trans htype
  rw [hdrop _ htype, hdrop _ hub, hdrop _ rfl, htake _ htype, htake _ rfl, memComp_eq_iff (by
    rw [List.length_take, List.length_take, length_ipBytes, length_ipBytes, htype])]
  refine and_congr_left fun _ => or_iff_right_of_imp ?_
  rintro rfl
  rfl

/-- A range that is in the list which `IsBanned` searches for a prefix of the address, and that
matches there, contains the address; and a range that contains it is in one of these lists. -/
lemma contains_iff {range : CNetRange} {addr : NETADDR} (hvalid : range.isValid = true) :
    range.Contains addr ↔ ∃ i < NETADDR.ipLength addr.type,
      CNetHash.ofRange range = makeHashArray addr i ∧
        range.netMatchFrom addr i (NETADDR.ipLength addr.type) = true := by
  have hcommon := commonPrefix_ipBytes hvalid
  have hubtype := (isValid_iff.1 hvalid).1
  set n := NETADDR.ipLength addr.type with hn
  have hlength : hashArrayLength addr = n := rfl
  have hne := ipBytes_ne hvalid
  set common := commonPrefix range.lb.ipBytes range.ub.ipBytes
  obtain ⟨hclb, hcub⟩ := commonPrefix_isPrefix range.lb.ipBytes range.ub.ipBytes
  constructor
  · rintro ⟨htype, hlb, hub⟩
    have hlen₁ : range.lb.ipBytes.length = addr.ipBytes.length := by
      rw [length_ipBytes, length_ipBytes, htype]
    have hlen₂ : range.ub.ipBytes.length = addr.ipBytes.length := by
      rw [length_ipBytes, length_ipBytes, ← hubtype, htype]
    have hca : common <+: addr.ipBytes := commonPrefix_between hlen₁ hlen₂ hlb hub
    have hi : common.length < n := by
      have hlt := commonPrefix_length_lt (hlen₁.trans hlen₂.symm) hne
      rwa [hlen₁, length_ipBytes, ← hn] at hlt
    refine ⟨common.length, hi, ?_, (netMatchFrom_iff hvalid hi.le).2 ⟨htype, ?_, ?_⟩⟩
    · have htake : addr.ip.toList.take common.length = common := by
        have hpre := List.prefix_iff_eq_take.1 hca
        rw [NETADDR.ipBytes, List.take_take, min_eq_left (hn ▸ hi.le)] at hpre
        exact hpre.symm
      rw [CNetHash.ofRange, hcommon, makeHashArray]
      split_ifs with hzero
      · rw [List.length_eq_zero_iff.1 hzero]
        rfl
      · rw [htake, hlength, Nat.mod_eq_of_lt hi]
    · rw [← List.prefix_iff_eq_take.1 hclb, ← List.prefix_iff_eq_take.1 hca]
    · refine (between_iff hlen₁ hlen₂ ?_ ?_).2 ⟨hlb, hub⟩
      · rw [← List.prefix_iff_eq_take.1 hclb, ← List.prefix_iff_eq_take.1 hca]
      · rw [← List.prefix_iff_eq_take.1 hcub, ← List.prefix_iff_eq_take.1 hca]
  · rintro ⟨i, hi, hhash, hmatch⟩
    obtain ⟨htype, htake, hbetween⟩ := (netMatchFrom_iff hvalid hi.le).1 hmatch
    have hlen₁ : range.lb.ipBytes.length = addr.ipBytes.length := by
      rw [length_ipBytes, length_ipBytes, htype]
    have hlen₂ : range.ub.ipBytes.length = addr.ipBytes.length := by
      rw [length_ipBytes, length_ipBytes, ← hubtype, htype]
    have hindex : common.length = i := by
      have hindex := congrArg CNetHash.hashIndex hhash
      rw [CNetHash.ofRange, hcommon, makeHashArray] at hindex
      split_ifs at hindex with hzero
      · exact hindex.trans hzero.symm
      · exact hindex.trans (Nat.mod_eq_of_lt hi)
    have hends : range.ub.ipBytes.take i = range.lb.ipBytes.take i := by
      rw [← hindex, ← List.prefix_iff_eq_take.1 hclb, ← List.prefix_iff_eq_take.1 hcub]
    exact ⟨htype, (between_iff hlen₁ hlen₂ htake (hends.trans htake)).1 hbetween⟩

end CNetRange

/-! ### The ban list as it is meant -/

/-- The active bans, in the order in which they expire. -/
structure Bans where
  addrs : List (NETADDR × CBanInfo)
  ranges : List (CNetRange × CBanInfo)

/-- The operations on the ban list. -/
inductive BanOp
  | banAddr (addr : NETADDR) (seconds : ℤ) (reason : List UInt8) (verbatimReason : Bool)
  | banRange (range : CNetRange) (seconds : ℤ) (reason : List UInt8)
  | unbanByAddr (addr : NETADDR)
  | unbanByRange (range : CNetRange)
  | unbanByIndex (index : ℤ)
  | unbanAll
  | update

namespace Bans

section

variable {T : Type*} [Bannable T]

/-- A ban is renewed, or put into the list if there is room for it. -/
def ban (localhostIpV4 localhostIpV6 : NETADDR) (data : T) (info : CBanInfo)
    (bans : List (T × CBanInfo)) : List (T × CBanInfo) :=
  if Bannable.netMatch data localhostIpV4 || Bannable.netMatch data localhostIpV6 then
    bans
  else
    match bans.find? fun ban => BanData.same ban.1 data with
    | some old => insertEntry (old.1, info) (dropSame data bans)
    | none => if bans.length < maxBans then insertEntry (data, info) bans else bans

/-- The bans that are still active. -/
def expire (now : ℤ) (bans : List (T × CBanInfo)) : List (T × CBanInfo) :=
  bans.filter fun ban => !CNetBan.expired now ban.2

end

/-- What an operation at the time `now` does to the active bans. -/
def step (localhostIpV4 localhostIpV6 : NETADDR) (bans : Bans) (now : ℤ) : BanOp → Bans
  | .banAddr addr seconds reason verbatimReason =>
      let info := CNetBan.banInfo now seconds reason verbatimReason
      { bans with addrs := ban localhostIpV4 localhostIpV6 addr info bans.addrs }
  | .banRange range seconds reason =>
      let info := CNetBan.banInfo now seconds reason false
      if range.isValid then { bans with ranges := ban localhostIpV4 localhostIpV6 range info bans.ranges }
      else bans
  | .unbanByAddr addr => { bans with addrs := dropSame addr bans.addrs }
  | .unbanByRange range =>
      if range.isValid then { bans with ranges := dropSame range bans.ranges } else bans
  | .unbanByIndex index =>
      if index < 0 then bans
      else if index < bans.addrs.length then { bans with addrs := bans.addrs.eraseIdx index.toNat }
      else { bans with ranges := bans.ranges.eraseIdx (index - bans.addrs.length).toNat }
  | .unbanAll => ⟨[], []⟩
  | .update => ⟨expire now bans.addrs, expire now bans.ranges⟩

/-- The active bans after some operations, each at its time. -/
def run (localhostIpV4 localhostIpV6 : NETADDR) : List (ℤ × BanOp) → Bans → Bans
  | [], bans => bans
  | (now, op) :: ops, bans =>
      run localhostIpV4 localhostIpV6 ops (bans.step localhostIpV4 localhostIpV6 now op)

/-- Some active ban is meant for the address; a websocket address is the IPv4 address. -/
def Covers (bans : Bans) (addr : NETADDR) : Prop :=
  (∃ ban ∈ bans.addrs, BanData.same (CNetBan.plainAddr ban.1) (CNetBan.plainAddr addr) = true) ∨
    ∃ ban ∈ bans.ranges,
      CNetRange.Contains ⟨CNetBan.plainAddr ban.1.lb, CNetBan.plainAddr ban.1.ub⟩ (CNetBan.plainAddr addr)

end Bans

/-- What holds of the banned data holds after an operation that bans data of which it holds. -/
lemma ban_forall {T : Type*} [Bannable T] {P : T → Prop} {bans : List (T × CBanInfo)} {data : T}
    (l4 l6 : NETADDR) (info : CBanInfo) (h : ∀ ban ∈ bans, P ban.1) (hdata : P data) :
    ∀ ban ∈ Bans.ban l4 l6 data info bans, P ban.1 := by
  have hinsert : ∀ (data : T) (bans' : List (T × CBanInfo)), P data → bans' ⊆ bans →
      ∀ ban ∈ insertEntry (data, info) bans', P ban.1 := by
    intro data bans' hdata hsub ban hban
    rcases (List.mem_orderedInsert _).1 hban with rfl | hban
    · exact hdata
    · exact h ban (hsub hban)
  rw [Bans.ban]
  by_cases hlocal : Bannable.netMatch data l4 || Bannable.netMatch data l6
  · rw [if_pos hlocal]
    exact h
  · rw [if_neg hlocal]
    cases hfind : bans.find? fun ban => BanData.same ban.1 data with
    | some old =>
      exact hinsert _ _ (h old (List.mem_of_find?_eq_some hfind)) (List.filter_subset_self bans)
    | none =>
      dsimp only
      split_ifs
      · exact hinsert _ _ hdata (List.Subset.refl _)
      · exact h

namespace Bans

/-- The banned addresses satisfy `P`, and the ranges `Q`. -/
structure Forall (P : NETADDR → Prop) (Q : CNetRange → Prop) (bans : Bans) : Prop where
  addrs : ∀ ban ∈ bans.addrs, P ban.1
  ranges : ∀ ban ∈ bans.ranges, Q ban.1

/-- The operation bans only addresses that satisfy `P`, and ranges that satisfy `Q`. -/
def OpForall (P : NETADDR → Prop) (Q : CNetRange → Prop) : BanOp → Prop
  | .banAddr addr _ _ _ => P addr
  | .banRange range _ _ => range.isValid = true → Q range
  | _ => True

lemma step_forall {P : NETADDR → Prop} {Q : CNetRange → Prop} {bans : Bans} {op : BanOp}
    (l4 l6 : NETADDR) (now : ℤ) (h : bans.Forall P Q) (hop : OpForall P Q op) :
    (bans.step l4 l6 now op).Forall P Q := by
  obtain ⟨haddrs, hranges⟩ := h
  cases op with
  | banAddr addr seconds reason verbatimReason =>
    exact ⟨ban_forall l4 l6 _ haddrs hop, hranges⟩
  | banRange range seconds reason =>
    simp only [step]
    by_cases hvalid : range.isValid = true
    · rw [if_pos hvalid]
      exact ⟨haddrs, ban_forall l4 l6 _ hranges (hop hvalid)⟩
    · rw [if_neg hvalid]
      exact ⟨haddrs, hranges⟩
  | unbanByAddr addr => exact ⟨fun ban hban => haddrs ban (List.mem_of_mem_filter hban), hranges⟩
  | unbanByRange range =>
    simp only [step]
    split_ifs
    · exact ⟨haddrs, fun ban hban => hranges ban (List.mem_of_mem_filter hban)⟩
    · exact ⟨haddrs, hranges⟩
  | unbanByIndex index =>
    simp only [step]
    split_ifs
    · exact ⟨haddrs, hranges⟩
    · exact ⟨fun ban hban => haddrs ban ((List.eraseIdx_sublist _ _).subset hban), hranges⟩
    · exact ⟨haddrs, fun ban hban => hranges ban ((List.eraseIdx_sublist _ _).subset hban)⟩
  | unbanAll => exact ⟨by simp [step], by simp [step]⟩
  | update =>
    constructor
    · exact fun ban hban => haddrs ban (List.mem_of_mem_filter hban)
    · exact fun ban hban => hranges ban (List.mem_of_mem_filter hban)

end Bans

namespace CNetBan

/-- An operation at the time `now`. -/
def step (this : CNetBan) (now : ℤ) : BanOp → CNetBan
  | .banAddr addr seconds reason verbatimReason => (this.banAddr addr now seconds reason verbatimReason).1
  | .banRange range seconds reason => (this.banRange range now seconds reason).1
  | .unbanByAddr addr => (this.unbanByAddr addr).1
  | .unbanByRange range => (this.unbanByRange range).1
  | .unbanByIndex index => (this.unbanByIndex index).1
  | .unbanAll => this.unbanAll
  | .update => this.update now

/-- Some operations, each at its time. -/
def run : List (ℤ × BanOp) → CNetBan → CNetBan
  | [], this => this
  | (now, op) :: ops, this => run ops (this.step now op)

/-- The pools hold the active bans. -/
structure Models (this : CNetBan) (l4 l6 : NETADDR) (bans : Bans) : Prop where
  addrs : this.banAddrPool.Holds bans.addrs
  ranges : this.banRangePool.Holds bans.ranges
  valid : ∀ ban ∈ bans.ranges, ban.1.isValid = true
  localhostIpV4 : this.localhostIpV4 = l4
  localhostIpV6 : this.localhostIpV6 = l6

section Pool

variable {T : Type*} [Bannable T] [LawfulBanData T] {pool : CBanPool T} {bans : List (T × CBanInfo)}

lemma ban_holds (this : CNetBan) (h : pool.Holds bans) {data : T} (hvalid : BanData.isValid data = true)
    (now seconds : ℤ) (reason : List UInt8) (verbatimReason : Bool) :
    (this.ban pool data now seconds reason verbatimReason).1.Holds
      (Bans.ban this.localhostIpV4 this.localhostIpV6 data
        (banInfo now seconds reason verbatimReason) bans) := by
  simp only [ban, Bans.ban]
  by_cases hlocal : Bannable.netMatch data this.localhostIpV4 || Bannable.netMatch data this.localhostIpV6
  · rw [if_pos hlocal, if_pos hlocal]
    exact h
  · have hfind := h.find hvalid
    rw [if_neg hlocal, if_neg hlocal, ← hfind]
    cases hp : pool.find data (BanData.netHash data) with
    | some p => exact h.update hvalid hp _
    | none =>
      rw [hp] at hfind
      have hnew : ∀ ban ∈ bans, BanData.same ban.1 data = false := fun ban hban => by
        simpa using List.find?_eq_none.1 hfind.symm ban hban
      have hadd := h.add LawfulBanData.symm data (banInfo now seconds reason verbatimReason) hnew
      cases hres : pool.add data (banInfo now seconds reason verbatimReason) (BanData.netHash data) with
      | mk banPool ban =>
        rw [hres] at hadd
        cases ban <;> exact hadd

lemma unban_holds (h : pool.Holds bans) {data : T} (hvalid : BanData.isValid data = true) :
    (unban pool data).1.Holds (dropSame data bans) := by
  have hfind := h.find hvalid
  rw [unban]
  cases hp : pool.find data (BanData.netHash data) with
  | some p => exact h.remove hvalid hp
  | none =>
    rw [hp] at hfind
    have hkeep : dropSame data bans = bans := List.filter_eq_self.2 fun ban hban => by
      simpa using List.find?_eq_none.1 hfind.symm ban hban
    rw [hkeep]
    exact h

omit [LawfulBanData T] in
/-- The loop of `Update` removes the bans that have expired, which are the first ones. -/
lemma updateLoop_holds (now : ℤ) {fuel : ℕ} (h : pool.Holds bans) (hfuel : bans.length ≤ fuel) :
    (updateLoop now fuel pool).Holds (Bans.expire now bans) := by
  induction fuel generalizing pool bans with
  | zero =>
    obtain rfl := List.length_eq_zero_iff.1 (Nat.le_zero.1 hfuel)
    exact h
  | succ fuel ih =>
    obtain ⟨us, fs, hinv, rfl⟩ := h
    rw [updateLoop, show pool.firstUsed = us.head? from hinv.used.head]
    cases us with
    | nil => exact ⟨[], fs, hinv, rfl⟩
    | cons first us =>
      simp only [List.head?_cons]
      have hsorted := (List.pairwise_cons.1 hinv.sorted).1
      by_cases hexpired : expired now (pool.info first) = true
      · rw [if_pos hexpired]
        obtain ⟨hinv', hentries⟩ := remove_spec (show PoolInv pool ([] ++ first :: us) fs from hinv)
        have hexpire : Bans.expire now (pool.entries (first :: us)) =
            Bans.expire now (pool.entries ([] ++ us)) :=
          List.filter_cons_of_neg (by simp [hexpired])
        rw [hexpire]
        refine ih ⟨_, _, hinv', hentries⟩ ?_
        rw [entries, List.length_map] at hfuel ⊢
        rw [List.length_cons] at hfuel
        exact Nat.le_of_succ_le_succ hfuel
      · rw [if_neg hexpired]
        have hkeep : Bans.expire now (pool.entries (first :: us)) = pool.entries (first :: us) := by
          refine List.filter_eq_self.2 fun ban hban => ?_
          obtain ⟨p, hp, rfl⟩ := List.mem_map.1 hban
          rw [Bool.not_eq_true', ← Bool.not_eq_true]
          rcases List.mem_cons.1 hp with rfl | hp
          · exact hexpired
          · have hbefore := hsorted p hp
            simp only [expired, Bool.and_eq_true, bne_iff_ne, decide_eq_true_eq, not_and, not_lt,
              expiresBefore] at hexpired hbefore ⊢
            intro hnever
            rcases hbefore with heq | ⟨hne, hle⟩
            · exact absurd heq hnever
            · exact (hexpired hne).trans hle
        rw [hkeep]
        exact ⟨_, _, hinv, rfl⟩

end Pool

/-! ### Every operation does what it is meant to do -/

section Step

variable {this : CNetBan} {l4 l6 : NETADDR} {bans : Bans}

lemma unbanByIndex_models (h : this.Models l4 l6 bans) (now index : ℤ) :
    (this.unbanByIndex index).1.Models l4 l6 (bans.step l4 l6 now (.unbanByIndex index)) := by
  have haddr := h.addrs.get index
  have hrange := h.ranges.get (index - this.banAddrPool.countUsed)
  have hcount := h.addrs.countUsed
  simp only [Bans.step]
  rw [unbanByIndex]
  cases hget : this.banAddrPool.get index with
  | some p =>
    rw [hget] at haddr
    rw [if_neg (by omega), if_pos haddr.2.1]
    exact ⟨haddr.2.2, h.ranges, h.valid, h.localhostIpV4, h.localhostIpV6⟩
  | none =>
    rw [hget] at haddr
    rw [hcount] at hrange ⊢
    cases hget' : this.banRangePool.get (index - bans.addrs.length) with
    | some p =>
      rw [hget'] at hrange
      rw [if_neg (by omega), if_neg (by omega)]
      refine ⟨h.addrs, hrange.2.2, fun ban hban => h.valid ban ?_, h.localhostIpV4, h.localhostIpV6⟩
      exact (List.eraseIdx_sublist _ _).subset hban
    | none =>
      rw [hget'] at hrange
      by_cases hneg : index < 0
      · rw [if_pos hneg]
        exact h
      · have hkeep : bans.ranges.eraseIdx (index - bans.addrs.length).toNat = bans.ranges :=
          List.eraseIdx_of_length_le (by omega)
        rw [if_neg hneg, if_neg (by omega), hkeep]
        exact h

lemma step_models (h : this.Models l4 l6 bans) (now : ℤ) (op : BanOp) :
    (this.step now op).Models l4 l6 (bans.step l4 l6 now op) := by
  have hvalid : ∀ ban ∈ (bans.step l4 l6 now op).ranges, ban.1.isValid = true := by
    have hop : Bans.OpForall (fun _ => True) (fun range => range.isValid = true) op := by
      cases op <;> simp [Bans.OpForall]
    exact (Bans.step_forall l4 l6 now ⟨fun _ _ => trivial, h.valid⟩ hop).ranges
  obtain ⟨haddrs, hranges, hvalids, rfl, rfl⟩ := h
  cases op with
  | banAddr addr seconds reason verbatimReason =>
    exact ⟨ban_holds this haddrs rfl now seconds reason verbatimReason, hranges, hvalid, rfl, rfl⟩
  | banRange range seconds reason =>
    simp only [step, banRange, Bans.step] at hvalid ⊢
    by_cases hrange : range.isValid = true
    · rw [if_pos hrange] at hvalid
      rw [if_pos hrange, if_pos hrange]
      exact ⟨haddrs, ban_holds this hranges hrange now seconds reason false, hvalid, rfl, rfl⟩
    · rw [if_neg hrange, if_neg hrange]
      exact ⟨haddrs, hranges, hvalids, rfl, rfl⟩
  | unbanByAddr addr => exact ⟨unban_holds haddrs rfl, hranges, hvalid, rfl, rfl⟩
  | unbanByRange range =>
    simp only [step, unbanByRange, Bans.step] at hvalid ⊢
    by_cases hrange : range.isValid = true
    · rw [if_pos hrange] at hvalid
      rw [if_pos hrange, if_pos hrange]
      exact ⟨haddrs, unban_holds hranges hrange, hvalid, rfl, rfl⟩
    · rw [if_neg hrange, if_neg hrange]
      exact ⟨haddrs, hranges, hvalids, rfl, rfl⟩
  | unbanByIndex index => exact unbanByIndex_models ⟨haddrs, hranges, hvalids, rfl, rfl⟩ now index
  | unbanAll => exact ⟨holds_reset _, holds_reset _, hvalid, rfl, rfl⟩
  | update =>
    exact ⟨updateLoop_holds now haddrs haddrs.length_le, updateLoop_holds now hranges hranges.length_le,
      hvalid, rfl, rfl⟩

lemma run_models (ops : List (ℤ × BanOp)) (h : this.Models l4 l6 bans) :
    (run ops this).Models l4 l6 (Bans.run l4 l6 ops bans) := by
  induction ops generalizing this bans with
  | nil => exact h
  | cons op ops ih => exact ih (step_models h op.1 op.2)

lemma init_models (l4 l6 : NETADDR) : (init l4 l6).Models l4 l6 ⟨[], []⟩ :=
  ⟨holds_reset _, holds_reset _, by simp, rfl, rfl⟩

end Step

/-! ### Who is banned -/

lemma makeHashArray_length (addr : NETADDR) :
    makeHashArray addr (hashArrayLength addr) = BanData.netHash addr := by
  show _ = CNetHash.ofAddr addr
  rw [makeHashArray, hashArrayLength, CNetHash.ofAddr]
  split_ifs <;> simp_all

lemma rangeLoop_iff (this : CNetBan) {us fs : List BanPtr} (h : PoolInv this.banRangePool us fs)
    (addr : NETADDR) (length : ℕ) (n : ℕ) : this.rangeLoop addr length n = true ↔
      ∃ i < n, ∃ p ∈ us, this.banRangePool.netHash p = makeHashArray addr i ∧
        (this.banRangePool.data p).netMatchFrom addr i length = true := by
  induction n with
  | zero => simp [rangeLoop]
  | succ n ih =>
    have hloop := hashLoop_spec h (fun range => range.netMatchFrom addr n length) (makeHashArray addr n)
    rw [rangeLoop]
    cases hres : this.banRangePool.hashLoop (fun range => range.netMatchFrom addr n length) maxBans
        (this.banRangePool.hashList (makeHashArray addr n)) with
    | some p =>
      rw [hres] at hloop
      exact iff_of_true rfl ⟨n, n.lt_succ_self, p, hloop⟩
    | none =>
      rw [hres] at hloop
      dsimp only
      rw [ih]
      constructor
      · rintro ⟨i, hi, hp⟩
        exact ⟨i, hi.trans n.lt_succ_self, hp⟩
      · rintro ⟨i, hi, p, hp, hhash, hmatch⟩
        rcases Nat.lt_succ_iff_lt_or_eq.1 hi with hi | rfl
        · exact ⟨i, hi, p, hp, hhash, hmatch⟩
        · rw [hloop p hp hhash] at hmatch
          exact Bool.noConfusion hmatch

/-- `IsBanned` looks through the bans that are stored, with the type they are stored with. -/
lemma isBanned_models {this : CNetBan} {l4 l6 : NETADDR} {bans : Bans} (h : this.Models l4 l6 bans)
    (addr : NETADDR) : this.isBanned addr = true ↔
      (∃ ban ∈ bans.addrs, BanData.same ban.1 (plainAddr addr) = true) ∨
        ∃ ban ∈ bans.ranges, ban.1.Contains (plainAddr addr) := by
  have hfind := h.addrs.find (show BanData.isValid (plainAddr addr) = true from rfl)
  simp only [isBanned]
  rw [makeHashArray_length]
  cases hp : this.banAddrPool.find (plainAddr addr) (BanData.netHash (plainAddr addr)) with
  | some p =>
    rw [hp] at hfind
    refine iff_of_true rfl (.inl ⟨_, List.mem_of_find?_eq_some hfind.symm, ?_⟩)
    have hsame := List.find?_some hfind.symm
    exact hsame
  | none =>
    rw [hp] at hfind
    have hnone : ¬∃ ban ∈ bans.addrs, BanData.same ban.1 (plainAddr addr) = true := by
      rintro ⟨ban, hban, hsame⟩
      exact List.find?_eq_none.1 hfind.symm ban hban hsame
    rw [or_iff_right hnone]
    obtain ⟨us, fs, hinv, hentries⟩ := h.ranges
    dsimp only
    rw [rangeLoop_iff this hinv]
    have hvalid : ∀ p ∈ us, (this.banRangePool.data p).isValid = true := by
      intro p hp
      have hban : (this.banRangePool.data p, this.banRangePool.info p) ∈ bans.ranges := by
        rw [← hentries]
        exact List.mem_map_of_mem hp
      exact h.valid _ hban
    rw [← hentries]
    constructor
    · rintro ⟨i, hi, p, hp, hhash, hmatch⟩
      rw [hinv.netHash p hp] at hhash
      exact ⟨_, List.mem_map_of_mem hp, (CNetRange.contains_iff (hvalid p hp)).2 ⟨i, hi, hhash, hmatch⟩⟩
    · rintro ⟨ban, hban, hcontains⟩
      obtain ⟨p, hp, rfl⟩ := List.mem_map.1 hban
      obtain ⟨i, hi, hhash, hmatch⟩ := (CNetRange.contains_iff (hvalid p hp)).1 hcontains
      exact ⟨i, hi, p, hp, (hinv.netHash p hp).trans hhash, hmatch⟩

/-- The address is not one of a websocket. -/
def NotWebsocket (addr : NETADDR) : Prop := addr.type ≠ nettypeWebsocketIpv4

instance : DecidablePred NotWebsocket := fun _ => inferInstanceAs (Decidable (_ ≠ _))

/-- The operation bans no websocket address. -/
def OpNotWebsocket : BanOp → Prop := Bans.OpForall NotWebsocket fun range => NotWebsocket range.lb

lemma run_notWebsocket (l4 l6 : NETADDR) (ops : List (ℤ × BanOp)) (bans : Bans)
    (h : bans.Forall NotWebsocket fun range => NotWebsocket range.lb)
    (hops : ∀ op ∈ ops, OpNotWebsocket op.2) :
    (Bans.run l4 l6 ops bans).Forall NotWebsocket fun range => NotWebsocket range.lb := by
  induction ops generalizing bans with
  | nil => exact h
  | cons op ops ih =>
    rw [List.forall_mem_cons] at hops
    exact ih _ (Bans.step_forall l4 l6 op.1 h hops.1) hops.2

lemma plainAddr_of_notWebsocket {addr : NETADDR} (h : NotWebsocket addr) : plainAddr addr = addr :=
  if_neg h

/-- As long as no websocket address is banned, an address is banned if and only if an active ban is
meant for it. -/
theorem isBanned_iff (l4 l6 : NETADDR) (ops : List (ℤ × BanOp))
    (hops : ∀ op ∈ ops, OpNotWebsocket op.2) (addr : NETADDR) :
    (run ops (init l4 l6)).isBanned addr = true ↔ (Bans.run l4 l6 ops ⟨[], []⟩).Covers addr := by
  have hmodels := run_models ops (init_models l4 l6)
  have hplain := run_notWebsocket l4 l6 ops ⟨[], []⟩ ⟨by simp, by simp⟩ hops
  rw [isBanned_models hmodels, Bans.Covers]
  refine or_congr (exists_congr fun ban => and_congr_right fun hban => ?_)
    (exists_congr fun ban => and_congr_right fun hban => ?_)
  · rw [plainAddr_of_notWebsocket (hplain.addrs ban hban)]
  · have htype := (CNetRange.isValid_iff.1 (hmodels.valid ban hban)).1
    have hlb := hplain.ranges ban hban
    have hub : NotWebsocket ban.1.ub := by
      rw [NotWebsocket, ← htype]
      exact hlb
    rw [plainAddr_of_notWebsocket hlb, plainAddr_of_notWebsocket hub]

/-- An address with an ip of four bytes. -/
def addrOf (type : UInt32) (a b c d : UInt8) (port : UInt16) : NETADDR :=
  ⟨type, #v[a, b, c, d, 0, 0, 0, 0, 0, 0, 0, 0, 0, 0, 0, 0], port⟩

/-- A range with no common byte, and an address of a websocket in it. -/
theorem isBanned_range_of_all :
    (run [(5, .banRange ⟨addrOf 1 1 0 0 0 0, addrOf 1 9 255 0 0 0⟩ 60 [])]
      (init (addrOf 1 127 0 0 1 0) zeroAddr)).isBanned (addrOf 8 9 254 7 7 8303) = true := by
  refine (isBanned_iff _ _ _ ?_ _).2 (.inr ⟨_, List.mem_singleton.2 rfl, by decide⟩)
  intro op hop
  rw [List.mem_singleton] at hop
  subst hop
  intro _
  decide

/-- The ban of a websocket address has no effect. -/
theorem websocket_ban_ignored : ¬∀ (ops : List (ℤ × BanOp)) (addr : NETADDR),
    (run ops (init (addrOf 1 127 0 0 1 0) zeroAddr)).isBanned addr = true ↔
      (Bans.run (addrOf 1 127 0 0 1 0) zeroAddr ops ⟨[], []⟩).Covers addr := by
  intro h
  set addr := addrOf 8 10 0 0 1 8303
  set ops := [((5 : ℤ), BanOp.banAddr addr 60 [] false)]
  have hmodels := run_models ops (init_models (addrOf 1 127 0 0 1 0) zeroAddr)
  have hcovers : (Bans.run (addrOf 1 127 0 0 1 0) zeroAddr ops ⟨[], []⟩).Covers addr :=
    .inl ⟨_, List.mem_singleton.2 rfl, by decide⟩
  rcases (isBanned_models hmodels addr).1 ((h ops addr).2 hcovers) with ⟨ban, hban, hsame⟩ | ⟨ban, hban, -⟩
  · rw [show ban = _ from List.mem_singleton.1 hban] at hsame
    exact absurd hsame (by decide)
  · exact List.not_mem_nil hban

end CNetBan

end DDNet
