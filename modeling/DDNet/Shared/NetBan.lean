/-
The ban list (`CNetBan`, `engine/shared/netban.cpp` and `netban.h`).

Addresses and ranges are banned in two pools of bans that hash their data: an address by all of
its bytes, and a range by the common prefix of its two ends, so that `IsBanned` has to look into
one list for each prefix of an address.  The texts for the console are left out.

`Bans` is the ban list as it is meant: two lists of bans, in the order in which they expire.
-/
import DDNet.Base.Str
import DDNet.Shared.BanPool

namespace DDNet

open CBanPool

/-! ### Addresses and ranges -/

/-- The sum of some bytes of an ip. -/
def byteSum (bytes : List UInt8) : ℕ := (bytes.map UInt8.toNat).sum

/-- `CNetHash(const NETADDR *)`. -/
def CNetHash.ofAddr (addr : NETADDR) : CNetHash where
  hash :=
    if addr.type = nettypeIpv4 then byteSum (addr.ip.toList.take 4) &&& 0xFF
    else byteSum (addr.ip.toList.take 16) &&& 0xFF
  hashIndex := 0

/-- `CNetRange`. -/
structure CNetRange where
  lb : NETADDR
  ub : NETADDR
deriving DecidableEq

/-- `IsValid`. -/
def CNetRange.isValid (range : CNetRange) : Bool :=
  range.lb.type == range.ub.type && netComp range.lb range.ub == .lt

/-- The first bytes that two ips have in common. -/
def commonPrefix : List UInt8 → List UInt8 → List UInt8
  | a :: as, b :: bs => if a = b then a :: commonPrefix as bs else []
  | _, _ => []

/-- `CNetHash(const CNetRange *)`. -/
def CNetHash.ofRange (range : CNetRange) : CNetHash :=
  let common := commonPrefix range.lb.ip.toList range.ub.ip.toList
  { hash := byteSum common &&& 0xFF, hashIndex := common.length }

/-- `Length` of `MakeHashArray`. -/
def hashArrayLength (addr : NETADDR) : ℕ := if addr.type = nettypeIpv4 then 4 else 16

/-- The entry `i` of the array of `MakeHashArray`. -/
def makeHashArray (addr : NETADDR) (i : ℕ) : CNetHash :=
  if i = 0 then ⟨0, 0⟩
  else ⟨byteSum (addr.ip.toList.take i) &&& 0xFF, i % hashArrayLength addr⟩

/-- `NetMatch` of a range and an address from the byte `start` on. -/
def CNetRange.netMatchFrom (range : CNetRange) (addr : NETADDR) (start length : ℕ) : Bool :=
  let part (a : NETADDR) := (a.ip.toList.drop start).take (length - start)
  range.lb.type == addr.type &&
    (start == 0 || memComp (range.lb.ip.toList.take start) (addr.ip.toList.take start) == .eq) &&
    memComp (part range.lb) (part addr) != .gt && memComp (part range.ub) (part addr) != .lt

/-- `NetMatch` of a range and an address. -/
def CNetRange.netMatch (range : CNetRange) (addr : NETADDR) : Bool :=
  range.netMatchFrom addr 0 (if range.lb.type = nettypeIpv4 then 4 else 16)

/-- What `Ban` needs of its data besides: `NetMatch` with an address. -/
class Bannable (T : Type*) extends BanData T where
  netMatch : T → NETADDR → Bool

instance : Bannable NETADDR where
  same addr₁ addr₂ := netComp addr₁ addr₂ == .eq
  netHash := CNetHash.ofAddr
  isValid _ := true
  netMatch addr₁ addr₂ := netComp addr₁ addr₂ == .eq

instance : Bannable CNetRange where
  same range₁ range₂ :=
    !(netComp range₁.lb range₂.lb != .eq || netComp range₁.ub range₂.ub != .eq)
  netHash := CNetHash.ofRange
  isValid := CNetRange.isValid
  netMatch := CNetRange.netMatch

/-! ### The operations -/

/-- `REASON_LENGTH`. -/
def reasonLength : ℕ := 128

/-- `CNetBan`. -/
structure CNetBan where
  banAddrPool : CBanPool NETADDR
  banRangePool : CBanPool CNetRange
  localhostIpV4 : NETADDR
  localhostIpV6 : NETADDR

namespace CNetBan

/-- An address after `mem_zero`. -/
def zeroAddr : NETADDR := ⟨0, Vector.replicate 16 0, 0⟩

/-- `Init`, with the addresses that `net_host_lookup` has for the local host. -/
def init (localhostIpV4 localhostIpV6 : NETADDR) : CNetBan where
  banAddrPool := CBanPool.reset zeroAddr
  banRangePool := CBanPool.reset ⟨zeroAddr, zeroAddr⟩
  localhostIpV4 := localhostIpV4
  localhostIpV6 := localhostIpV6

/-- The information that `Ban` stores. -/
def banInfo (now seconds : ℤ) (reason : List UInt8) (verbatimReason : Bool) : CBanInfo where
  expires := if seconds > 0 then now + seconds else expiresNever
  reason := strCopy reasonLength reason
  verbatimReason := verbatimReason

section Pool

variable {T : Type*} [Bannable T]

/-- `Ban`: the pool afterwards and the result. -/
def ban (this : CNetBan) (banPool : CBanPool T) (data : T) (now seconds : ℤ) (reason : List UInt8)
    (verbatimReason : Bool) : CBanPool T × ℤ :=
  -- do not ban localhost
  if Bannable.netMatch data this.localhostIpV4 || Bannable.netMatch data this.localhostIpV6 then
    (banPool, -1)
  else
    let info := banInfo now seconds reason verbatimReason
    let netHash := BanData.netHash data
    match banPool.find data netHash with
    | some ban => (banPool.update ban info, 1) -- adjust the ban
    | none =>
        match banPool.add data info netHash with
        | (banPool, some _) => (banPool, 0)
        | (banPool, none) => (banPool, -1)

/-- `Unban`: the pool afterwards and the result. -/
def unban (banPool : CBanPool T) (data : T) : CBanPool T × ℤ :=
  match banPool.find data (BanData.netHash data) with
  | some ban => (banPool.remove ban, 0)
  | none => (banPool, -1)

/-- The ban has expired. -/
def expired (now : ℤ) (info : CBanInfo) : Bool := info.expires != expiresNever && info.expires < now

/-- A loop of `Update`; `fuel` bounds the number of bans. -/
def updateLoop (now : ℤ) : ℕ → CBanPool T → CBanPool T
  | 0, banPool => banPool
  | fuel + 1, banPool =>
      match banPool.firstUsed with
      | some first =>
          if expired now (banPool.info first) then updateLoop now fuel (banPool.remove first) else banPool
      | none => banPool

end Pool

/-- `Update`. -/
def update (this : CNetBan) (now : ℤ) : CNetBan :=
  { this with
    banAddrPool := updateLoop now maxBans this.banAddrPool
    banRangePool := updateLoop now maxBans this.banRangePool }

/-- `BanAddr`. -/
def banAddr (this : CNetBan) (addr : NETADDR) (now seconds : ℤ) (reason : List UInt8)
    (verbatimReason : Bool) : CNetBan × ℤ :=
  let (pool, result) := this.ban this.banAddrPool addr now seconds reason verbatimReason
  ({ this with banAddrPool := pool }, result)

/-- `BanRange`. -/
def banRange (this : CNetBan) (range : CNetRange) (now seconds : ℤ) (reason : List UInt8) : CNetBan × ℤ :=
  if range.isValid then
    let (pool, result) := this.ban this.banRangePool range now seconds reason false
    ({ this with banRangePool := pool }, result)
  else
    (this, -1)

/-- `UnbanByAddr`. -/
def unbanByAddr (this : CNetBan) (addr : NETADDR) : CNetBan × ℤ :=
  let (pool, result) := unban this.banAddrPool addr
  ({ this with banAddrPool := pool }, result)

/-- `UnbanByRange`. -/
def unbanByRange (this : CNetBan) (range : CNetRange) : CNetBan × ℤ :=
  if range.isValid then
    let (pool, result) := unban this.banRangePool range
    ({ this with banRangePool := pool }, result)
  else
    (this, -1)

/-- `UnbanByIndex`. -/
def unbanByIndex (this : CNetBan) (index : ℤ) : CNetBan × ℤ :=
  match this.banAddrPool.get index with
  | some ban => ({ this with banAddrPool := this.banAddrPool.remove ban }, 0)
  | none =>
      match this.banRangePool.get (index - this.banAddrPool.countUsed) with
      | some banRange => ({ this with banRangePool := this.banRangePool.remove banRange }, 0)
      | none => (this, -1)

/-- `UnbanAll`. -/
def unbanAll (this : CNetBan) : CNetBan :=
  { this with
    banAddrPool := CBanPool.reset zeroAddr
    banRangePool := CBanPool.reset ⟨zeroAddr, zeroAddr⟩ }

/-- The loop of `IsBanned` over the hash lists of the ranges. -/
def rangeLoop (this : CNetBan) (addr : NETADDR) (length : ℕ) : ℕ → Bool
  | 0 => false
  | i + 1 =>
      match this.banRangePool.hashLoop (fun range => range.netMatchFrom addr i length) maxBans
          (this.banRangePool.hashList (makeHashArray addr i)) with
      | some _ => true
      | none => this.rangeLoop addr length i

/-- The address that `IsBanned` looks for. -/
def plainAddr (origAddr : NETADDR) : NETADDR :=
  if origAddr.type = nettypeWebsocketIpv4 then { origAddr with type := nettypeIpv4 } else origAddr

/-- `IsBanned`. -/
def isBanned (this : CNetBan) (origAddr : NETADDR) : Bool :=
  let addr := plainAddr origAddr
  let length := hashArrayLength addr
  -- check ban addresses
  match this.banAddrPool.find addr (makeHashArray addr length) with
  | some _ => true
  | none => this.rangeLoop addr length length -- check ban ranges

end CNetBan

/-! ### Equal data have the same hash -/

lemma same_addr_iff {addr₁ addr₂ : NETADDR} :
    BanData.same addr₁ addr₂ = true ↔ addr₁.type = addr₂.type ∧ addr₁.ipBytes = addr₂.ipBytes := by
  rw [← netComp_eq_iff]
  exact beq_iff_eq

lemma byteSum_ipBytes (addr : NETADDR) : (CNetHash.ofAddr addr).hash = byteSum addr.ipBytes &&& 0xFF := by
  rw [CNetHash.ofAddr, NETADDR.ipBytes, NETADDR.ipLength]
  split_ifs <;> rfl

instance : LawfulBanData NETADDR where
  refl addr := same_addr_iff.2 ⟨rfl, rfl⟩
  symm addr₁ addr₂ h := by
    rw [same_addr_iff] at h ⊢
    exact ⟨h.1.symm, h.2.symm⟩
  trans addr₁ addr₂ addr₃ h₁₂ h₂₃ := by
    rw [same_addr_iff] at h₁₂ h₂₃ ⊢
    exact ⟨h₁₂.1.trans h₂₃.1, h₁₂.2.trans h₂₃.2⟩
  netHash addr₁ addr₂ _ h := by
    rw [same_addr_iff] at h
    have hhash : (CNetHash.ofAddr addr₁).hash = (CNetHash.ofAddr addr₂).hash := by
      rw [byteSum_ipBytes, byteSum_ipBytes, h.2]
    show CNetHash.ofAddr addr₁ = CNetHash.ofAddr addr₂
    rw [CNetHash.mk.injEq]
    exact ⟨hhash, rfl⟩

lemma same_range_iff {range₁ range₂ : CNetRange} : BanData.same range₁ range₂ = true ↔
    BanData.same range₁.lb range₂.lb = true ∧ BanData.same range₁.ub range₂.ub = true := by
  simp [BanData.same]

lemma CNetRange.isValid_iff {range : CNetRange} : range.isValid = true ↔
    range.lb.type = range.ub.type ∧ memComp range.lb.ipBytes range.ub.ipBytes = .lt := by
  rw [CNetRange.isValid, Bool.and_eq_true, beq_iff_eq, beq_iff_eq]
  constructor
  · rintro ⟨htype, hcomp⟩
    exact ⟨htype, by rwa [netComp_of_type htype] at hcomp⟩
  · rintro ⟨htype, hcomp⟩
    exact ⟨htype, by rwa [netComp_of_type htype]⟩

/-- Only the bytes up to the first difference count. -/
lemma commonPrefix_take {as bs : List UInt8} {n : ℕ} (h : as.take n ≠ bs.take n) :
    commonPrefix (as.take n) (bs.take n) = commonPrefix as bs := by
  induction as generalizing bs n with
  | nil => simp [commonPrefix]
  | cons a as ih =>
    cases n with
    | zero => simp at h
    | succ n =>
      cases bs with
      | nil => simp [commonPrefix]
      | cons b bs =>
        rw [List.take_succ_cons, List.take_succ_cons, commonPrefix, commonPrefix]
        by_cases hab : a = b
        · subst hab
          rw [if_pos rfl, if_pos rfl, ih fun heq => h (by rw [List.take_succ_cons, List.take_succ_cons, heq])]
        · rw [if_neg hab, if_neg hab]

lemma CNetRange.ipBytes_ne {range : CNetRange} (h : range.isValid = true) :
    range.lb.ipBytes ≠ range.ub.ipBytes := by
  intro heq
  have hlt := (isValid_iff.1 h).2
  rw [heq, memComp_self] at hlt
  exact Ordering.noConfusion hlt

/-- The hash of a range comes from the bytes that count. -/
lemma CNetRange.commonPrefix_ipBytes {range : CNetRange} (h : range.isValid = true) :
    commonPrefix range.lb.ip.toList range.ub.ip.toList =
      commonPrefix range.lb.ipBytes range.ub.ipBytes := by
  have htype := (isValid_iff.1 h).1
  have hne := ipBytes_ne h
  rw [NETADDR.ipBytes, NETADDR.ipBytes, ← htype] at hne ⊢
  exact (commonPrefix_take hne).symm

lemma CNetRange.isValid_of_same {range₁ range₂ : CNetRange} (h : range₁.isValid = true)
    (hsame : BanData.same range₁ range₂ = true) : range₂.isValid = true := by
  obtain ⟨hlb, hub⟩ := same_range_iff.1 hsame
  rw [same_addr_iff] at hlb hub
  rw [isValid_iff] at h ⊢
  rw [← hlb.1, ← hub.1, ← hlb.2, ← hub.2]
  exact h

instance : LawfulBanData CNetRange where
  refl range := same_range_iff.2 ⟨LawfulBanData.refl _, LawfulBanData.refl _⟩
  symm range₁ range₂ h := by
    rw [same_range_iff] at h ⊢
    exact ⟨LawfulBanData.symm _ _ h.1, LawfulBanData.symm _ _ h.2⟩
  trans range₁ range₂ range₃ h₁₂ h₂₃ := by
    rw [same_range_iff] at h₁₂ h₂₃ ⊢
    exact ⟨LawfulBanData.trans _ _ _ h₁₂.1 h₂₃.1, LawfulBanData.trans _ _ _ h₁₂.2 h₂₃.2⟩
  netHash range₁ range₂ hvalid h := by
    have hvalid₂ := CNetRange.isValid_of_same hvalid h
    obtain ⟨hlb, hub⟩ := same_range_iff.1 h
    have hcommon : commonPrefix range₁.lb.ip.toList range₁.ub.ip.toList =
        commonPrefix range₂.lb.ip.toList range₂.ub.ip.toList := by
      rw [CNetRange.commonPrefix_ipBytes hvalid, CNetRange.commonPrefix_ipBytes hvalid₂,
        (same_addr_iff.1 hlb).2, (same_addr_iff.1 hub).2]
    show CNetHash.ofRange range₁ = CNetHash.ofRange range₂
    rw [CNetHash.ofRange, CNetHash.ofRange, hcommon]

end DDNet
