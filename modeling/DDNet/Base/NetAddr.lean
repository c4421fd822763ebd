/-
Network addresses (`NETADDR`, `base/types.h`) and their comparison as memory.
-/
import Mathlib.Data.List.Basic
import Mathlib.Data.List.Lex
import Mathlib.Tactic.NormNum

namespace DDNet

/-- `NETADDR`. -/
structure NETADDR where
  type : UInt32
  ip : Vector UInt8 16
  port : UInt16
deriving DecidableEq

/-- `NETTYPE_IPV4`. -/
def nettypeIpv4 : UInt32 := 1

/-- `NETTYPE_IPV6`. -/
def nettypeIpv6 : UInt32 := 2

/-- `NETTYPE_WEBSOCKET_IPV4`. -/
def nettypeWebsocketIpv4 : UInt32 := 8

/-- `mem_comp` of blocks of the same length: the order of the first bytes that differ. -/
def memComp : List UInt8 → List UInt8 → Ordering
  | a :: as, b :: bs => if a < b then .lt else if b < a then .gt else memComp as bs
  | _, _ => .eq

/-- The bytes of an `unsigned int` in memory. -/
def uintBytes (x : UInt32) : List UInt8 :=
  [x.toUInt8, (x >>> 8).toUInt8, (x >>> 16).toUInt8, (x >>> 24).toUInt8]

namespace NETADDR

/-- The memory of an address up to its port. -/
def bytes (addr : NETADDR) : List UInt8 := uintBytes addr.type ++ addr.ip.toList

/-- The number of bytes of an ip of this type. -/
def ipLength (type : UInt32) : ℕ := if type = nettypeIpv4 then 4 else 16

/-- The bytes of the ip that count. -/
def ipBytes (addr : NETADDR) : List UInt8 := addr.ip.toList.take (ipLength addr.type)

/-- An address with no flags: IPv4 with zeros behind its four bytes, or IPv6. -/
def Plain (addr : NETADDR) : Prop :=
  (addr.type = nettypeIpv4 ∧ addr.ip.toList.drop 4 = List.replicate 12 0) ∨ addr.type = nettypeIpv6

end NETADDR

/-- `NetComp` of two addresses. -/
def netComp (addr₁ addr₂ : NETADDR) : Ordering :=
  let size := if addr₁.type = nettypeIpv4 then 8 else 20
  memComp (addr₁.bytes.take size) (addr₂.bytes.take size)

/-! ### The order of memory -/

lemma memComp_cons_self (a : UInt8) (as bs : List UInt8) : memComp (a :: as) (a :: bs) = memComp as bs := by
  rw [memComp, if_neg (UInt8.lt_irrefl a), if_neg (UInt8.lt_irrefl a)]

lemma memComp_self (as : List UInt8) : memComp as as = .eq := by
  induction as with
  | nil => rfl
  | cons a as ih => rw [memComp_cons_self, ih]

lemma memComp_eq_iff {as bs : List UInt8} (h : as.length = bs.length) : memComp as bs = .eq ↔ as = bs := by
  constructor
  · intro hcomp
    induction as generalizing bs with
    | nil => exact (List.length_eq_zero_iff.1 h.symm).symm
    | cons a as ih =>
      cases bs with
      | nil => simp at h
      | cons b bs =>
        rw [memComp] at hcomp
        split_ifs at hcomp with hlt hgt
        obtain rfl : a = b := UInt8.le_antisymm (UInt8.not_lt.1 hgt) (UInt8.not_lt.1 hlt)
        rw [ih (by simpa using h) hcomp]
  · rintro rfl
    exact memComp_self as

/-- `mem_comp` is the lexicographic order of the bytes. -/
lemma memComp_ne_gt_iff {as bs : List UInt8} (h : as.length = bs.length) :
    memComp as bs ≠ .gt ↔ as ≤ bs := by
  induction as generalizing bs with
  | nil => simp [memComp]
  | cons a as ih =>
    cases bs with
    | nil => simp at h
    | cons b bs =>
      rw [memComp, List.cons_le_cons_iff]
      split_ifs with hlt hgt
      · simp [hlt]
      · simp [hlt, (UInt8.ne_of_lt hgt).symm]
      · obtain rfl : a = b := UInt8.le_antisymm (UInt8.not_lt.1 hgt) (UInt8.not_lt.1 hlt)
        simpa [hlt] using ih (by simpa using h)

lemma uintBytes_injective {x y : UInt32} (h : uintBytes x = uintBytes y) : x = y := by
  simp only [uintBytes, List.cons.injEq, and_true] at h
  obtain ⟨h0, h8, h16, h24⟩ := h
  have hbyte : ∀ k : UInt32, (x >>> k).toUInt8 = (y >>> k).toUInt8 →
      x.toNat >>> (k.toNat % 32) % 256 = y.toNat >>> (k.toNat % 32) % 256 := by
    intro k hk
    simpa using congrArg UInt8.toNat hk
  have h0' : x.toNat % 256 = y.toNat % 256 := by simpa using congrArg UInt8.toNat h0
  have h8' : x.toNat / 2 ^ 8 % 256 = y.toNat / 2 ^ 8 % 256 := by
    simpa [Nat.shiftRight_eq_div_pow] using hbyte 8 h8
  have h16' : x.toNat / 2 ^ 16 % 256 = y.toNat / 2 ^ 16 % 256 := by
    simpa [Nat.shiftRight_eq_div_pow] using hbyte 16 h16
  have h24' : x.toNat / 2 ^ 24 % 256 = y.toNat / 2 ^ 24 % 256 := by
    simpa [Nat.shiftRight_eq_div_pow] using hbyte 24 h24
  have hx := x.toNat_lt
  have hy := y.toNat_lt
  apply UInt32.toNat_inj.1
  omega

lemma length_uintBytes (x : UInt32) : (uintBytes x).length = 4 := rfl

lemma memComp_append_left (as bs cs : List UInt8) : memComp (as ++ bs) (as ++ cs) = memComp bs cs := by
  induction as with
  | nil => rfl
  | cons a as ih => rw [List.cons_append, List.cons_append, memComp_cons_self, ih]

lemma netComp_eq (addr₁ addr₂ : NETADDR) :
    netComp addr₁ addr₂ = memComp
      (uintBytes addr₁.type ++ addr₁.ip.toList.take (NETADDR.ipLength addr₁.type))
      (uintBytes addr₂.type ++ addr₂.ip.toList.take (NETADDR.ipLength addr₁.type)) := by
  have htake : ∀ (addr : NETADDR) (n : ℕ),
      addr.bytes.take (4 + n) = uintBytes addr.type ++ addr.ip.toList.take n := fun addr n => by
    rw [NETADDR.bytes, List.take_append, length_uintBytes, List.take_of_length_le (by
      rw [length_uintBytes]; omega), Nat.add_sub_cancel_left]
  have hsize : (if addr₁.type = nettypeIpv4 then 8 else 20) = 4 + NETADDR.ipLength addr₁.type := by
    rw [NETADDR.ipLength]
    split_ifs <;> rfl
  rw [netComp]
  simp only [hsize, htake]

/-- Addresses of one type compare as their ips do. -/
lemma netComp_of_type {addr₁ addr₂ : NETADDR} (h : addr₁.type = addr₂.type) :
    netComp addr₁ addr₂ = memComp addr₁.ipBytes addr₂.ipBytes := by
  rw [netComp_eq, NETADDR.ipBytes, NETADDR.ipBytes, ← h, memComp_append_left]

/-- Two addresses compare equal if type and ip are the same; the port does not count. -/
lemma netComp_eq_iff (addr₁ addr₂ : NETADDR) :
    netComp addr₁ addr₂ = .eq ↔ addr₁.type = addr₂.type ∧ addr₁.ipBytes = addr₂.ipBytes := by
  rw [netComp_eq, memComp_eq_iff (by simp [length_uintBytes]), NETADDR.ipBytes, NETADDR.ipBytes]
  constructor
  · intro heq
    obtain ⟨htype, hip⟩ := List.append_inj heq rfl
    have htype := uintBytes_injective htype
    refine ⟨htype, ?_⟩
    rw [← htype]
    exact hip
  · rintro ⟨htype, hip⟩
    rw [← htype] at hip ⊢
    rw [hip]

end DDNet
