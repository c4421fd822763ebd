/-
The common parts of the network protocol (`engine/shared/network.h`, `network.cpp`):
constants, security tokens, chunk headers and the comparison of sequence numbers.

Header fields are natural numbers and bytes are `UInt8`.  The shifts and masks that pack
several fields into a byte are kept as the source has them; that unpacking finds the fields
again is `CNetChunkHeader.unpack_pack`.
-/
import DDNet.Lib.Bits

namespace DDNet

open Lib

/-! ### Constants -/

/-- `NET_MAX_PACKETSIZE`. -/
def netMaxPacketsize : ℕ := 1400

/-- `NET_MAX_PAYLOAD`. -/
def netMaxPayload : ℕ := netMaxPacketsize - 6

/-- `NET_MAX_CHUNKHEADERSIZE`. -/
def netMaxChunkheadersize : ℕ := 3

/-- `NET_PACKETHEADERSIZE`. -/
def netPacketheadersize : ℕ := 3

/-- `NET_MAX_SEQUENCE`. -/
def netMaxSequence : ℕ := 1 <<< 10

/-- `NET_PACKETFLAG_UNUSED`. -/
def netPacketflagUnused : UInt8 := (1 : UInt8) <<< 0

/-- `NET_PACKETFLAG_CONTROL`. -/
def netPacketflagControl : UInt8 := (1 : UInt8) <<< 2

/-- `NET_PACKETFLAG_CONNLESS`. -/
def netPacketflagConnless : UInt8 := (1 : UInt8) <<< 3

/-- `NET_PACKETFLAG_RESEND`. -/
def netPacketflagResend : UInt8 := (1 : UInt8) <<< 4

/-- `NET_PACKETFLAG_COMPRESSION`. -/
def netPacketflagCompression : UInt8 := (1 : UInt8) <<< 5

/-- `NET_PACKETFLAG_EXTENDED`. -/
def netPacketflagExtended : UInt8 := (1 : UInt8) <<< 6

/-- `NET_CHUNKFLAG_VITAL`. -/
def netChunkflagVital : ℕ := 1

/-- `NET_CHUNKFLAG_RESEND`. -/
def netChunkflagResend : ℕ := 2

/-- `NET_CTRLMSG_KEEPALIVE`. -/
def netCtrlmsgKeepalive : UInt8 := 0

/-- `NET_CTRLMSG_CONNECT`. -/
def netCtrlmsgConnect : UInt8 := 1

/-- `NET_CTRLMSG_CONNECTACCEPT`. -/
def netCtrlmsgConnectaccept : UInt8 := 2

/-- `NET_CTRLMSG_ACCEPT`. -/
def netCtrlmsgAccept : UInt8 := 3

/-- `NET_CTRLMSG_CLOSE`. -/
def netCtrlmsgClose : UInt8 := 4

/-- `NET_CTRLMSG_TOKEN`. -/
def netCtrlmsgToken : UInt8 := 5

/-- `NET_CONN_BUFFERSIZE`. -/
def netConnBuffersize : ℕ := 1024 * 32

/-! ### Security tokens -/

/-- A `SECURITY_TOKEN`, a 32-bit integer. -/
abbrev SecurityToken := UInt32

/-- `NET_SECURITY_TOKEN_UNKNOWN`. -/
def netSecurityTokenUnknown : SecurityToken := 0xffffffff

/-- `NET_SECURITY_TOKEN_UNSUPPORTED`. -/
def netSecurityTokenUnsupported : SecurityToken := 0

/-- `sizeof(SECURITY_TOKEN)`. -/
def securityTokenSize : ℕ := 4

/-- `WriteSecurityToken`: the bytes written, highest first. -/
def writeSecurityToken (token : SecurityToken) : List UInt8 :=
  [UInt8.ofNat ((token.toNat >>> 24) &&& 0xff), UInt8.ofNat ((token.toNat >>> 16) &&& 0xff),
    UInt8.ofNat ((token.toNat >>> 8) &&& 0xff), UInt8.ofNat (token.toNat &&& 0xff)]

/-- `ToSecurityToken`: the token in the first four bytes of a buffer. -/
def toSecurityToken (data : List UInt8) : SecurityToken :=
  UInt32.ofNat (((data.getD 0 0).toNat <<< 24) ||| ((data.getD 1 0).toNat <<< 16) |||
    ((data.getD 2 0).toNat <<< 8) ||| (data.getD 3 0).toNat)

@[simp] lemma length_writeSecurityToken (token : SecurityToken) :
    (writeSecurityToken token).length = securityTokenSize := rfl

/-- A token is read back from the bytes it was written to. -/
lemma toSecurityToken_write (token : SecurityToken) (rest : List UInt8) :
    toSecurityToken (writeSecurityToken token ++ rest) = token := by
  have hlt : token.toNat < 2 ^ 32 := token.toNat_lt
  have hread : toSecurityToken (writeSecurityToken token ++ rest) =
      UInt32.ofNat (((token.toNat / 2 ^ 24 % 256) <<< 24) ||| ((token.toNat / 2 ^ 16 % 256) <<< 16) |||
        ((token.toNat / 2 ^ 8 % 256) <<< 8) ||| (token.toNat % 256)) := by
    simp only [toSecurityToken, writeSecurityToken, List.cons_append, List.getD_cons_zero,
      List.getD_cons_succ, toNat_ofNat_and, Nat.shiftRight_eq_div_pow]
  have h16 : (token.toNat / 2 ^ 16 % 256) <<< 16 < 2 ^ 24 := by
    rw [Nat.shiftLeft_eq]
    omega
  have h8 : (token.toNat / 2 ^ 8 % 256) <<< 8 < 2 ^ 16 := by
    rw [Nat.shiftLeft_eq]
    omega
  have hval : ((token.toNat / 2 ^ 24 % 256) <<< 24) ||| ((token.toNat / 2 ^ 16 % 256) <<< 16) |||
      ((token.toNat / 2 ^ 8 % 256) <<< 8) ||| (token.toNat % 256) = token.toNat := by
    rw [Nat.or_assoc, Nat.or_assoc, shiftLeft_or (k := 8) (by omega),
      shiftLeft_or (k := 16) (by rw [Nat.shiftLeft_eq] at h8; omega),
      shiftLeft_or (k := 24) (by omega)]
    omega
  rw [hread, hval]
  exact UInt32.ofNat_toNat

/-! ### Chunk headers -/

/-- `CNetChunkHeader`. -/
structure CNetChunkHeader where
  flags : ℕ
  size : ℕ
  /-- `-1` for a chunk that is not vital. -/
  sequence : ℤ
deriving DecidableEq, Inhabited

namespace CNetChunkHeader

/-- `(1 << Split) - 1`. -/
def lowMask (split : ℕ) : ℕ := (1 <<< split) - 1

/-- `~((1 << Split) - 1)`, as far as it meets a byte. -/
def highMask (split : ℕ) : ℕ := 2 ^ 8 - 2 ^ split

/-- `Flags & NET_CHUNKFLAG_VITAL`. -/
def isVital (flags : ℕ) : Bool := flags &&& netChunkflagVital ≠ 0

/-- `CNetChunkHeader::Pack`: the bytes of the header. -/
def pack (header : CNetChunkHeader) (split : ℕ) : List UInt8 :=
  let b0 := ((header.flags &&& 3) <<< 6) ||| ((header.size >>> split) &&& 0x3f)
  let b1 := header.size &&& lowMask split
  if isVital header.flags then
    [UInt8.ofNat b0, UInt8.ofNat (b1 ||| ((header.sequence.toNat >>> 2) &&& highMask split)),
      UInt8.ofNat (header.sequence.toNat &&& 0xff)]
  else [UInt8.ofNat b0, UInt8.ofNat b1]

/-- `CNetChunkHeader::Unpack`: the header and the data after it; `none` if the header ends
behind the data. -/
def unpack (split : ℕ) : List UInt8 → Option (CNetChunkHeader × List UInt8)
  | b0 :: b1 :: data =>
      let flags := (b0.toNat >>> 6) &&& 3
      let size := ((b0.toNat &&& 0x3f) <<< split) ||| (b1.toNat &&& lowMask split)
      if isVital flags then
        match data with
        | b2 :: data => some (⟨flags, size, (((b1.toNat &&& highMask split) <<< 2) ||| b2.toNat : ℕ)⟩, data)
        | [] => none
      else some (⟨flags, size, -1⟩, data)
  | _ => none

/-- What `Unpack` finds: a sequence number only in vital chunks. -/
def visible (header : CNetChunkHeader) : CNetChunkHeader :=
  { header with sequence := if isVital header.flags then header.sequence else -1 }

/-- The header fields fit their bits. -/
structure Fits (header : CNetChunkHeader) (split : ℕ) : Prop where
  flags : header.flags < 4
  size : header.size < 2 ^ (6 + split)
  sequence : isVital header.flags → 0 ≤ header.sequence ∧ header.sequence < netMaxSequence

lemma lowMask_eq (split : ℕ) : lowMask split = 2 ^ split - 1 := by
  rw [lowMask, Nat.one_shiftLeft]

lemma length_pack_le (header : CNetChunkHeader) (split : ℕ) :
    (header.pack split).length ≤ netMaxChunkheadersize := by
  rw [pack]
  split_ifs <;> simp [netMaxChunkheadersize]

/-- Byte 0 of a header: two bits of flags over six bits of the size. -/
lemma byte0_eq {flags size split : ℕ} (hflags : flags < 4) (hsize : size < 2 ^ (6 + split)) :
    (UInt8.ofNat (((flags &&& 3) <<< 6) ||| ((size >>> split) &&& 0x3f))).toNat =
      2 ^ 6 * flags + size / 2 ^ split := by
  have hhigh : size / 2 ^ split < 2 ^ 6 := by
    rw [Nat.div_lt_iff_lt_mul (by positivity), ← pow_add]
    exact hsize
  have h3 : flags &&& 3 = flags := by
    rw [show (3 : ℕ) = 2 ^ 2 - 1 from rfl, and_mask]
    omega
  have h3f : (size >>> split) &&& 0x3f = size / 2 ^ split := by
    rw [show (0x3f : ℕ) = 2 ^ 6 - 1 from rfl, and_mask, Nat.shiftRight_eq_div_pow, Nat.mod_eq_of_lt hhigh]
  rw [h3, h3f, shiftLeft_or hhigh, toNat_ofNat_of_lt (by omega)]

/-- The size is read back from the two parts it is split into. -/
lemma size_eq (flags : ℕ) {size split : ℕ} (hsize : size < 2 ^ (6 + split)) (low : ℕ)
    (hlow : low % 2 ^ split = size % 2 ^ split) :
    (((2 ^ 6 * flags + size / 2 ^ split) &&& 0x3f) <<< split) ||| (low &&& lowMask split) = size := by
  have hhigh : size / 2 ^ split < 2 ^ 6 := by
    rw [Nat.div_lt_iff_lt_mul (by positivity), ← pow_add]
    exact hsize
  rw [lowMask_eq, and_mask, hlow, show (0x3f : ℕ) = 2 ^ 6 - 1 from rfl, and_mask, Nat.mul_add_mod,
    Nat.mod_eq_of_lt hhigh, shiftLeft_or (Nat.mod_lt _ (by positivity))]
  exact Nat.div_add_mod _ _

/-- The flags are read back from byte 0. -/
lemma flags_eq {flags high : ℕ} (hflags : flags < 4) (hhigh : high < 2 ^ 6) :
    ((2 ^ 6 * flags + high) >>> 6) &&& 3 = flags := by
  rw [show (3 : ℕ) = 2 ^ 2 - 1 from rfl, and_mask, Nat.shiftRight_eq_div_pow]
  omega

/-- Byte 1 of a vital chunk: high bits of the sequence number over the low bits of the size. -/
lemma byte1_eq {size sequence split : ℕ} (hsplit : split ≤ 8) (hseq : sequence < netMaxSequence) :
    (UInt8.ofNat ((size &&& lowMask split) ||| ((sequence >>> 2) &&& highMask split))).toNat =
      2 ^ split * (sequence / 4 / 2 ^ split) + size % 2 ^ split := by
  have hseq' : sequence / 4 < 2 ^ 8 := by
    rw [netMaxSequence] at hseq
    omega
  have hand : (sequence >>> 2) &&& highMask split = 2 ^ split * (sequence / 4 / 2 ^ split) := by
    rw [Nat.shiftRight_eq_div_pow, highMask, and_high_mask hseq' hsplit, Nat.mul_comm]
  have hlow : size % 2 ^ split < 2 ^ split := Nat.mod_lt _ (by positivity)
  have hlt : 2 ^ split * (sequence / 4 / 2 ^ split) + size % 2 ^ split < 256 := by
    have hpow : 2 ^ 8 = 2 ^ split * 2 ^ (8 - split) := by rw [← pow_add, Nat.add_sub_cancel' hsplit]
    have hdiv : sequence / 4 / 2 ^ split < 2 ^ (8 - split) := by
      rw [Nat.div_lt_iff_lt_mul (by positivity), Nat.mul_comm, ← hpow]
      exact hseq'
    have hmul : 2 ^ split * (sequence / 4 / 2 ^ split + 1) ≤ 2 ^ split * 2 ^ (8 - split) :=
      Nat.mul_le_mul_left _ hdiv
    rw [Nat.mul_add, Nat.mul_one] at hmul
    omega
  rw [lowMask_eq, and_mask, hand, or_mul_pow hlow, toNat_ofNat_of_lt hlt]

/-- The sequence number is read back from bytes 1 and 2, in which some of its bits occur
twice when `split` is below 6. -/
lemma sequence_eq {sequence split : ℕ} (hsplit : split ≤ 6) (hseq : sequence < netMaxSequence) (low : ℕ)
    (hlow : low < 2 ^ split) :
    (((2 ^ split * (sequence / 4 / 2 ^ split) + low) &&& highMask split) <<< 2) |||
      (sequence % 256) = sequence := by
  rw [netMaxSequence] at hseq
  have hdiv : (2 ^ split * (sequence / 4 / 2 ^ split) + low) / 2 ^ split * 2 ^ split =
      sequence / 4 / 2 ^ split * 2 ^ split := by
    rw [Nat.mul_add_div (by positivity), Nat.div_eq_of_lt hlow, Nat.add_zero]
  have hlt : 2 ^ split * (sequence / 4 / 2 ^ split) + low < 2 ^ 8 := by
    have h8 : sequence / 4 < 256 := by omega
    interval_cases split <;> omega
  rw [highMask, and_high_mask hlt (by omega), hdiv]
  -- bits 2 to 7 of the number may come from both bytes; they agree
  apply Nat.eq_of_testBit_eq
  intro i
  have hshape : sequence / 4 / 2 ^ split * 2 ^ split = (sequence / 2 ^ (2 + split)) * 2 ^ split := by
    rw [pow_add, Nat.div_div_eq_div_mul, show (2 : ℕ) ^ 2 = 4 from rfl]
  rw [hshape, show (256 : ℕ) = 2 ^ 8 from rfl, Nat.testBit_or, Nat.testBit_shiftLeft,
    Nat.testBit_mul_two_pow, Nat.testBit_mod_two_pow, Nat.testBit_div_two_pow]
  by_cases h2 : 2 ≤ i
  · by_cases hs : split ≤ i - 2
    · have hi : i - 2 - split + (2 + split) = i := by omega
      rw [hi]
      cases sequence.testBit i <;> simp [h2, hs]
    · have h8 : i < 8 := by omega
      simp [hs, h8]
  · have h8 : i < 8 := by omega
    simp [h2, h8]

/-- Unpacking finds the header that was packed, and the data after it. -/
theorem unpack_pack {header : CNetChunkHeader} {split : ℕ} (h : header.Fits split) (hsplit : split ≤ 6)
    (data : List UInt8) : unpack split (header.pack split ++ data) = some (header.visible, data) := by
  obtain ⟨hflags, hsize, hseq⟩ := h
  have hhigh : header.size / 2 ^ split < 2 ^ 6 := by
    rw [Nat.div_lt_iff_lt_mul (by positivity), ← pow_add]
    exact hsize
  have h0 := byte0_eq hflags hsize
  by_cases hvital : isVital header.flags
  · obtain ⟨hpos, hlt⟩ := hseq hvital
    have hlt' : header.sequence.toNat < netMaxSequence := by omega
    have h1 := @byte1_eq header.size _ split (by omega) hlt'
    have hlow : header.size % 2 ^ split < 2 ^ split := Nat.mod_lt _ (by positivity)
    have h2 := toNat_ofNat_and header.sequence.toNat
    have hsz := size_eq header.flags hsize
      (2 ^ split * (header.sequence.toNat / 4 / 2 ^ split) + header.size % 2 ^ split)
      (by rw [Nat.mul_add_mod, Nat.mod_mod])
    rw [pack, if_pos hvital, List.cons_append, List.cons_append, List.cons_append, List.nil_append, unpack]
    simp only [h0, h1, h2, flags_eq hflags hhigh, hvital, if_true, hsz, sequence_eq hsplit hlt' _ hlow]
    rw [visible, if_pos hvital, Int.toNat_of_nonneg hpos]
  · have h1 : (UInt8.ofNat (header.size &&& lowMask split)).toNat = header.size % 2 ^ split := by
      have hpow : 2 ^ split ≤ 2 ^ 6 := Nat.pow_le_pow_right (by norm_num) hsplit
      have hlow : header.size % 2 ^ split < 2 ^ split := Nat.mod_lt _ (by positivity)
      rw [lowMask_eq, and_mask, toNat_ofNat_of_lt (by omega)]
    have hsz := size_eq header.flags hsize (header.size % 2 ^ split) (Nat.mod_mod _ _)
    rw [pack, if_neg hvital, List.cons_append, List.cons_append, List.nil_append]
    simp only [unpack, h0, h1, flags_eq hflags hhigh, hvital, hsz, if_false, Bool.false_eq_true]
    rw [visible, if_neg hvital]

end CNetChunkHeader

/-! ### Sequence numbers -/

/-- `CNetBase::IsSeqInBackroom`. -/
def isSeqInBackroom (seq ack : ℤ) : Bool :=
  let bottom := ack - (netMaxSequence / 2 : ℕ)
  if bottom < 0 then seq ≤ ack || seq ≥ bottom + netMaxSequence
  else seq ≤ ack && seq ≥ bottom

/-- A sequence number is in the backroom when it is at most half of the numbers behind. -/
lemma isSeqInBackroom_iff {seq ack : ℤ} (hseq : 0 ≤ seq ∧ seq < netMaxSequence)
    (hack : 0 ≤ ack ∧ ack < netMaxSequence) :
    isSeqInBackroom seq ack = true ↔ (ack - seq) % netMaxSequence ≤ netMaxSequence / 2 := by
  have hmax : netMaxSequence = 1024 := rfl
  simp only [isSeqInBackroom, hmax] at hseq hack ⊢
  by_cases hbottom : ack - ((1024 / 2 : ℕ) : ℤ) < 0
  · simp only [hbottom, if_true, Bool.or_eq_true, decide_eq_true_eq]
    omega
  · simp only [hbottom, if_false, Bool.and_eq_true, decide_eq_true_eq]
    omega

end DDNet
