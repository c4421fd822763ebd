/-
Packets on the wire (`CNetBase::SendPacket`, `CNetBase::UnpackPacket`).

A packet is sent in one of three forms: 0.6 without a security token, 0.6 with a token that
is appended to the payload, and sixup (0.7) with the token in a longer header and with other
flag bits.  The payload may be compressed.  `unpackPacket_sendPacket` shows that unpacking
finds the packet again in all three forms.
-/
import DDNet.Shared.HuffmanRoundTrip
import DDNet.Shared.Network

namespace DDNet

open Lib CHuffman

/-- `CNetPacketConstruct`; `chunkData` is the part of `m_aChunkData` that `m_DataSize`
counts. -/
structure CNetPacketConstruct where
  flags : UInt8
  ack : ℕ
  numChunks : ℕ
  chunkData : List UInt8
  extraData : List UInt8
deriving DecidableEq

namespace CNetPacketConstruct

/-- `m_DataSize`. -/
def dataSize (packet : CNetPacketConstruct) : ℕ := packet.chunkData.length

/-- `m_Flags & Flag`. -/
def hasFlag (flags flag : UInt8) : Bool := flags &&& flag ≠ 0

end CNetPacketConstruct

open CNetPacketConstruct

namespace CNetBase

/-- `ms_Huffman`, as `CNetBase::Init` leaves it. -/
def msHuffman : CHuffman.Nodes := constructTree defaultFrequencies

/-- The flag bits of a sixup packet. -/
def sixupFlags (flags : UInt8) : UInt8 :=
  (if hasFlag flags netPacketflagControl then 1 else 0) |||
    (if hasFlag flags netPacketflagResend then 2 else 0) |||
    (if hasFlag flags netPacketflagCompression then 4 else 0)

/-- The flags that the bits of a sixup packet stand for. -/
def flagsOfSixup (flags : UInt8) : UInt8 :=
  (if hasFlag flags 1 then netPacketflagControl else 0) |||
    (if hasFlag flags 2 then netPacketflagResend else 0) |||
    (if hasFlag flags 4 then netPacketflagCompression else 0)

/-- The first three bytes of a packet. -/
def packetHeader (flags : UInt8) (ack numChunks : ℕ) : List UInt8 :=
  [((flags <<< 2) &&& (0xfc : UInt8)) ||| UInt8.ofNat ((ack >>> 8) &&& 0x3), UInt8.ofNat (ack &&& 0xff),
    UInt8.ofNat numChunks]

/-- The payload as it is sent: compressed if the compression was enabled, successful and
good enough. -/
def packBody (data : List UInt8) (headerSize : ℕ) (noCompress : Bool) : Bool × List UInt8 :=
  let compressed := compress msHuffman data (netMaxPacketsize - headerSize)
  if !noCompress && compressed.2 && 0 < compressed.1.length && compressed.1.length < data.length then
    (true, compressed.1)
  else (false, data)

/-- `SendPacket`: the datagram that is sent. -/
def sendPacket (packet : CNetPacketConstruct) (securityToken : SecurityToken) (sixup noCompress : Bool) :
    List UInt8 :=
  let headerSize := netPacketheadersize + if sixup then securityTokenSize else 0
  -- append security token
  let data := if !sixup && securityToken ≠ netSecurityTokenUnsupported
    then packet.chunkData ++ writeSecurityToken securityToken else packet.chunkData
  let (good, body) := packBody data headerSize noCompress
  let flags := if good then packet.flags ||| netPacketflagCompression
    else packet.flags &&& ~~~netPacketflagCompression
  packetHeader (if sixup then sixupFlags flags else flags) packet.ack packet.numChunks ++
    (if sixup then writeSecurityToken securityToken else []) ++ body

/-- What `UnpackPacket` returns: the packet, the variant it found, and the tokens it stores
through its pointers. -/
structure Unpacked where
  packet : CNetPacketConstruct
  sixup : Bool
  securityToken : Option SecurityToken
  responseToken : Option SecurityToken
deriving DecidableEq

/-- `NET_HEADER_EXTENDED`. -/
def netHeaderExtended : List UInt8 := [0x78, 0x65]

/-- The connectionless branch of `UnpackPacket`. -/
def unpackConnless (buffer : List UInt8) (wantsTokens : Bool) : Option Unpacked :=
  let sixup : Bool := buffer.getD 0 0 &&& 0x3 = 1
  if sixup && !wantsTokens then none
  else
    let offset := if sixup then 9 else 6
    if buffer.length < offset then none
    else
      let extended := !sixup && buffer.take 2 = netHeaderExtended
      let flags := if extended then netPacketflagConnless ||| netPacketflagExtended
        else netPacketflagConnless
      some {
        packet := ⟨flags, 0, 0, buffer.drop offset, if extended then (buffer.drop 2).take 4 else []⟩
        sixup := sixup
        securityToken := if sixup then some (toSecurityToken (buffer.drop 1)) else none
        responseToken := if sixup then some (toSecurityToken (buffer.drop 5)) else none }

/-- The response token of a control message. -/
def responseTokenOf (flags : UInt8) (data : List UInt8) : Option SecurityToken :=
  if hasFlag flags netPacketflagControl && 5 ≤ data.length &&
      (data.getD 0 0 = netCtrlmsgConnect || data.getD 0 0 = netCtrlmsgToken) then
    some (toSecurityToken (data.drop 1))
  else none

/-- The other branch of `UnpackPacket`. -/
def unpackConn (buffer : List UInt8) (sixup wantsToken : Bool) : Option Unpacked :=
  let flags := buffer.getD 0 0 >>> 2
  let sixup := sixup || hasFlag flags netPacketflagUnused
  if sixup && !wantsToken then none
  else
    let dataStart := if sixup then 7 else netPacketheadersize
    if buffer.length < dataStart then none
    else
      let ack := (((buffer.getD 0 0).toNat &&& 0x3) <<< 8) ||| (buffer.getD 1 0).toNat
      let numChunks := (buffer.getD 2 0).toNat
      let flags := if sixup then flagsOfSixup flags else flags
      let body := buffer.drop dataStart
      let data := if hasFlag flags netPacketflagCompression then
          -- Don't allow compressed control packets.
          if hasFlag flags netPacketflagControl then none
          else decompress msHuffman body netMaxPayload
        else some body
      data.map fun data =>
        { packet := ⟨flags, ack, numChunks, data, []⟩
          sixup := sixup
          securityToken := if sixup then some (toSecurityToken (buffer.drop 3)) else none
          responseToken := responseTokenOf flags data }

/-- `UnpackPacket`; `none` for `-1`.  `sixup` is the variant that the caller knows of, and
the last two arguments say whether it gives the pointers for the tokens. -/
def unpackPacket (buffer : List UInt8) (sixup wantsToken wantsResponse : Bool) : Option Unpacked :=
  if buffer.length < netPacketheadersize || buffer.length > netMaxPacketsize then none
  else if hasFlag (buffer.getD 0 0 >>> 2) netPacketflagConnless then
    unpackConnless buffer (wantsToken && wantsResponse)
  else unpackConn buffer sixup wantsToken

/-! ### The header -/

/-- The flags of a packet that is not connectionless. -/
def packetFlags (control resend : Bool) : UInt8 :=
  (if control then netPacketflagControl else 0) ||| (if resend then netPacketflagResend else 0)

/-- The flags as they are sent: with the compression flag, and in the bits of the variant. -/
def wireFlags (sixup control resend compression : Bool) : UInt8 :=
  let flags := packetFlags control resend ||| if compression then netPacketflagCompression else 0
  if sixup then sixupFlags flags else flags

/-- Six bits of flags and two bits of a number fit the first byte. -/
lemma header_byte (sixup control resend compression : Bool) {high : ℕ} (h : high < 4) :
    let b := ((wireFlags sixup control resend compression <<< 2) &&& (0xfc : UInt8)) ||| UInt8.ofNat (high &&& 0x3)
    b >>> 2 = wireFlags sixup control resend compression ∧ b.toNat &&& 0x3 = high := by
  interval_cases high <;> revert sixup control resend compression <;> decide

/-- The first byte of the header of a packet. -/
lemma packetHeader_read (sixup control resend compression : Bool) {ack numChunks : ℕ}
    (hack : ack < netMaxSequence) (hnum : numChunks < 256) (rest : List UInt8) :
    let buffer := packetHeader (wireFlags sixup control resend compression) ack numChunks ++ rest
    buffer.getD 0 0 >>> 2 = wireFlags sixup control resend compression ∧
      (((buffer.getD 0 0).toNat &&& 0x3) <<< 8) ||| (buffer.getD 1 0).toNat = ack ∧
      (buffer.getD 2 0).toNat = numChunks := by
  have hmax : netMaxSequence = 1024 := rfl
  have hhigh : ack >>> 8 < 4 := by
    rw [Nat.shiftRight_eq_div_pow]
    omega
  obtain ⟨hflags, hbits⟩ := header_byte sixup control resend compression hhigh
  simp only [packetHeader, List.cons_append, List.getD_cons_zero, List.getD_cons_succ] at hflags hbits ⊢
  refine ⟨hflags, ?_, toNat_ofNat_of_lt hnum⟩
  have hlow : ack % 256 < 2 ^ 8 := Nat.mod_lt _ (by norm_num)
  rw [hbits, toNat_ofNat_and, shiftLeft_or hlow, Nat.shiftRight_eq_div_pow]
  exact Nat.div_add_mod ack 256

/-- No form sends a packet that looks connectionless. -/
lemma wireFlags_not_connless (sixup control resend compression : Bool) :
    hasFlag (wireFlags sixup control resend compression) netPacketflagConnless = false := by
  revert sixup control resend compression
  decide

/-- The unused flag of 0.6 is the control flag of sixup. -/
lemma wireFlags_unused (sixup control resend compression : Bool) :
    hasFlag (wireFlags sixup control resend compression) netPacketflagUnused = (sixup && control) := by
  revert sixup control resend compression
  decide

lemma wireFlags_read (sixup control resend compression : Bool) :
    (if sixup then flagsOfSixup (wireFlags sixup control resend compression)
      else wireFlags sixup control resend compression) =
      packetFlags control resend ||| if compression then netPacketflagCompression else 0 := by
  revert sixup control resend compression
  decide

lemma hasFlag_compression (control resend compression : Bool) :
    hasFlag (packetFlags control resend ||| if compression then netPacketflagCompression else 0)
      netPacketflagCompression = compression := by
  revert control resend compression
  decide

lemma hasFlag_control (control resend compression : Bool) :
    hasFlag (packetFlags control resend ||| if compression then netPacketflagCompression else 0)
      netPacketflagControl = control := by
  revert control resend compression
  decide

lemma clear_compression (control resend compression : Bool) :
    (packetFlags control resend ||| if compression then netPacketflagCompression else 0) &&&
      ~~~netPacketflagCompression = packetFlags control resend := by
  revert control resend compression
  decide

/-! ### The three forms -/

/-- The forms in which a packet is sent. -/
inductive WireForm where
  /-- 0.6 without a security token. -/
  | plain
  /-- 0.6 with a security token behind the payload. -/
  | withToken (token : SecurityToken) (h : token ≠ netSecurityTokenUnsupported)
  /-- 0.7, with the token in the header. -/
  | sixup (token : SecurityToken)

namespace WireForm

/-- The token that `SendPacket` is given. -/
def securityToken : WireForm → SecurityToken
  | plain => netSecurityTokenUnsupported
  | withToken token _ => token
  | sixup token => token

/-- The variant that `SendPacket` is given. -/
def isSixup : WireForm → Bool
  | sixup _ => true
  | _ => false

/-- The room for the payload: `m_aChunkData` with the token appended, and what is left of
the datagram behind the longer header. -/
def room : WireForm → ℕ
  | plain => netMaxPayload
  | withToken _ _ => netMaxPayload - securityTokenSize
  | sixup _ => netMaxPacketsize - netPacketheadersize - securityTokenSize

/-- The payload as it arrives; `Feed` cuts an appended token off. -/
def received (form : WireForm) (payload : List UInt8) : List UInt8 :=
  match form with
  | withToken token _ => payload ++ writeSecurityToken token
  | _ => payload

/-- The token that the receiver finds with a packet whose payload has the given size. -/
def receivedToken (form : WireForm) (size : ℕ) (result : Unpacked) : Option SecurityToken :=
  match form with
  | plain => some netSecurityTokenUnsupported
  | withToken _ _ => some (toSecurityToken (result.packet.chunkData.drop size))
  | sixup _ => result.securityToken

/-- The bytes between the first three and the payload. -/
def tokenHeader : WireForm → List UInt8
  | sixup token => writeSecurityToken token
  | _ => []

/-- `HeaderSize`. -/
def headerSize (form : WireForm) : ℕ := netPacketheadersize + form.tokenHeader.length

lemma headerSize_lt (form : WireForm) : form.headerSize < netMaxPacketsize := by
  cases form <;> simp [headerSize, tokenHeader, netMaxPacketsize, netPacketheadersize, securityTokenSize]

lemma length_received (form : WireForm) {payload : List UInt8} (h : payload.length ≤ form.room) :
    form.headerSize + (form.received payload).length ≤ netMaxPacketsize := by
  cases form <;> simp only [headerSize, room, received, tokenHeader, netMaxPayload, netPacketheadersize,
    netMaxPacketsize, securityTokenSize, List.length_nil, List.length_append, length_writeSecurityToken]
    at h ⊢ <;> omega

lemma length_received_le (form : WireForm) {payload : List UInt8} (h : payload.length ≤ form.room) :
    (form.received payload).length ≤ netMaxPayload := by
  cases form <;> simp only [room, received, netMaxPayload, netPacketheadersize, netMaxPacketsize,
    securityTokenSize, List.length_append, length_writeSecurityToken] at h ⊢ <;> omega

end WireForm

/-- The payload is never longer than before, and read back if it is compressed. -/
lemma packBody_spec (data : List UInt8) {headerSize : ℕ} (h : headerSize < netMaxPacketsize)
    (noCompress : Bool) :
    (packBody data headerSize noCompress).2.length ≤ data.length ∧
      ((packBody data headerSize noCompress).1 = false → (packBody data headerSize noCompress).2 = data) ∧
      ((packBody data headerSize noCompress).1 = true → noCompress = false ∧ ∀ room, data.length ≤ room →
        decompress msHuffman (packBody data headerSize noCompress).2 room = some data) := by
  obtain ⟨-, hround⟩ := roundTrips_default data (netMaxPacketsize - headerSize) (by omega)
  rw [packBody]
  split_ifs with hgood
  · simp only [Bool.and_eq_true, Bool.not_eq_true', decide_eq_true_eq] at hgood
    obtain ⟨⟨⟨hno, hok⟩, -⟩, hlt⟩ := hgood
    exact ⟨hlt.le, by simp, fun _ => ⟨hno, hround hok⟩⟩
  · exact ⟨le_rfl, fun _ => rfl, by simp⟩

/-- What `SendPacket` sends: a header with the flags of the variant, a token if the header
has one, and the payload. -/
lemma sendPacket_eq (form : WireForm) {packet : CNetPacketConstruct} {control resend : Bool}
    (hflags : packet.flags = packetFlags control resend) (noCompress : Bool) :
    sendPacket packet form.securityToken form.isSixup noCompress =
      packetHeader (wireFlags form.isSixup control resend
        (packBody (form.received packet.chunkData) form.headerSize noCompress).1)
          packet.ack packet.numChunks ++
        (form.tokenHeader ++ (packBody (form.received packet.chunkData) form.headerSize noCompress).2) := by
  have hdata : (if !form.isSixup && form.securityToken ≠ netSecurityTokenUnsupported
      then packet.chunkData ++ writeSecurityToken form.securityToken else packet.chunkData) =
      form.received packet.chunkData := by
    cases form with
    | plain => rfl
    | withToken token h => simp [WireForm.isSixup, WireForm.securityToken, WireForm.received, h]
    | sixup token => rfl
  have htoken : (if form.isSixup then writeSecurityToken form.securityToken else []) =
      form.tokenHeader := by
    cases form <;> rfl
  have hheader : (netPacketheadersize + if form.isSixup then securityTokenSize else 0) =
      form.headerSize := by
    cases form <;> rfl
  have hclear : ∀ good : Bool, (if good then packetFlags control resend ||| netPacketflagCompression
      else packetFlags control resend &&& ~~~netPacketflagCompression) =
      packetFlags control resend ||| (if good then netPacketflagCompression else 0) := by
    clear hflags
    revert control resend
    decide
  rw [sendPacket]
  simp only [hdata, htoken, hheader, hflags, hclear, wireFlags, List.append_assoc]

/-- A packet that is not connectionless arrives as it was sent, in each of the three forms,
compressed or not; control packets are sent uncompressed.  The caller of `UnpackPacket` knows
the variant, or sees it from the flags of a control packet. -/
theorem unpackPacket_sendPacket (form : WireForm) (packet : CNetPacketConstruct)
    (control resend noCompress sixup : Bool)
    (hflags : packet.flags = packetFlags control resend) (hack : packet.ack < netMaxSequence)
    (hnum : packet.numChunks ≤ 255) (hsize : packet.dataSize ≤ form.room)
    (hcontrol : control = true → noCompress = true)
    (hsixup : sixup = form.isSixup ∨ control = true ∧ form.isSixup = true) :
    (sendPacket packet form.securityToken form.isSixup noCompress).length ≤ netMaxPacketsize ∧
      ∃ result, unpackPacket (sendPacket packet form.securityToken form.isSixup noCompress)
          sixup true true = some result ∧
        result.sixup = form.isSixup ∧
        result.packet.flags &&& ~~~netPacketflagCompression = packet.flags ∧
        result.packet.ack = packet.ack ∧
        result.packet.numChunks = packet.numChunks ∧
        result.packet.chunkData = form.received packet.chunkData ∧
        form.receivedToken packet.dataSize result = some form.securityToken := by
  have heq := sendPacket_eq form hflags noCompress
  obtain ⟨hlen, huncompressed, hcompressed⟩ :=
    packBody_spec (form.received packet.chunkData) form.headerSize_lt noCompress
  have hfits := form.length_received hsize
  rcases hbody : packBody (form.received packet.chunkData) form.headerSize noCompress with
    ⟨compression, body⟩
  rw [hbody] at heq hlen huncompressed hcompressed
  simp only at heq hlen huncompressed hcompressed
  obtain ⟨hbyte, hackread, hnumread⟩ := packetHeader_read form.isSixup control resend compression hack
    (Nat.lt_succ_of_le hnum) (form.tokenHeader ++ body)
  rw [heq]
  set buffer := packetHeader (wireFlags form.isSixup control resend compression) packet.ack
    packet.numChunks ++ (form.tokenHeader ++ body)
  have hlength : buffer.length = form.headerSize + body.length := by
    rw [List.length_append, List.length_append, ← Nat.add_assoc]
    rfl
  have hmax : buffer.length ≤ netMaxPacketsize := by omega
  refine ⟨hmax, ?_⟩
  have hvariant : (sixup || (form.isSixup && control)) = form.isSixup := by
    rcases hsixup with rfl | ⟨hc, hs⟩
    · cases form.isSixup <;> simp
    · simp [hc, hs]
  have hdrop : buffer.drop (if form.isSixup then 7 else netPacketheadersize) = body := by
    cases form <;> rfl
  have hstart : (if form.isSixup then 7 else netPacketheadersize) ≤ buffer.length := by
    have hheader : (if form.isSixup then 7 else netPacketheadersize) = form.headerSize := by
      cases form <;> rfl
    omega
  -- the payload, decompressed if need be
  have hpayload : (if compression then if control then none else decompress msHuffman body netMaxPayload
      else some body) = some (form.received packet.chunkData) := by
    cases compression with
    | false => simp [huncompressed rfl]
    | true =>
      obtain ⟨hno, hdec⟩ := hcompressed rfl
      have hnotcontrol : control = false := by
        cases control with
        | false => rfl
        | true => exact absurd (hcontrol rfl) (by simp [hno])
      simpa [hnotcontrol] using hdec netMaxPayload (form.length_received_le hsize)
  have hunpack : unpackPacket buffer sixup true true = some
      { packet := ⟨packetFlags control resend ||| if compression then netPacketflagCompression else 0,
          packet.ack, packet.numChunks, form.received packet.chunkData, []⟩
        sixup := form.isSixup
        securityToken := if form.isSixup then some (toSecurityToken (buffer.drop 3)) else none
        responseToken := responseTokenOf
          (packetFlags control resend ||| if compression then netPacketflagCompression else 0)
          (form.received packet.chunkData) } := by
    have hshort : (decide (buffer.length < netPacketheadersize) ||
        decide (buffer.length > netMaxPacketsize)) = false := by
      have hthree : netPacketheadersize ≤ form.headerSize := Nat.le_add_right _ _
      simp only [Bool.or_eq_false_iff, decide_eq_false_iff_not]
      omega
    rw [unpackPacket, hshort, if_neg (by simp), hbyte, wireFlags_not_connless, if_neg (by simp), unpackConn]
    simp only [hbyte, wireFlags_unused, hvariant, Bool.not_true, Bool.and_false, Bool.false_eq_true,
      if_false, if_neg (not_lt.2 hstart), hackread, hnumread, wireFlags_read, hasFlag_compression,
      hasFlag_control, hdrop, hpayload, Option.map_some]
  refine ⟨_, hunpack, rfl, ?_, rfl, rfl, rfl, ?_⟩
  · rw [hflags]
    exact clear_compression control resend compression
  · cases form with
    | plain => rfl
    | withToken token h =>
      have hread := toSecurityToken_write token []
      rw [List.append_nil] at hread
      simp only [WireForm.receivedToken, WireForm.received, WireForm.securityToken, dataSize,
        List.drop_left, hread]
    | sixup token => exact congrArg some (toSecurityToken_write token body)

/-- A resend request on a sixup connection. -/
theorem unpackPacket_sendPacket_resend :
    ∃ result, unpackPacket (sendPacket ⟨netPacketflagResend, 1000, 1, [0x40, 0x01, 0x05, 0x2a], []⟩
        0x12345678 true false) true true true = some result ∧
      result.packet.ack = 1000 ∧ result.packet.chunkData = [0x40, 0x01, 0x05, 0x2a] ∧
      result.securityToken = some 0x12345678 := by
  obtain ⟨-, result, hresult, -, -, hack, -, hdata, htoken⟩ := unpackPacket_sendPacket
    (.sixup 0x12345678) ⟨netPacketflagResend, 1000, 1, [0x40, 0x01, 0x05, 0x2a], []⟩ false true false true
    (by decide) (by decide) (by decide) (by decide) (by decide) (Or.inl rfl)
  exact ⟨result, hresult, hack, hdata, htoken⟩

/-- Ten codes of one bit and the end symbol fit five bytes.  (The node table is a variable
here, so that nothing computes the default one.) -/
lemma compress_zeros {nodes : CHuffman.Nodes} (hzero : numBits nodes 0 = 1)
    (heof : numBits nodes huffmanEofSymbol ≤ 22) (size : ℕ) (hsize : 5 ≤ size) :
    (compress nodes (List.replicate 10 0) size).2 = true ∧
      0 < (compress nodes (List.replicate 10 0) size).1.length ∧
      (compress nodes (List.replicate 10 0) size).1.length < 10 := by
  have hsum : ((symbolsOf (List.replicate 10 0)).map (numBits nodes)).sum ≤ 32 := by
    simp only [symbolsOf, List.replicate, List.map_cons, List.map_nil, List.cons_append, List.nil_append,
      List.sum_cons, List.sum_nil, UInt8.toNat_zero, hzero]
    omega
  obtain ⟨hok, hlen⟩ := compress_ok nodes (List.replicate 10 0) size (by omega) (by omega)
  exact ⟨hok, by omega, by omega⟩

lemma packBody_of_good {data : List UInt8} {headerSize : ℕ}
    (hok : (compress msHuffman data (netMaxPacketsize - headerSize)).2 = true)
    (hpos : 0 < (compress msHuffman data (netMaxPacketsize - headerSize)).1.length)
    (hlt : (compress msHuffman data (netMaxPacketsize - headerSize)).1.length < data.length) :
    (packBody data headerSize false).1 = true := by
  rw [packBody, if_pos]
  simp only [Bool.not_false, Bool.true_and, Bool.and_eq_true, decide_eq_true_eq]
  exact ⟨⟨hok, hpos⟩, hlt⟩

/-- Ten zero bytes are sent compressed. -/
lemma packBody_zeros : (packBody (List.replicate 10 0) netPacketheadersize false).1 = true := by
  obtain ⟨hok, hpos, hlt⟩ := compress_zeros numBits_default_zero (numBits_default_le (by decide))
    (netMaxPacketsize - netPacketheadersize)
    (by decide)
  exact packBody_of_good hok hpos (hlt.trans_eq List.length_replicate.symm)

/-- Compressed control packets are not accepted. -/
lemma unpackPacket_none {buffer : List UInt8} (h : buffer.getD 0 0 >>> 2 = wireFlags false true false true) :
    unpackPacket buffer false true true = none := by
  have hflags : hasFlag (wireFlags false true false true) netPacketflagCompression = true ∧
      hasFlag (wireFlags false true false true) netPacketflagControl = true := by decide
  have hconn : unpackConn buffer false true = none := by
    simp only [unpackConn, h, wireFlags_unused, Bool.false_and, Bool.or_false, Bool.false_eq_true, if_false,
      hflags.1, hflags.2, if_true, Option.map_none, ite_self]
  rw [unpackPacket, h, wireFlags_not_connless, hconn]
  simp

/-- A control packet whose payload is compressed is lost. -/
lemma unpackPacket_compressed {packet : CNetPacketConstruct} (hflags : packet.flags = packetFlags true false)
    (hack : packet.ack < netMaxSequence) (hnum : packet.numChunks < 256)
    (hgood : (packBody packet.chunkData netPacketheadersize false).1 = true) :
    unpackPacket (sendPacket packet netSecurityTokenUnsupported false false) false true true = none := by
  have heq := sendPacket_eq .plain hflags false
  have hplain : WireForm.plain.received packet.chunkData = packet.chunkData := rfl
  have hheader : WireForm.plain.headerSize = netPacketheadersize := rfl
  rw [hplain, hheader, hgood] at heq
  obtain ⟨hbyte, -, -⟩ := packetHeader_read false true false true hack hnum
    (WireForm.plain.tokenHeader ++ (packBody packet.chunkData netPacketheadersize false).2)
  refine unpackPacket_none ?_
  rw [← hbyte]
  exact congrArg (fun buffer : List UInt8 => buffer.getD 0 0 >>> 2) heq

/-- A control packet of ten zero bytes that `SendPacket` may compress is not unpacked. -/
theorem unpackPacket_compressed_control :
    unpackPacket (sendPacket ⟨netPacketflagControl, 0, 0, List.replicate 10 0, []⟩
      netSecurityTokenUnsupported false false) false true true = none :=
  unpackPacket_compressed (by decide) (by decide) (by decide) packBody_zeros

end CNetBase

end DDNet
