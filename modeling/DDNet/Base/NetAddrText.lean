/-
Addresses as text (`net_addr_str`, `net_addr_from_str` of `base/system.cpp`).
-/
import DDNet.Base.CompFilenames
import DDNet.Base.Confusables
import DDNet.Base.NetAddr
import DDNet.Base.StrParse
import DDNet.Lib.Bits
import DDNet.Lib.Ipv6Text

namespace DDNet

open Lib.Json (decimal integer)
open Lib.Ipv6Text (hexadecimal colon Represents)

namespace NetAddrText

/-! ### Writing -/

/-- `.` -/
def dot : UInt8 := 46

/-- `str_format` or `str_copy` behind what is in the buffer. -/
def append (bufferSize : ℕ) (buffer text : List UInt8) : List UInt8 :=
  buffer ++ strCopy (bufferSize - buffer.length) text

/-- The variables of the loop that looks for the longest sequence of zeros. -/
structure ZeroSeq where
  longestSeqLen : ℤ := 0
  longestSeqStart : ℤ := -1
  seqLen : ℤ := 0
  seqStart : ℤ := -1

/-- A round of the loop. -/
def zeroSeqStep (ip : Vector UInt16 8) (s : ZeroSeq) (i : ℕ) : ZeroSeq :=
  if s.seqStart ≠ -1 then
    if i = 8 ∨ ip.toList.getD i 0 ≠ 0 then
      if s.longestSeqLen < s.seqLen then
        { longestSeqLen := s.seqLen, longestSeqStart := s.seqStart, seqLen := 0, seqStart := -1 }
      else { s with seqLen := 0, seqStart := -1 }
    else { s with seqLen := s.seqLen + 1 }
  else if i ≠ 8 ∧ ip.toList.getD i 0 = 0 then { s with seqStart := i, seqLen := 1 }
  else s

/-- The length and the start of the longest sequence of zeros, if it is longer than one. -/
def longestZeroSeq (ip : Vector UInt16 8) : ℤ × ℤ :=
  let s := (List.range 9).foldl (zeroSeqStep ip) {}
  if s.longestSeqLen ≤ 1 then (0, -1) else (s.longestSeqLen, s.longestSeqStart)

/-- A round of the loop that writes the groups. -/
def writeGroup (ip : Vector UInt16 8) (longestSeqLen longestSeqStart : ℤ) (bufferSize : ℕ) (buffer : List UInt8)
    (i : ℕ) : List UInt8 :=
  if longestSeqStart ≤ i ∧ i < longestSeqStart + longestSeqLen then
    if (i : ℤ) = longestSeqStart then append bufferSize buffer [colon, colon] else buffer
  else
    let separator := if i = 0 ∨ (i : ℤ) = longestSeqStart + longestSeqLen then [] else [colon]
    append bufferSize buffer (separator ++ hexadecimal (ip.toList.getD i 0).toNat)

/-- `net_addr_str_v6`; the port is `none` for −1. -/
def netAddrStrV6 (ip : Vector UInt16 8) (port : Option UInt16) (bufferSize : ℕ) : List UInt8 :=
  let (longestSeqLen, longestSeqStart) := longestZeroSeq ip
  let buffer := append bufferSize [] [91]
  let buffer := (List.range 8).foldl (writeGroup ip longestSeqLen longestSeqStart bufferSize) buffer
  let buffer := append bufferSize buffer [93]
  match port with
  | some port => append bufferSize buffer (colon :: decimal port.toNat)
  | none => buffer

/-- The groups of an ip. -/
def ipGroups (ip : Vector UInt8 16) : Vector UInt16 8 :=
  Vector.ofFn fun i => ((ip.toList.getD (i * 2) 0).toUInt16 <<< 8) ||| (ip.toList.getD (i * 2 + 1) 0).toUInt16

/-- `%d.%d.%d.%d` -/
def dotted (a b c d : UInt8) : List UInt8 :=
  decimal a.toNat ++ dot :: (decimal b.toNat ++ dot :: (decimal c.toNat ++ dot :: decimal d.toNat))

/-- `net_addr_str`: what is returned, and the text. -/
def netAddrStr (addr : NETADDR) (maxLength : ℕ) (addPort : Bool) : Bool × List UInt8 :=
  if addr.type &&& nettypeIpv4 ≠ 0 ∨ addr.type &&& nettypeWebsocketIpv4 ≠ 0 then
    let ip := dotted addr.ip[0] addr.ip[1] addr.ip[2] addr.ip[3]
    (true, append maxLength [] (if addPort then ip ++ colon :: decimal addr.port.toNat else ip))
  else if addr.type &&& nettypeIpv6 ≠ 0 then
    (true, netAddrStrV6 (ipGroups addr.ip) (if addPort then some addr.port else none) maxLength)
  else (false, append maxLength [] (ofChars "unknown type ".toList ++ integer (toInt32 addr.type.toNat)))

/-! ### Reading -/

/-- Why a text is not read: it is no address, or a number in it is larger than an `int`, what happens then being
undefined. -/
inductive ParseFailure
  | invalid
  | overflow
deriving DecidableEq

/-- The largest `int`. -/
def maxInt : ℕ := 2 ^ 31 - 1

/-- The loop of `parse_int`. -/
def parseIntLoop (i : ℕ) : List UInt8 → Except ParseFailure (ℕ × List UInt8)
  | [] => .ok (i, [])
  | c :: str =>
    if strIsnum c then
      if maxInt < i * 10 + (c.toNat - 48) then .error .overflow else parseIntLoop (i * 10 + (c.toNat - 48)) str
    else .ok (i, c :: str)

/-- `parse_int`. -/
def parseInt : List UInt8 → Except ParseFailure (ℕ × List UInt8)
  | [] => .error .invalid
  | c :: str => if strIsnum c then parseIntLoop (c.toNat - 48) str else .error .invalid

/-- `parse_char`. -/
def parseChar (c : UInt8) : List UInt8 → Except ParseFailure (List UInt8)
  | [] => .error .invalid
  | c' :: str => if c' = c then .ok str else .error .invalid

/-- `parse_uint8` and `parse_uint16`: a number with an upper bound. -/
def parseUint (max : ℕ) (str : List UInt8) : Except ParseFailure (ℕ × List UInt8) :=
  (parseInt str).bind fun (i, str) => if max < i then .error .invalid else .ok (i, str)

/-- `parse_uint8`. -/
def parseUint8 : List UInt8 → Except ParseFailure (ℕ × List UInt8) := parseUint 0xff

/-- `parse_uint16`. -/
def parseUint16 : List UInt8 → Except ParseFailure (ℕ × List UInt8) := parseUint 0xffff

/-- The ip of an IPv4 address. -/
def ipv4 (a b c d : ℕ) : Vector UInt8 16 :=
  #v[UInt8.ofNat a, UInt8.ofNat b, UInt8.ofNat c, UInt8.ofNat d, 0, 0, 0, 0, 0, 0, 0, 0, 0, 0, 0, 0]

/-- The port behind a bracket. -/
def parsePortIpv6 : List UInt8 → Except ParseFailure ℕ
  | [] => .ok 0
  | c :: str => if c = colon then (parseUint16 str).map Prod.fst else .ok 0

/-- `net_addr_from_str` for a text with a bracket, behind the bracket. -/
def fromStrIpv6 (inetPton : List UInt8 → Option (Vector UInt8 16)) (str : List UInt8) : Except ParseFailure NETADDR :=
  let buf := (str.take 127).takeWhile (· ≠ 93)
  match inetPton buf, str.drop buf.length with
  | some ip, 93 :: str => (parsePortIpv6 str).map fun port => ⟨nettypeIpv6, ip, UInt16.ofNat port⟩
  | _, _ => .error .invalid

/-- The port behind an IPv4 address, and the end of the text. -/
def parsePortIpv4 : List UInt8 → Except ParseFailure ℕ
  | [] => .ok 0
  | c :: str =>
    if c = colon then (parseUint16 str).bind fun (port, str) => if str = [] then .ok port else .error .invalid
    else .error .invalid

/-- A number of an IPv4 address and the dot behind it. -/
def parseUint8Dot (str : List UInt8) : Except ParseFailure (ℕ × List UInt8) :=
  (parseUint8 str).bind fun (n, str) => (parseChar dot str).map fun str => (n, str)

/-- `net_addr_from_str` for a text without a bracket. -/
def fromStrIpv4 (str : List UInt8) : Except ParseFailure NETADDR :=
  (parseUint8Dot str).bind fun (a, str) => (parseUint8Dot str).bind fun (b, str) =>
  (parseUint8Dot str).bind fun (c, str) => (parseUint8 str).bind fun (d, str) =>
  (parsePortIpv4 str).map fun port => ⟨nettypeIpv4, ipv4 a b c d, UInt16.ofNat port⟩

/-- `net_addr_from_str`: the address, if it is not −1 that is returned. -/
def netAddrFromStr (inetPton : List UInt8 → Option (Vector UInt8 16)) : List UInt8 → Except ParseFailure NETADDR
  | [] => fromStrIpv4 []
  | c :: str => if c = 91 then fromStrIpv6 inetPton str else fromStrIpv4 (c :: str)

/-! ### The buffer -/

/-- Texts of ASCII characters. -/
def Ascii (text : List UInt8) : Prop := ∀ c ∈ text, c < 128

lemma strCopy_of_ascii {text : List UInt8} {size : ℕ} (hascii : Ascii text) (hlength : text.length < size) :
    strCopy size text = text := by
  rcases List.eq_nil_or_concat text with rfl | ⟨front, last, rfl⟩
  · rw [strCopy, List.take_nil]
    rfl
  · rw [List.concat_eq_append] at hascii hlength ⊢
    obtain ⟨after, hafter, hcopy⟩ := strCopy_ascii (hascii last (by simp)) hlength
    rw [hcopy, List.prefix_nil.1 hafter]

lemma append_of_ascii {bufferSize : ℕ} {buffer text : List UInt8} (hascii : Ascii text)
    (hlength : (buffer ++ text).length < bufferSize) : append bufferSize buffer text = buffer ++ text := by
  rw [List.length_append] at hlength
  rw [append, strCopy_of_ascii hascii (by omega)]

lemma append_nil (bufferSize : ℕ) (buffer : List UInt8) : append bufferSize buffer [] = buffer := by
  rw [append, strCopy, List.take_nil]
  exact List.append_nil buffer

lemma foldl_append_of_ascii {ι : Type} {bufferSize : ℕ} (piece : ι → List UInt8) (hascii : ∀ i, Ascii (piece i))
    (indices : List ι) (buffer : List UInt8) (hlength : (buffer ++ indices.flatMap piece).length < bufferSize) :
    indices.foldl (fun buffer i => append bufferSize buffer (piece i)) buffer = buffer ++ indices.flatMap piece := by
  induction indices generalizing buffer with
  | nil => simp
  | cons i indices ih =>
    rw [List.flatMap_cons, ← List.append_assoc] at hlength ⊢
    rw [List.foldl_cons, append_of_ascii (hascii i) (by rw [List.length_append] at hlength; omega), ih _ hlength]

/-! ### The longest sequence of zeros -/

/-- A sequence of groups that are zero. -/
def Zeros (ip : Vector UInt16 8) (start length : ℕ) : Prop :=
  start + length ≤ 8 ∧ ∀ i, start ≤ i → i < start + length → ip.toList.getD i 0 = 0

/-- What the loop knows after `k` rounds. -/
structure ZeroSeq.Holds (ip : Vector UInt16 8) (k : ℕ) (s : ZeroSeq) : Prop where
  current : s.seqStart = -1 ∨ ∃ start length : ℕ, s.seqStart = start ∧ s.seqLen = length ∧ start + length = k ∧
    Zeros ip start length
  longest : s.longestSeqLen ≤ 0 ∨ ∃ start length : ℕ, s.longestSeqStart = start ∧ s.longestSeqLen = length ∧
    Zeros ip start length

variable {ip : Vector UInt16 8}

lemma Zeros.snoc {start length : ℕ} (h : Zeros ip start length) (hlt : start + length < 8)
    (hzero : ip.toList.getD (start + length) 0 = 0) : Zeros ip start (length + 1) := by
  refine ⟨by omega, fun i hstart hi => ?_⟩
  rcases Nat.lt_or_eq_of_le (Nat.le_of_lt_succ (show i < (start + length).succ by omega)) with hlt | rfl
  · exact h.2 i hstart hlt
  · exact hzero

/-- A round of the loop. -/
lemma ZeroSeq.Holds.step {s : ZeroSeq} {k : ℕ} (h : s.Holds ip k) (hk : k ≤ 8) :
    (zeroSeqStep ip s k).Holds ip (k + 1) := by
  rw [zeroSeqStep]
  by_cases hstart : s.seqStart ≠ -1
  · rw [if_pos hstart]
    obtain ⟨start, length, hseqStart, hseqLen, hend, hzeros⟩ := h.current.resolve_left hstart
    by_cases hlast : k = 8 ∨ ip.toList.getD k 0 ≠ 0
    · rw [if_pos hlast]
      split_ifs with hlonger
      · exact ⟨.inl rfl, .inr ⟨start, length, hseqStart, hseqLen, hzeros⟩⟩
      · exact ⟨.inl rfl, h.longest⟩
    · rw [if_neg hlast]
      obtain ⟨hne, hzero⟩ := not_or.1 hlast
      rw [not_not, ← hend] at hzero
      refine ⟨.inr ⟨start, length + 1, hseqStart, ?_, by omega, hzeros.snoc (by omega) hzero⟩, h.longest⟩
      dsimp only
      rw [hseqLen]
      norm_cast
  · rw [if_neg hstart]
    split_ifs with hzero
    · refine ⟨.inr ⟨k, 1, rfl, rfl, rfl, by omega, fun i hi hlt => ?_⟩, h.longest⟩
      rw [show i = k by omega]
      exact hzero.2
    · exact ⟨.inl (not_not.1 hstart), h.longest⟩

lemma ZeroSeq.Holds.rounds {k : ℕ} (hk : k ≤ 9) : ((List.range k).foldl (zeroSeqStep ip) {}).Holds ip k := by
  induction k with
  | zero => exact ⟨.inl rfl, .inl le_rfl⟩
  | succ k ih =>
    rw [List.range_succ, List.foldl_append]
    exact (ih (by omega)).step (by omega)

/-- What is left out is a sequence of zeros. -/
lemma longestZeroSeq_spec (ip : Vector UInt16 8) :
    longestZeroSeq ip = (0, -1) ∨
      ∃ start length : ℕ, longestZeroSeq ip = ((length : ℤ), (start : ℤ)) ∧ 0 < length ∧ Zeros ip start length := by
  have h := @ZeroSeq.Holds.rounds ip 9 le_rfl
  rw [longestZeroSeq]
  split_ifs with hshort
  · exact .inl rfl
  · rcases h.longest with hle | ⟨start, length, hstart, hlength, hzeros⟩
    · omega
    · rw [hstart, hlength]
      refine .inr ⟨start, length, rfl, ?_, hzeros⟩
      omega

/-! ### The groups -/

/-- The text of a group of the ip. -/
def groupText (ip : Vector UInt16 8) (i : ℕ) : List UInt8 := hexadecimal (ip.toList.getD i 0).toNat

/-- What a round writes. -/
def piece (ip : Vector UInt16 8) (longestSeqLen longestSeqStart : ℤ) (i : ℕ) : List UInt8 :=
  if longestSeqStart ≤ i ∧ i < longestSeqStart + longestSeqLen then
    if (i : ℤ) = longestSeqStart then [colon, colon] else []
  else (if i = 0 ∨ (i : ℤ) = longestSeqStart + longestSeqLen then [] else [colon]) ++ groupText ip i

lemma writeGroup_eq (ip : Vector UInt16 8) (longestSeqLen longestSeqStart : ℤ) (bufferSize : ℕ) (buffer : List UInt8)
    (i : ℕ) :
    writeGroup ip longestSeqLen longestSeqStart bufferSize buffer i =
      append bufferSize buffer (piece ip longestSeqLen longestSeqStart i) := by
  rw [writeGroup, piece]
  split_ifs
  · rfl
  · exact (append_nil _ _).symm
  · rfl
  · rfl

/-- The characters of the text of an ip. -/
def IsIpChar (c : UInt8) : Prop := c < 128 ∧ c ≠ 93

lemma isIpChar_hexadecimal (n : ℕ) : ∀ c ∈ hexadecimal n, IsIpChar c := by
  rintro c hc
  have hsome := Lib.Ipv6Text.isSome_of_foldlM (Lib.Ipv6Text.hexValues_hexadecimal n) c hc
  constructor
  · by_contra hlarge
    rw [UInt8.not_lt, UInt8.le_iff_toNat_le] at hlarge
    have hnone : Lib.Json.hexValue c = none := by
      simp only [Lib.Json.hexValue, UInt8.le_iff_toNat_le]
      rw [if_neg, if_neg, if_neg]
      all_goals
        rintro ⟨-, hle⟩
        exact absurd (hlarge.trans hle) (by decide)
    rw [hnone] at hsome
    exact absurd hsome (by decide)
  · rintro rfl
    exact absurd hsome (by decide)

lemma isIpChar_piece (ip : Vector UInt16 8) (longestSeqLen longestSeqStart : ℤ) (i : ℕ) :
    ∀ c ∈ piece ip longestSeqLen longestSeqStart i, IsIpChar c := by
  have hcolon : IsIpChar colon := ⟨by decide, by decide⟩
  rw [piece]
  rintro c hc
  split_ifs at hc
  · simp only [List.mem_cons, List.not_mem_nil, or_false, or_self] at hc
    exact hc ▸ hcolon
  · exact absurd hc List.not_mem_nil
  · exact isIpChar_hexadecimal _ c hc
  · rcases List.mem_cons.1 hc with rfl | hc
    · exact hcolon
    · exact isIpChar_hexadecimal _ c hc

lemma length_groupText_le (ip : Vector UInt16 8) (i : ℕ) : (groupText ip i).length ≤ 4 :=
  Lib.Ipv6Text.length_hexadecimal_le (UInt16.toNat_lt _)

lemma length_piece_le (ip : Vector UInt16 8) (longestSeqLen longestSeqStart : ℤ) (i : ℕ) :
    (piece ip longestSeqLen longestSeqStart i).length ≤ if i = 0 then 4 else 5 := by
  have hgroup := length_groupText_le ip i
  rw [piece]
  by_cases hzero : i = 0
  · rw [if_pos hzero]
    split_ifs with _ _ hseparator
    · exact (by decide : 2 ≤ 4)
    · exact Nat.zero_le _
    · exact hgroup
    · exact absurd (.inl hzero) hseparator
  · rw [if_neg hzero]
    split_ifs
    · exact (by decide : 2 ≤ 5)
    · exact Nat.zero_le _
    · exact hgroup.trans (Nat.le_succ 4)
    · exact Nat.succ_le_succ hgroup

/-- The text of an ip. -/
def ipText (ip : Vector UInt16 8) : List UInt8 :=
  (List.range 8).flatMap (piece ip (longestZeroSeq ip).1 (longestZeroSeq ip).2)

lemma isIpChar_ipText (ip : Vector UInt16 8) : ∀ c ∈ ipText ip, IsIpChar c := by
  rintro c hc
  obtain ⟨i, -, hc⟩ := List.mem_flatMap.1 hc
  exact isIpChar_piece ip _ _ i c hc

lemma length_ipText_le (ip : Vector UInt16 8) : (ipText ip).length ≤ 39 := by
  rw [ipText]
  generalize (longestZeroSeq ip).1 = longestSeqLen
  generalize (longestZeroSeq ip).2 = longestSeqStart
  have hle : ∀ k, ((List.range (k + 1)).flatMap (piece ip longestSeqLen longestSeqStart)).length ≤ 4 + 5 * k := by
    intro k
    induction k with
    | zero =>
      have h := length_piece_le ip longestSeqLen longestSeqStart 0
      rw [if_pos rfl] at h
      exact (congrArg List.length (List.flatMap_singleton _ 0)).trans_le h
    | succ k ih =>
      have h := length_piece_le ip longestSeqLen longestSeqStart (k + 1)
      rw [if_neg (Nat.succ_ne_zero k)] at h
      rw [List.range_succ, List.flatMap_append, List.length_append, List.flatMap_singleton]
      omega
  exact hle 7

/-- Groups that start a row of them, and those behind it with their colons. -/
lemma flatMap_piece {longestSeqLen longestSeqStart : ℤ} (start n : ℕ)
    (hstart : start = 0 ∨ (start : ℤ) = longestSeqStart + longestSeqLen)
    (hother : ∀ i, start < i → i < start + n → (i : ℤ) ≠ longestSeqStart + longestSeqLen)
    (houtside : ∀ i : ℕ, start ≤ i → i < start + n → ¬(longestSeqStart ≤ i ∧ i < longestSeqStart + longestSeqLen)) :
    (List.range' start n).flatMap (piece ip longestSeqLen longestSeqStart) =
      Lib.Ipv6Text.join ((List.range' start n).map (groupText ip)) := by
  rcases n with _ | n
  · rfl
  · rw [List.range'_succ, List.flatMap_cons, List.map_cons, Lib.Ipv6Text.join_cons, piece,
      if_neg (houtside start le_rfl (by omega)), if_pos hstart, List.nil_append, List.flatMap_map]
    refine congrArg (groupText ip start ++ ·) (List.flatMap_congr fun i hi => ?_)
    obtain ⟨hlow, hhigh⟩ := List.mem_range'_1.1 hi
    rw [piece, if_neg (houtside i (by omega) (by omega)), if_neg]
    · rfl
    · rintro (h | h)
      · omega
      · exact hother i (by omega) (by omega) h

/-- The sequence of zeros is written as two colons. -/
lemma flatMap_piece_zeros {longestSeqLen longestSeqStart : ℤ} {start length : ℕ} (hstart : longestSeqStart = start)
    (hlength : longestSeqLen = length) (hpos : 0 < length) :
    (List.range' start length).flatMap (piece ip longestSeqLen longestSeqStart) = [colon, colon] := by
  obtain ⟨length, rfl⟩ := Nat.exists_eq_add_of_lt hpos
  rw [Nat.zero_add, List.range'_succ, List.flatMap_cons, piece, if_pos (by omega), if_pos hstart.symm]
  refine congrArg ([colon, colon] ++ ·) (List.flatMap_eq_nil_iff.2 fun i hi => ?_)
  obtain ⟨hlow, hhigh⟩ := List.mem_range'_1.1 hi
  rw [piece, if_pos (by omega), if_neg (by omega)]

/-- The groups of an ip as numbers. -/
def groups (ip : Vector UInt16 8) : List ℕ := ip.toList.map UInt16.toNat

lemma groups_eq (ip : Vector UInt16 8) : groups ip = (List.range' 0 8).map fun i => (ip.toList.getD i 0).toNat := by
  refine List.ext_getElem (by simp [groups]) fun i hi hi' => ?_
  have hlt : i < ip.toList.length := by simpa [groups] using hi
  rw [List.getElem_map, List.getElem_range', Nat.zero_add, Nat.one_mul, List.getD_eq_getElem _ _ hlt]
  simp [groups]

lemma isGroup_range' (ip : Vector UInt16 8) (start n : ℕ) :
    List.Forall₂ Lib.Ipv6Text.IsGroup ((List.range' start n).map (groupText ip))
      ((List.range' start n).map fun i => (ip.toList.getD i 0).toNat) := by
  have h := @Lib.Ipv6Text.forall₂_hexadecimal ((List.range' start n).map fun i => (ip.toList.getD i 0).toNat)
    (by
      rw [List.forall_mem_map]
      exact fun i _ => UInt16.toNat_lt _)
  rwa [List.map_map] at h

/-- The text of an ip stands for its groups. -/
lemma represents_ipText (ip : Vector UInt16 8) : Represents (ipText ip) (groups ip) := by
  rw [ipText, groups_eq, List.range_eq_range']
  rcases longestZeroSeq_spec ip with h | ⟨start, length, h, hpos, hfits, hzero⟩
  · rw [h]
    dsimp only
    rw [flatMap_piece 0 8 (.inl rfl) (by omega) (by omega)]
    exact .full (isGroup_range' ip 0 8) (by simp)
  · rw [h]
    dsimp only
    obtain ⟨rest, hrest⟩ := Nat.exists_eq_add_of_le hfits
    have hsplit : List.range' 0 8 = List.range' 0 start ++ (List.range' start length ++
        List.range' (start + length) rest) := by
      have h := List.range'_append_1 (s := 0) (m := start) (n := length + rest)
      rw [Nat.zero_add, ← Nat.add_assoc, ← hrest] at h
      rw [List.range'_append_1, h]
    rw [hsplit, List.flatMap_append, List.flatMap_append, flatMap_piece_zeros rfl rfl hpos,
      flatMap_piece 0 start (.inl rfl) (by omega) (by omega),
      flatMap_piece (start + length) rest (.inr (by omega)) (by omega) (by omega), List.map_append, List.map_append]
    have hreplicate : (List.range' start length).map (fun i => (ip.toList.getD i 0).toNat) =
        List.replicate length 0 := by
      refine List.eq_replicate_iff.2 ⟨by simp, ?_⟩
      rw [List.forall_mem_map]
      rintro i hi
      obtain ⟨hlow, hhigh⟩ := List.mem_range'_1.1 hi
      rw [hzero i hlow hhigh]
      rfl
    have hshort := Represents.short (isGroup_range' ip 0 start) (isGroup_range' ip (start + length) rest) length hpos
      (by rw [List.length_map, List.length_map, List.length_range', List.length_range']; omega)
    rw [List.append_assoc] at hshort
    rw [hreplicate]
    exact hshort

/-- The address with another port, and with zeros in the bytes of its ip that do not count. -/
def withPort (addr : NETADDR) (port : UInt16) : NETADDR :=
  if addr.type = nettypeIpv4 then
    ⟨nettypeIpv4, ipv4 addr.ip[0].toNat addr.ip[1].toNat addr.ip[2].toNat addr.ip[3].toNat, port⟩
  else { addr with port := port }

lemma ipv4_eq_iff (ip : Vector UInt8 16) :
    ipv4 ip[0].toNat ip[1].toNat ip[2].toNat ip[3].toNat = ip ↔ ip.toList.drop 4 = List.replicate 12 0 := by
  have hip : ip.toList = [ip[0], ip[1], ip[2], ip[3]] ++ ip.toList.drop 4 := by
    have hlength : ip.toList.length = 16 := by simp
    conv_lhs =>
      rw [← List.drop_zero (l := ip.toList), List.drop_eq_getElem_cons (by omega), List.drop_eq_getElem_cons (by omega),
        List.drop_eq_getElem_cons (by omega), List.drop_eq_getElem_cons (by omega)]
    simp
  have hlist : (ipv4 ip[0].toNat ip[1].toNat ip[2].toNat ip[3].toNat).toList =
      [ip[0], ip[1], ip[2], ip[3]] ++ List.replicate 12 0 := by
    simp only [ipv4, UInt8.ofNat_toNat]
    rfl
  rw [← Vector.toList_inj, hlist]
  constructor
  · rintro h
    rw [hip] at h
    exact (List.append_cancel_left h).symm
  · rintro h
    rw [hip, h]

end NetAddrText

end DDNet
