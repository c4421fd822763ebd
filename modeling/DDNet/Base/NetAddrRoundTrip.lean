/-
Addresses that are written and read again.

The text of an address fits into a buffer of `NETADDR_MAXSTRSIZE` bytes and is read as the address, with zeros for the bytes
of its ip that are not written (`fromStr_netAddrStr`).
-/
import DDNet.Base.NetAddrGrammar
import Mathlib

namespace DDNet

open Lib.Json (decimal)
open Lib.Ipv6Text (colon Represents)

namespace NetAddrText

variable {digits rest text str : List UInt8} {n max : ℕ}

/-! ### Round trips -/

/-- `NETADDR_MAXSTRSIZE`. -/
def maxStrSize : ℕ := 48

/-- The text of a port. -/
def portText : Option UInt16 → List UInt8
  | some port => colon :: decimal port.toNat
  | none => []

lemma ascii_digits (hdigits : Digits digits) : Ascii digits := by
  rintro c hc
  have h := hdigits c hc
  rw [strIsnum, Bool.and_eq_true, decide_eq_true_iff, decide_eq_true_iff] at h
  exact UInt8.lt_iff_toNat_lt.2 (h.2.trans_lt (by decide))

lemma ascii_cons {c : UInt8} (hc : c < 128) (htext : Ascii text) : Ascii (c :: text) :=
  List.forall_mem_cons.2 ⟨hc, htext⟩

lemma ascii_append (htext : Ascii text) (hrest : Ascii rest) : Ascii (text ++ rest) :=
  List.forall_mem_append.2 ⟨htext, hrest⟩

lemma ascii_decimal (n : ℕ) : Ascii (decimal n) := ascii_digits (digits_decimal n).2

lemma ascii_portText (port : Option UInt16) : Ascii (portText port) := by
  rcases port with _ | port
  · exact fun c hc => absurd hc List.not_mem_nil
  · exact ascii_cons (by decide) (ascii_decimal _)

lemma length_decimal_le_of_lt {k : ℕ} (hk : 0 < k) (h : n < 10 ^ k) : (decimal n).length ≤ k := by
  rw [decimal, List.length_map]
  exact (Nat.length_toDigits_le_iff (by norm_num) hk).2 h

lemma length_portText_le (port : Option UInt16) : (portText port).length ≤ 6 := by
  rcases port with _ | port
  · exact Nat.zero_le 6
  · have hlt := port.toNat_lt
    exact Nat.succ_le_succ (length_decimal_le_of_lt (by norm_num) (by omega))

lemma isPort_portText (port : Option UInt16) : IsPort (portText port) (port.getD 0).toNat := by
  rcases port with _ | port
  · exact .inl ⟨rfl, rfl⟩
  · exact .inr ⟨_, rfl, isNumber_decimal (Nat.le_of_lt_succ port.toNat_lt)⟩

/-- The text of an IPv6 address fits into the buffer. -/
lemma netAddrStrV6_eq (ip : Vector UInt16 8) (port : Option UInt16) {bufferSize : ℕ} (hsize : maxStrSize ≤ bufferSize) :
    netAddrStrV6 ip port bufferSize = 91 :: (ipText ip ++ 93 :: portText port) := by
  have hip := length_ipText_le ip
  have hport := length_portText_le port
  rw [maxStrSize] at hsize
  have hbracket : append bufferSize [] [91] = [91] :=
    append_of_ascii (ascii_cons (by decide) fun c hc => absurd hc List.not_mem_nil) (by simp; omega)
  have hgroups : (List.range 8).foldl (writeGroup ip (longestZeroSeq ip).1 (longestZeroSeq ip).2 bufferSize) [91] =
      91 :: ipText ip := by
    refine (List.foldl_ext _ _ _ fun buffer i _ => writeGroup_eq ip _ _ bufferSize buffer i).trans ?_
    exact foldl_append_of_ascii _ (fun i c hc => (isIpChar_piece ip _ _ i c hc).1) _ _ (by
      rw [List.length_append, List.length_singleton, ← ipText]
      omega)
  have hclose : append bufferSize (91 :: ipText ip) [93] = 91 :: (ipText ip ++ [93]) :=
    append_of_ascii (ascii_cons (by decide) fun c hc => absurd hc List.not_mem_nil) (by simp; omega)
  rw [netAddrStrV6]
  dsimp only
  rw [hbracket, hgroups, hclose]
  rcases port with _ | port
  · rfl
  · have hport' : append bufferSize (91 :: (ipText ip ++ [93])) (colon :: decimal port.toNat) =
        91 :: (ipText ip ++ [93]) ++ portText (some port) :=
      append_of_ascii (ascii_portText (some port)) (by
        rw [List.length_append, List.length_cons, List.length_append, List.length_singleton]
        exact (Nat.add_le_add_left hport _).trans_lt (by omega))
    refine hport'.trans ?_
    rw [List.cons_append, List.append_assoc]
    rfl

/-- The text of an IPv4 address fits into the buffer. -/
lemma append_dotted (a b c d : UInt8) (port : Option UInt16) {maxLength : ℕ} (hsize : maxStrSize ≤ maxLength) :
    append maxLength [] (dotted a b c d ++ portText port) = dotted a b c d ++ portText port := by
  have hbyte : ∀ byte : UInt8, (decimal byte.toNat).length ≤ 3 := fun byte =>
    length_decimal_le_of_lt (by norm_num) (by have := byte.toNat_lt; omega)
  have ha := hbyte a
  have hb := hbyte b
  have hc := hbyte c
  have hd := hbyte d
  have hport := length_portText_le port
  rw [maxStrSize] at hsize
  refine append_of_ascii (ascii_append ?_ (ascii_portText port)) ?_
  · exact ascii_append (ascii_decimal _) (ascii_cons (by decide) (ascii_append (ascii_decimal _)
      (ascii_cons (by decide) (ascii_append (ascii_decimal _) (ascii_cons (by decide) (ascii_decimal _))))))
  · simp only [dotted, List.nil_append, List.length_append, List.length_cons]
    omega

lemma isNumber_byte (byte : UInt8) : IsNumber (decimal byte.toNat) byte.toNat 0xff :=
  isNumber_decimal (Nat.le_of_lt_succ byte.toNat_lt)

section RoundTrip

variable {inetPton : List UInt8 → Option (Vector UInt8 16)} {maxLength : ℕ} {addr : NETADDR}

lemma fromStr_dotted (a b c d : UInt8) (port : Option UInt16) :
    netAddrFromStr inetPton (dotted a b c d ++ portText port) =
      .ok ⟨nettypeIpv4, ipv4 a.toNat b.toNat c.toNat d.toNat, port.getD 0⟩ := by
  have hread := fromStrIpv4_of_numbers (isNumber_byte a) (isNumber_byte b) (isNumber_byte c) (isNumber_byte d)
    (isPort_portText port)
  have happend : dotted a b c d ++ portText port = decimal a.toNat ++ dot :: (decimal b.toNat ++ dot ::
      (decimal c.toNat ++ dot :: (decimal d.toNat ++ portText port))) := by
    simp only [dotted, List.append_assoc, List.cons_append]
  rw [UInt16.ofNat_toNat, ← happend] at hread
  rcases hstr : dotted a b c d ++ portText port with _ | ⟨digit, str⟩
  · rw [hstr] at hread
    exact hread
  · have hdigit : digit ≠ 91 := by
      rintro rfl
      exact not_number_append (by decide) (isNumber_byte a) _ str (happend.symm.trans hstr)
    rw [netAddrFromStr, if_neg hdigit, ← hstr, hread]

/-- The text of an address is read as the address. -/
lemma fromStr_netAddrStr
    (hpton : ∀ (text : List UInt8) (ip : Vector UInt8 16), Represents text (groups (ipGroups ip)) →
      inetPton text = some ip)
    (htype : addr.type = nettypeIpv4 ∨ addr.type = nettypeIpv6) (hsize : maxStrSize ≤ maxLength) (addPort : Bool) :
    (netAddrStr addr maxLength addPort).1 = true ∧ netAddrFromStr inetPton (netAddrStr addr maxLength addPort).2 =
      .ok (withPort addr (if addPort then addr.port else 0)) := by
  rcases htype with hipv4 | hipv6
  · have htext : netAddrStr addr maxLength addPort = (true, dotted addr.ip[0] addr.ip[1] addr.ip[2] addr.ip[3] ++
        portText (if addPort then some addr.port else none)) := by
      have happend := append_dotted addr.ip[0] addr.ip[1] addr.ip[2] addr.ip[3]
        (if addPort then some addr.port else none) hsize
      rw [netAddrStr, if_pos (.inl (by rw [hipv4]; decide))]
      cases addPort
      · rw [if_neg Bool.false_ne_true, portText, List.append_nil] at happend
        exact congrArg (Prod.mk true) (happend.trans (List.append_nil _).symm)
      · exact congrArg (Prod.mk true) happend
    rw [htext, fromStr_dotted, withPort, if_pos hipv4]
    cases addPort <;> exact ⟨rfl, rfl⟩
  · have hne : addr.type ≠ nettypeIpv4 := by
      rw [hipv6]
      decide
    rw [netAddrStr, if_neg (by rw [hipv6]; decide), if_pos (by rw [hipv6]; decide), netAddrStrV6_eq _ _ hsize, withPort,
      if_neg hne]
    refine ⟨rfl, ?_⟩
    have hlength := length_ipText_le (ipGroups addr.ip)
    rw [netAddrFromStr, if_pos rfl, fromStrIpv6_append (fun h => (isIpChar_ipText _ _ h).2 rfl) (by omega)
      (hpton _ addr.ip (represents_ipText _)), parsePortIpv6_of_isPort (isPort_portText _), Except.map,
      UInt16.ofNat_toNat, ← hipv6]
    cases addPort <;> rfl

lemma withPort_of_plain (h : addr.Plain) (port : UInt16) : withPort addr port = { addr with port := port } := by
  rw [withPort]
  rcases h with ⟨hipv4, hzero⟩ | hipv6
  · rw [if_pos hipv4, (ipv4_eq_iff addr.ip).2 hzero, hipv4]
  · rw [if_neg (by rw [hipv6]; decide)]

lemma plain_of_withPort (htype : addr.type = nettypeIpv4 ∨ addr.type = nettypeIpv6)
    (h : withPort addr addr.port = addr) : addr.Plain := by
  rcases htype with hipv4 | hipv6
  · rw [withPort, if_pos hipv4] at h
    exact .inl ⟨hipv4, (ipv4_eq_iff addr.ip).1 (congrArg NETADDR.ip h)⟩
  · exact .inr hipv6

end RoundTrip

/-- An address comes back from its text, with its port or without, if and only if the bytes of its ip that are not
written are zero; and only addresses are accepted if and only if no number overflows and nothing is behind the address. -/
theorem netAddrText_iff (inetPton : List UInt8 → Option (Vector UInt8 16))
    (hpton : ∀ (text : List UInt8) (ip : Vector UInt8 16), Represents text (groups (ipGroups ip)) →
      inetPton text = some ip) :
    (∀ (addr : NETADDR) (maxLength : ℕ), addr.type = nettypeIpv4 ∨ addr.type = nettypeIpv6 → maxStrSize ≤ maxLength →
      (((netAddrStr addr maxLength true).1 = true ∧
          netAddrFromStr inetPton (netAddrStr addr maxLength true).2 = .ok addr) ∧
        (netAddrStr addr maxLength false).1 = true ∧
          netAddrFromStr inetPton (netAddrStr addr maxLength false).2 = .ok { addr with port := 0 } ↔ addr.Plain)) ∧
    ∀ str : List UInt8,
      (netAddrFromStr inetPton str ≠ .error .overflow ∧
          ∀ addr, netAddrFromStr inetPton str = .ok addr → Denotes inetPton str addr) ↔
        Strict inetPton str := by
  refine ⟨fun addr maxLength htype hsize => ?_, grammar_iff inetPton⟩
  obtain ⟨htrue, hwith⟩ := fromStr_netAddrStr hpton htype hsize true
  obtain ⟨hfalse, hwithout⟩ := fromStr_netAddrStr hpton htype hsize false
  rw [hwith, hwithout]
  constructor
  · rintro ⟨⟨-, h⟩, -⟩
    exact plain_of_withPort htype (Except.ok.inj h)
  · rintro hplain
    exact ⟨⟨htrue, congrArg Except.ok (withPort_of_plain hplain _)⟩, hfalse,
      congrArg Except.ok (withPort_of_plain hplain _)⟩

/-! ### Samples -/

/-- A function that reads the texts of IPv6 addresses. -/
def sampleInetPton (text : List UInt8) : Option (Vector UInt8 16) :=
  (Lib.Ipv6Text.read text).map fun groups => Vector.ofFn fun i =>
    UInt8.ofNat (if i.val % 2 = 0 then groups.getD (i / 2) 0 / 256 else groups.getD (i / 2) 0 % 256)

lemma toNat_group (hi lo : UInt8) : ((hi.toUInt16 <<< 8) ||| lo.toUInt16).toNat = hi.toNat * 256 + lo.toNat := by
  have hhi := hi.toNat_lt
  have hlo := lo.toNat_lt
  have hshift : hi.toNat <<< 8 < 2 ^ 16 := by
    rw [Nat.shiftLeft_eq]
    omega
  rw [UInt16.toNat_or, UInt16.toNat_shiftLeft, UInt8.toNat_toUInt16, UInt8.toNat_toUInt16]
  change hi.toNat <<< 8 % 2 ^ 16 ||| lo.toNat = _
  rw [Nat.mod_eq_of_lt hshift, Lib.shiftLeft_or hlo]
  omega

lemma getD_groups (ip : Vector UInt8 16) {k : ℕ} (hk : k < 8) :
    (groups (ipGroups ip)).getD k 0 = ip[2 * k].toNat * 256 + ip[2 * k + 1].toNat := by
  have hget : ∀ i (hi : i < 16), ip.toList.getD i 0 = ip[i] := fun i hi => by
    rw [List.getD_eq_getElem _ _ (by simpa using hi), Vector.getElem_toList]
  rw [List.getD_eq_getElem _ _ (by simpa [groups] using hk)]
  simp only [groups, List.getElem_map, Vector.getElem_toList, ipGroups, Vector.getElem_ofFn]
  rw [hget _ (by omega), hget _ (by omega), toNat_group]
  simp only [Nat.mul_comm k 2]

lemma sampleInetPton_of_represents (text : List UInt8) (ip : Vector UInt8 16)
    (h : Represents text (groups (ipGroups ip))) : sampleInetPton text = some ip := by
  rw [sampleInetPton, Lib.Ipv6Text.read_of_represents h, Option.map_some]
  refine congrArg some (Vector.ext fun i hi => ?_)
  obtain ⟨k, rfl | rfl⟩ := Nat.even_or_odd' i
  · have hlo := ip[2 * k + 1].toNat_lt
    rw [Vector.getElem_ofFn]
    dsimp only
    rw [if_pos (by omega), show 2 * k / 2 = k by omega, getD_groups ip (by omega),
      show (ip[2 * k].toNat * 256 + ip[2 * k + 1].toNat) / 256 = ip[2 * k].toNat by omega, UInt8.ofNat_toNat]
  · have hlo := ip[2 * k + 1].toNat_lt
    rw [Vector.getElem_ofFn]
    dsimp only
    rw [if_neg (by omega), show (2 * k + 1) / 2 = k by omega, getD_groups ip (by omega),
      show (ip[2 * k].toNat * 256 + ip[2 * k + 1].toNat) % 256 = ip[2 * k + 1].toNat by omega, UInt8.ofNat_toNat]

/-- The address of the samples, which is written as `[::1]:5`. -/
def sampleAddr : NETADDR := ⟨nettypeIpv6, #v[0, 0, 0, 0, 0, 0, 0, 0, 0, 0, 0, 0, 0, 0, 0, 1], 5⟩

/-- The address of the samples is read back. -/
theorem netAddrText_sample :
    netAddrFromStr sampleInetPton (netAddrStr sampleAddr maxStrSize true).2 = .ok sampleAddr :=
  (((netAddrText_iff sampleInetPton sampleInetPton_of_represents).1 sampleAddr maxStrSize (.inr rfl) le_rfl).2
    (.inr rfl)).1.2

/-- The text `[::1]x` is accepted, and is no address. -/
theorem netAddrText_trailing :
    ¬∀ inetPton : List UInt8 → Option (Vector UInt8 16),
      (∀ (text : List UInt8) (ip : Vector UInt8 16), Represents text (groups (ipGroups ip)) →
        inetPton text = some ip) →
      ∀ (str : List UInt8) (addr : NETADDR), netAddrFromStr inetPton str = .ok addr → Denotes inetPton str addr := by
  rintro h
  have hread : netAddrFromStr sampleInetPton (ofChars "[::1]x".toList) = .ok { sampleAddr with port := 0 } := by
    rfl
  obtain ⟨text, portText, port, happend, hbracket, hport⟩ :=
    denotes_bracket (h sampleInetPton sampleInetPton_of_represents (91 :: ofChars "::1]x".toList) _ hread)
  have htext := @eq_of_append_bracket (ofChars "::1".toList) text (ofChars "x".toList) portText (by decide) hbracket
    happend
  rcases hport with ⟨hnil, -⟩ | ⟨digits, hdigits, -⟩
  · exact absurd (htext.symm.trans hnil) (by decide)
  · exact absurd (List.cons.inj (htext.symm.trans hdigits)).1 (by decide)

end NetAddrText

end DDNet
