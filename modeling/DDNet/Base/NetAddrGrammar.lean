/-
The texts that `net_addr_from_str` accepts.

A text is read as `Denotes` says if no number in it is larger than an `int` and nothing is behind an address with brackets
(`grammar_iff`): the end of the text is only looked for behind an IPv4 address.
-/
import DDNet.Base.NetAddrText

namespace DDNet

open Lib.Json (decimal)
open Lib.Ipv6Text (colon)
open Confusables (digitsValue)

namespace NetAddrText

/-! ### Numbers -/

/-- Decimal digits. -/
def Digits (text : List UInt8) : Prop := ∀ c ∈ text, strIsnum c = true

/-- Digits with this value, which is not larger than the maximum. -/
def IsNumber (text : List UInt8) (n max : ℕ) : Prop := (text ≠ [] ∧ Digits text) ∧ digitsValue text = n ∧ n ≤ max

/-- The text starts with digits whose value is no `int`. -/
def StartsBig (text : List UInt8) : Prop :=
  ∃ digits rest, text = digits ++ rest ∧ Digits digits ∧ maxInt < digitsValue digits

/-- The text does not start with a digit. -/
def NoDigit (text : List UInt8) : Prop := ∀ c ∈ text.head?, strIsnum c = false

/-- The value of digits behind others with the value `i`. -/
def valueFrom (i : ℕ) (digits : List UInt8) : ℕ := digits.foldl (fun value d => 10 * value + (d.toNat - 48)) i

variable {digits rest text str : List UInt8} {n max : ℕ}

lemma le_valueFrom (i : ℕ) (digits : List UInt8) : i ≤ valueFrom i digits := by
  induction digits generalizing i with
  | nil => exact le_rfl
  | cons d digits ih =>
    have h := ih (10 * i + (d.toNat - 48))
    rw [valueFrom, List.foldl_cons, ← valueFrom]
    omega

lemma digitsValue_cons (c : UInt8) (digits : List UInt8) :
    digitsValue (c :: digits) = valueFrom (c.toNat - 48) digits := by
  rw [digitsValue, List.foldl_cons, Nat.mul_zero, Nat.zero_add, valueFrom]

lemma digitsValue_append_le (digits more : List UInt8) : digitsValue digits ≤ digitsValue (digits ++ more) := by
  rw [digitsValue, digitsValue, List.foldl_append]
  exact le_valueFrom _ more

/-- The loop reads all digits, or fails at the first of them that makes the number too large. -/
lemma parseIntLoop_append (hdigits : Digits digits) (hrest : NoDigit rest) {i : ℕ} (hi : i ≤ maxInt) :
    parseIntLoop i (digits ++ rest) =
      if maxInt < valueFrom i digits then .error .overflow else .ok (valueFrom i digits, rest) := by
  induction digits generalizing i with
  | nil =>
    rw [List.nil_append, if_neg (by rw [valueFrom, List.foldl_nil]; exact Nat.not_lt.2 hi)]
    rcases rest with _ | ⟨c, rest⟩
    · rfl
    · rw [parseIntLoop, if_neg (by rw [hrest c rfl]; exact Bool.false_ne_true)]
      rfl
  | cons d digits ih =>
    obtain ⟨hd, hdigits⟩ := List.forall_mem_cons.1 hdigits
    have hle := le_valueFrom (i * 10 + (d.toNat - 48)) digits
    have hvalue : valueFrom i (d :: digits) = valueFrom (i * 10 + (d.toNat - 48)) digits := by
      rw [valueFrom, List.foldl_cons, Nat.mul_comm]
      rfl
    rw [List.cons_append, parseIntLoop, if_pos hd, hvalue]
    by_cases hbig : maxInt < i * 10 + (d.toNat - 48)
    · rw [if_pos hbig, if_pos (hbig.trans_le hle)]
    · rw [if_neg hbig, ih hdigits (Nat.le_of_not_lt hbig)]

/-- `parse_int` reads all digits. -/
lemma parseInt_append (hne : digits ≠ []) (hdigits : Digits digits) (hrest : NoDigit rest) :
    parseInt (digits ++ rest) =
      if maxInt < digitsValue digits then .error .overflow else .ok (digitsValue digits, rest) := by
  rcases digits with _ | ⟨d, digits⟩
  · exact absurd rfl hne
  obtain ⟨hd, hdigits⟩ := List.forall_mem_cons.1 hdigits
  have hlt := d.toNat_lt
  have hi : d.toNat - 48 ≤ maxInt := by
    rw [maxInt]
    omega
  rw [List.cons_append, parseInt, if_pos hd, digitsValue_cons, parseIntLoop_append hdigits hrest hi]

/-- Every text is digits and something that does not start with one. -/
lemma exists_digits (str : List UInt8) : ∃ digits rest, str = digits ++ rest ∧ Digits digits ∧ NoDigit rest := by
  refine ⟨str.takeWhile strIsnum, str.dropWhile strIsnum, (List.takeWhile_append_dropWhile ..).symm, ?_, ?_⟩
  · exact fun c hc => List.mem_takeWhile_imp hc
  · rintro c hc
    have h := List.head?_dropWhile_not strIsnum str
    rw [Option.mem_def.1 hc] at h
    exact Bool.eq_false_iff.2 (by simpa using h)

lemma startsBig_append (hdigits : Digits digits) (hrest : NoDigit rest) :
    StartsBig (digits ++ rest) ↔ maxInt < digitsValue digits := by
  constructor
  · rintro ⟨big, rest', happend, hbig, hvalue⟩
    rcases List.append_eq_append_iff.1 happend with ⟨more, rfl, hrest'⟩ | ⟨more, rfl, -⟩
    · rcases more with _ | ⟨c, more⟩
      · rwa [List.append_nil] at hvalue
      · have hc := hbig c (List.mem_append_right _ List.mem_cons_self)
        rw [hrest c (by rw [hrest']; rfl)] at hc
        exact absurd hc Bool.false_ne_true
    · exact hvalue.trans_le (digitsValue_append_le big more)
  · exact fun hvalue => ⟨digits, rest, rfl, hdigits, hvalue⟩

/-- `parse_uint8` and `parse_uint16` by the digits that the text starts with. -/
lemma parseUint_digits (max : ℕ) (hdigits : Digits digits) (hrest : NoDigit rest) :
    parseUint max (digits ++ rest) =
      if digits = [] then .error .invalid
      else if maxInt < digitsValue digits then .error .overflow
      else if max < digitsValue digits then .error .invalid
      else .ok (digitsValue digits, rest) := by
  rw [parseUint]
  by_cases hne : digits = []
  · rw [if_pos hne, hne, List.nil_append]
    rcases rest with _ | ⟨c, rest⟩
    · rfl
    · rw [parseInt, if_neg (by rw [hrest c rfl]; exact Bool.false_ne_true)]
      rfl
  · rw [if_neg hne, parseInt_append hne hdigits hrest]
    split_ifs with hbig hlarge
    · rfl
    · exact if_pos hlarge
    · exact if_neg hlarge

/-- A number is read. -/
lemma parseUint_number (hnumber : IsNumber digits n max) (hmax : max ≤ maxInt) (hrest : NoDigit rest) :
    parseUint max (digits ++ rest) = .ok (n, rest) := by
  obtain ⟨⟨hne, hdigits⟩, rfl, hle⟩ := hnumber
  rw [parseUint_digits max hdigits hrest, if_neg hne, if_neg (Nat.not_lt.2 (hle.trans hmax)), if_neg (Nat.not_lt.2 hle)]

lemma parseUint_overflow_iff (max : ℕ) (str : List UInt8) : parseUint max str = .error .overflow ↔ StartsBig str := by
  obtain ⟨digits, rest, rfl, hdigits, hrest⟩ := exists_digits str
  rw [parseUint_digits max hdigits hrest, startsBig_append hdigits hrest]
  split_ifs with hne hbig hlarge
  · rw [hne]
    exact iff_of_false (by decide) (by decide)
  · exact iff_of_true rfl hbig
  · exact iff_of_false (by decide) hbig
  · exact iff_of_false (fun h => nomatch h) hbig

/-- What is read is a number. -/
lemma number_of_parseUint (h : parseUint max str = .ok (n, rest)) :
    ∃ digits, str = digits ++ rest ∧ IsNumber digits n max ∧ NoDigit rest := by
  obtain ⟨digits, rest', rfl, hdigits, hrest⟩ := exists_digits str
  rw [parseUint_digits max hdigits hrest] at h
  split_ifs at h with hne hbig hlarge
  obtain ⟨rfl, rfl⟩ := Prod.mk.inj (Except.ok.inj h)
  exact ⟨digits, rfl, ⟨⟨hne, hdigits⟩, rfl, Nat.le_of_not_lt hlarge⟩, hrest⟩

lemma digits_decimal (n : ℕ) : decimal n ≠ [] ∧ Digits (decimal n) := by
  have hisnum : ∀ c, Lib.Json.IsDigit c → strIsnum c = true := by
    rintro c ⟨hlow, hhigh⟩
    rw [strIsnum, Bool.and_eq_true, decide_eq_true_iff, decide_eq_true_iff]
    exact ⟨UInt8.le_iff_toNat_le.1 hlow, UInt8.le_iff_toNat_le.1 hhigh⟩
  rcases Nat.eq_zero_or_pos n with rfl | hpos
  · exact ⟨by decide, List.forall_mem_singleton.2 (by decide)⟩
  · refine ⟨?_, fun c hc => hisnum c (Confusables.isDigit_decimal hpos c hc)⟩
    obtain ⟨c, s, heq, -⟩ := Lib.Json.decimal_pos hpos
    rw [heq]
    exact List.cons_ne_nil _ _

lemma isNumber_decimal (h : n ≤ max) : IsNumber (decimal n) n max :=
  ⟨digits_decimal n, Confusables.digitsValue_decimal n, h⟩

lemma noDigit_cons {c : UInt8} (hc : strIsnum c = false) (rest : List UInt8) : NoDigit (c :: rest) := by
  rintro c' hc'
  obtain rfl := Option.some.inj hc'
  exact hc

lemma noDigit_nil : NoDigit [] := fun _ hc => nomatch hc

/-! ### IPv4 -/

/-- The port behind an address: nothing for zero, or a number behind a colon. -/
def IsPort (text : List UInt8) (port : ℕ) : Prop :=
  (text = [] ∧ port = 0) ∨ ∃ digits, text = colon :: digits ∧ IsNumber digits port 0xffff

/-- The text has a number that is no `int` where one is read, all numbers of up to 255 in front of it being followed by
the separators. -/
inductive Overflows : List UInt8 → List UInt8 → Prop
  | here {separators str : List UInt8} (hbig : StartsBig str) : Overflows separators str
  | behind {separator : UInt8} {separators digits str : List UInt8} {n : ℕ} (hnumber : IsNumber digits n 0xff)
      (hstr : Overflows separators str) : Overflows (separator :: separators) (digits ++ separator :: str)

lemma overflows_nil_iff : Overflows [] str ↔ StartsBig str := by
  constructor
  · rintro (hbig | _)
    exact hbig
  · exact .here

lemma overflows_cons_iff {separator : UInt8} {separators : List UInt8} :
    Overflows (separator :: separators) str ↔ StartsBig str ∨
      ∃ digits n str', str = digits ++ separator :: str' ∧ IsNumber digits n 0xff ∧ Overflows separators str' := by
  constructor
  · rintro (hbig | ⟨hnumber, hstr⟩)
    · exact .inl hbig
    · exact .inr ⟨_, _, _, rfl, hnumber, hstr⟩
  · rintro (hbig | ⟨digits, n, str', rfl, hnumber, hstr⟩)
    · exact .here hbig
    · exact .behind hnumber hstr

section Number

variable {α : Type} {f : ℕ × List UInt8 → Except ParseFailure α} {r : α} {separator : UInt8}

/-- A number is read, and what is behind it is read by `f`. -/
lemma bind_parseUint_ok (h : (parseUint max str).bind f = .ok r) :
    ∃ digits n rest, str = digits ++ rest ∧ IsNumber digits n max ∧ NoDigit rest ∧ f (n, rest) = .ok r := by
  rcases hparse : parseUint max str with failure | ⟨n, rest⟩
  · rw [hparse] at h
    exact nomatch h
  · rw [hparse] at h
    obtain ⟨digits, happend, hnumber, hrest⟩ := number_of_parseUint hparse
    exact ⟨digits, n, rest, happend, hnumber, hrest, h⟩

lemma bind_parseUint_overflow (hmax : max ≤ maxInt) :
    (parseUint max str).bind f = .error .overflow ↔
      StartsBig str ∨
        ∃ digits n rest, str = digits ++ rest ∧ IsNumber digits n max ∧ NoDigit rest ∧
          f (n, rest) = .error .overflow := by
  constructor
  · rintro h
    rcases hparse : parseUint max str with failure | ⟨n, rest⟩
    · rw [hparse] at h
      obtain rfl := Except.error.inj h
      exact .inl ((parseUint_overflow_iff max str).1 hparse)
    · rw [hparse] at h
      obtain ⟨digits, happend, hnumber, hrest⟩ := number_of_parseUint hparse
      exact .inr ⟨digits, n, rest, happend, hnumber, hrest, h⟩
  · rintro (hbig | ⟨digits, n, rest, rfl, hnumber, hrest, h⟩)
    · rw [(parseUint_overflow_iff max str).2 hbig]
      rfl
    · rw [parseUint_number hnumber hmax hrest]
      exact h

lemma dot_noDigit (rest : List UInt8) : NoDigit (dot :: rest) := noDigit_cons (by decide) rest

lemma colon_noDigit (rest : List UInt8) : NoDigit (colon :: rest) := noDigit_cons (by decide) rest

/-- A number and a dot are read. -/
lemma parseUint8Dot_number (hnumber : IsNumber digits n 0xff) (str : List UInt8) :
    parseUint8Dot (digits ++ dot :: str) = .ok (n, str) := by
  rw [parseUint8Dot, parseUint8, parseUint_number hnumber (by decide) (dot_noDigit str)]
  rfl

/-- What is read in front of a dot is a number. -/
lemma number_of_parseUint8Dot (h : parseUint8Dot str = .ok (n, rest)) :
    ∃ digits, str = digits ++ dot :: rest ∧ IsNumber digits n 0xff := by
  obtain ⟨digits, m, tail, rfl, hnumber, -, h⟩ := bind_parseUint_ok h
  rcases tail with _ | ⟨c, tail⟩
  · cases h
  · dsimp only at h
    rw [parseChar] at h
    split_ifs at h with hc
    · obtain ⟨rfl, rfl⟩ := Prod.mk.inj (Except.ok.inj h)
      exact ⟨digits, by rw [hc], hnumber⟩
    · cases h

lemma parseUint8Dot_overflow_iff (str : List UInt8) : parseUint8Dot str = .error .overflow ↔ StartsBig str := by
  refine (bind_parseUint_overflow (by decide)).trans (or_iff_left ?_)
  rintro ⟨digits, n, rest, rfl, -, -, h⟩
  rcases rest with _ | ⟨c, rest⟩
  · exact absurd (Except.error.inj h) (by decide)
  · dsimp only at h
    rw [parseChar] at h
    split_ifs at h
    · cases h
    · exact absurd (Except.error.inj h) (by decide)

lemma bind_parseUint8Dot_ok (h : (parseUint8Dot str).bind f = .ok r) :
    ∃ digits n str', str = digits ++ dot :: str' ∧ IsNumber digits n 0xff ∧ f (n, str') = .ok r := by
  rcases hparse : parseUint8Dot str with failure | ⟨n, rest⟩
  · rw [hparse] at h
    exact nomatch h
  · rw [hparse] at h
    obtain ⟨digits, happend, hnumber⟩ := number_of_parseUint8Dot hparse
    exact ⟨digits, n, rest, happend, hnumber, h⟩

lemma bind_parseUint8Dot_overflow :
    (parseUint8Dot str).bind f = .error .overflow ↔
      StartsBig str ∨
        ∃ digits n str', str = digits ++ dot :: str' ∧ IsNumber digits n 0xff ∧ f (n, str') = .error .overflow := by
  constructor
  · rintro h
    rcases hparse : parseUint8Dot str with failure | ⟨n, rest⟩
    · rw [hparse] at h
      obtain rfl := Except.error.inj h
      exact .inl ((parseUint8Dot_overflow_iff str).1 hparse)
    · rw [hparse] at h
      obtain ⟨digits, happend, hnumber⟩ := number_of_parseUint8Dot hparse
      exact .inr ⟨digits, n, rest, happend, hnumber, h⟩
  · rintro (hbig | ⟨digits, n, str', rfl, hnumber, h⟩)
    · rw [(parseUint8Dot_overflow_iff str).2 hbig]
      rfl
    · rw [parseUint8Dot_number hnumber]
      exact h

end Number

lemma parsePortIpv4_of_isPort {port : ℕ} (h : IsPort str port) : parsePortIpv4 str = .ok port := by
  rcases h with ⟨rfl, rfl⟩ | ⟨digits, rfl, hnumber⟩
  · rfl
  · have hparse := parseUint_number hnumber (by decide) noDigit_nil
    rw [List.append_nil] at hparse
    rw [parsePortIpv4, if_pos rfl, parseUint16, hparse]
    rfl

lemma isPort_of_parsePortIpv4 {port : ℕ} (h : parsePortIpv4 str = .ok port) : IsPort str port := by
  rcases str with _ | ⟨c, str⟩
  · exact .inl ⟨rfl, (Except.ok.inj h).symm⟩
  · rw [parsePortIpv4] at h
    split_ifs at h with hc
    obtain ⟨digits, n, rest, rfl, hnumber, -, h⟩ := bind_parseUint_ok h
    dsimp only at h
    split_ifs at h with hrest
    rw [hrest, List.append_nil, hc]
    exact .inr ⟨digits, rfl, Except.ok.inj h ▸ hnumber⟩

lemma parsePortIpv4_overflow_iff :
    parsePortIpv4 str = .error .overflow ↔ ∃ str', str = colon :: str' ∧ StartsBig str' := by
  constructor
  · rintro h
    rcases str with _ | ⟨c, str⟩
    · exact nomatch h
    · rw [parsePortIpv4] at h
      split_ifs at h with hc
      · rcases (bind_parseUint_overflow (by decide)).1 h with hbig | ⟨digits, n, rest, -, -, -, h⟩
        · exact ⟨str, by rw [hc], hbig⟩
        · dsimp only at h
          split_ifs at h
          exact absurd (Except.error.inj h) (by decide)
      · exact absurd (Except.error.inj h) (by decide)
  · rintro ⟨str', rfl, hbig⟩
    rw [parsePortIpv4, if_pos rfl, parseUint16, (parseUint_overflow_iff _ str').2 hbig]
    rfl

/-- An IPv4 address is read. -/
lemma fromStrIpv4_of_numbers {a b c d port : ℕ} {as bs cs ds portText : List UInt8} (ha : IsNumber as a 0xff)
    (hb : IsNumber bs b 0xff) (hc : IsNumber cs c 0xff) (hd : IsNumber ds d 0xff) (hport : IsPort portText port) :
    fromStrIpv4 (as ++ dot :: (bs ++ dot :: (cs ++ dot :: (ds ++ portText)))) =
      .ok ⟨nettypeIpv4, ipv4 a b c d, UInt16.ofNat port⟩ := by
  have hrest : NoDigit portText := by
    rcases hport with ⟨rfl, -⟩ | ⟨digits, rfl, -⟩
    · exact noDigit_nil
    · exact colon_noDigit digits
  simp only [fromStrIpv4, parseUint8Dot_number ha, parseUint8Dot_number hb, parseUint8Dot_number hc, parseUint8,
    parseUint_number hd (by decide) hrest, Except.bind, parsePortIpv4_of_isPort hport, Except.map]

/-- What is read without a bracket is an IPv4 address. -/
lemma numbers_of_fromStrIpv4 {addr : NETADDR} (h : fromStrIpv4 str = .ok addr) :
    ∃ (a b c d port : ℕ) (as bs cs ds portText : List UInt8), IsNumber as a 0xff ∧ IsNumber bs b 0xff ∧
      IsNumber cs c 0xff ∧ IsNumber ds d 0xff ∧ IsPort portText port ∧
      str = as ++ dot :: (bs ++ dot :: (cs ++ dot :: (ds ++ portText))) ∧
      addr = ⟨nettypeIpv4, ipv4 a b c d, UInt16.ofNat port⟩ := by
  rw [fromStrIpv4] at h
  obtain ⟨as, a, str₁, rfl, ha, h⟩ := bind_parseUint8Dot_ok h
  obtain ⟨bs, b, str₂, rfl, hb, h⟩ := bind_parseUint8Dot_ok h
  obtain ⟨cs, c, str₃, rfl, hc, h⟩ := bind_parseUint8Dot_ok h
  obtain ⟨ds, d, portText, rfl, hd, -, h⟩ := bind_parseUint_ok h
  dsimp only at h
  rcases hport : parsePortIpv4 portText with failure | port
  · rw [hport] at h
    exact nomatch h
  · rw [hport] at h
    exact ⟨a, b, c, d, port, as, bs, cs, ds, portText, ha, hb, hc, hd, isPort_of_parsePortIpv4 hport, rfl,
      (Except.ok.inj h).symm⟩

lemma map_overflow_iff {α β : Type} {parsed : Except ParseFailure α} (f : α → β) :
    parsed.map f = .error .overflow ↔ parsed = .error .overflow := by
  rcases parsed with failure | a
  · exact ⟨fun h => congrArg Except.error (Except.error.inj h), fun h => congrArg Except.error (Except.error.inj h)⟩
  · exact iff_of_false (fun h => nomatch h) fun h => nomatch h

/-- Reading an IPv4 address overflows if and only if a number that is read does. -/
lemma fromStrIpv4_overflow_iff (str : List UInt8) :
    fromStrIpv4 str = .error .overflow ↔ Overflows [dot, dot, dot, colon] str := by
  rw [fromStrIpv4, overflows_cons_iff]
  refine bind_parseUint8Dot_overflow.trans (or_congr_right ?_)
  refine exists_congr fun as => exists_congr fun a => exists_congr fun str => and_congr_right fun _ =>
    and_congr_right fun _ => ?_
  rw [overflows_cons_iff]
  refine bind_parseUint8Dot_overflow.trans (or_congr_right ?_)
  refine exists_congr fun bs => exists_congr fun b => exists_congr fun str => and_congr_right fun _ =>
    and_congr_right fun _ => ?_
  rw [overflows_cons_iff]
  refine bind_parseUint8Dot_overflow.trans (or_congr_right ?_)
  refine exists_congr fun cs => exists_congr fun c => exists_congr fun str => and_congr_right fun _ =>
    and_congr_right fun _ => ?_
  rw [overflows_cons_iff]
  refine (bind_parseUint_overflow (by decide)).trans (or_congr_right ?_)
  simp only [map_overflow_iff, parsePortIpv4_overflow_iff, overflows_nil_iff]
  constructor
  · rintro ⟨ds, d, rest, rfl, hd, -, str', rfl, hbig⟩
    exact ⟨ds, d, str', rfl, hd, hbig⟩
  · rintro ⟨ds, d, str', rfl, hd, hbig⟩
    exact ⟨ds, d, colon :: str', rfl, hd, colon_noDigit str', str', rfl, hbig⟩

/-! ### IPv6 -/

section Bracket

variable {inetPton : List UInt8 → Option (Vector UInt8 16)} {after : List UInt8} {ip₁₆ : Vector UInt8 16}

/-- The text up to the bracket is read. -/
lemma fromStrIpv6_append (hbracket : 93 ∉ text) (hlength : text.length ≤ 127) (hip : inetPton text = some ip₁₆)
    (after : List UInt8) :
    fromStrIpv6 inetPton (text ++ 93 :: after) =
      (parsePortIpv6 after).map fun port => ⟨nettypeIpv6, ip₁₆, UInt16.ofNat port⟩ := by
  have hbuf : ((text ++ 93 :: after).take 127).takeWhile (· ≠ 93) = text := by
    obtain ⟨k, hk⟩ := Nat.exists_eq_add_of_le hlength
    rw [hk, List.take_length_add_append, List.takeWhile_append_of_pos]
    · rcases k with _ | k
      · exact List.append_nil text
      · rw [List.take_succ_cons, List.takeWhile_cons_of_neg (by decide), List.append_nil]
    · rintro c hc
      rw [decide_eq_true_iff]
      rintro rfl
      exact hbracket hc
  rw [fromStrIpv6, hbuf, hip, List.drop_left]
  rfl

/-- What is read with a bracket has a text up to the other bracket. -/
lemma exists_append_of_fromStrIpv6 (h : fromStrIpv6 inetPton str ≠ .error .invalid) :
    ∃ text ip₁₆ after, str = text ++ 93 :: after ∧ 93 ∉ text ∧ text.length ≤ 127 ∧ inetPton text = some ip₁₆ := by
  rw [fromStrIpv6] at h
  set buf := (str.take 127).takeWhile (· ≠ 93) with hbuf
  rcases hip : inetPton buf with _ | ip₁₆
  · rw [hip] at h
    exact absurd rfl h
  · rcases hdrop : str.drop buf.length with _ | ⟨c, after⟩
    · rw [hip, hdrop] at h
      exact absurd rfl h
    · rw [hip, hdrop] at h
      have hc : c = 93 := by
        by_contra hc
        refine h ?_
        split
        · rename_i heq
          exact absurd (List.cons.inj heq).1 hc
        · rfl
      have hpre : buf <+: str := (List.takeWhile_prefix _).trans (List.take_prefix _ _)
      refine ⟨buf, ip₁₆, after, ?_, fun hmem => ?_, ?_, hip⟩
      · rw [← hc, ← hdrop]
        exact (List.prefix_iff_eq_append.1 hpre).symm
      · have hne := List.mem_takeWhile_imp hmem
        exact absurd rfl (of_decide_eq_true hne)
      · exact ((List.takeWhile_prefix _).length_le).trans (by rw [List.length_take]; omega)

/-- There is something behind the address. -/
def Trailing (after : List UInt8) : Prop :=
  (∃ c rest, after = c :: rest ∧ c ≠ colon) ∨
    ∃ digits n c rest, after = colon :: (digits ++ c :: rest) ∧ IsNumber digits n 0xffff ∧ strIsnum c = false

lemma parsePortIpv6_of_isPort {port : ℕ} (h : IsPort after port) : parsePortIpv6 after = .ok port := by
  rcases h with ⟨rfl, rfl⟩ | ⟨digits, rfl, hnumber⟩
  · rfl
  · have hparse := parseUint_number hnumber (by decide) noDigit_nil
    rw [List.append_nil] at hparse
    rw [parsePortIpv6, if_pos rfl, parseUint16, hparse]
    rfl

/-- What is read behind the bracket is a port, if nothing is behind it. -/
lemma isPort_of_parsePortIpv6 {port : ℕ} (h : parsePortIpv6 after = .ok port) (htrailing : ¬Trailing after) :
    IsPort after port := by
  rcases after with _ | ⟨c, after⟩
  · exact .inl ⟨rfl, (Except.ok.inj h).symm⟩
  · have hc : c = colon := by
      by_contra hc
      exact htrailing (.inl ⟨c, after, rfl, hc⟩)
    rw [parsePortIpv6, if_pos hc] at h
    rcases hparse : parseUint16 after with failure | ⟨n, rest⟩
    · rw [hparse] at h
      cases h
    · rw [hparse] at h
      obtain rfl := Except.ok.inj h
      obtain ⟨digits, rfl, hnumber, hrest⟩ := number_of_parseUint hparse
      rcases rest with _ | ⟨d, rest⟩
      · rw [hc, List.append_nil]
        exact .inr ⟨digits, rfl, hnumber⟩
      · exact absurd (.inr ⟨digits, n, d, rest, by rw [hc], hnumber, hrest d rfl⟩) htrailing

/-- Something behind the address is not noticed. -/
lemma parsePortIpv6_of_trailing (h : Trailing after) :
    ∃ port, parsePortIpv6 after = .ok port ∧ ∀ port', ¬IsPort after port' := by
  rcases h with ⟨c, rest, rfl, hc⟩ | ⟨digits, n, c, rest, rfl, hnumber, hcdigit⟩
  · refine ⟨0, if_neg hc, ?_⟩
    rintro port' (⟨h, -⟩ | ⟨digits, h, -⟩)
    · exact List.cons_ne_nil _ _ h
    · exact hc (List.cons.inj h).1
  · refine ⟨n, ?_, ?_⟩
    · rw [parsePortIpv6, if_pos rfl, parseUint16, parseUint_number hnumber (by decide) (noDigit_cons hcdigit rest)]
      rfl
    · rintro port' (⟨h, -⟩ | ⟨digits', h, hnumber'⟩)
      · exact List.cons_ne_nil _ _ h
      · have hmem : c ∈ digits' := (List.cons.inj h).2 ▸ List.mem_append_right _ List.mem_cons_self
        rw [hnumber'.1.2 c hmem] at hcdigit
        exact absurd hcdigit (by decide)

lemma parsePortIpv6_overflow_iff :
    parsePortIpv6 after = .error .overflow ↔ ∃ str, after = colon :: str ∧ StartsBig str := by
  constructor
  · rintro h
    rcases after with _ | ⟨c, str⟩
    · exact nomatch h
    · rw [parsePortIpv6] at h
      split_ifs at h with hc
      exact ⟨str, by rw [hc], (parseUint_overflow_iff _ str).1 ((map_overflow_iff _).1 h)⟩
  · rintro ⟨str, rfl, hbig⟩
    rw [parsePortIpv6, if_pos rfl]
    exact (map_overflow_iff _).2 ((parseUint_overflow_iff _ str).2 hbig)

end Bracket

/-! ### The grammar -/

/-- The text is an address: four numbers with dots between them, or what `inet_pton` accepts in brackets, and nothing or
a port behind it. -/
inductive Denotes (inetPton : List UInt8 → Option (Vector UInt8 16)) : List UInt8 → NETADDR → Prop
  | ipv4 {a b c d port : ℕ} {as bs cs ds portText : List UInt8} (ha : IsNumber as a 0xff) (hb : IsNumber bs b 0xff)
      (hc : IsNumber cs c 0xff) (hd : IsNumber ds d 0xff) (hport : IsPort portText port) :
      Denotes inetPton (as ++ dot :: (bs ++ dot :: (cs ++ dot :: (ds ++ portText))))
        ⟨nettypeIpv4, ipv4 a b c d, UInt16.ofNat port⟩
  | ipv6 {text portText : List UInt8} {ip : Vector UInt8 16} {port : ℕ} (hbracket : 93 ∉ text)
      (hip : inetPton text = some ip) (hport : IsPort portText port) :
      Denotes inetPton (91 :: (text ++ 93 :: portText)) ⟨nettypeIpv6, ip, UInt16.ofNat port⟩

/-- No number that is read is larger than an `int`, and behind an address with brackets there is nothing but a port. -/
def Strict (inetPton : List UInt8 → Option (Vector UInt8 16)) (str : List UInt8) : Prop :=
  ¬Overflows [dot, dot, dot, colon] str ∧
    ∀ (text : List UInt8) (ip : Vector UInt8 16) (after : List UInt8), str = 91 :: (text ++ 93 :: after) → 93 ∉ text →
      text.length ≤ 127 → inetPton text = some ip → (¬∃ str, after = colon :: str ∧ StartsBig str) ∧ ¬Trailing after

lemma not_startsBig_cons {c : UInt8} (hc : strIsnum c = false) (str : List UInt8) : ¬StartsBig (c :: str) := by
  have h := @startsBig_append [] (c :: str) (fun _ h => absurd h List.not_mem_nil) (noDigit_cons hc str)
  rw [List.nil_append] at h
  exact fun hbig => absurd (h.1 hbig) (by decide)

lemma not_number_append {c : UInt8} (hc : strIsnum c = false) (hnumber : IsNumber digits n max) (rest str : List UInt8) :
    digits ++ rest ≠ c :: str := by
  obtain ⟨⟨hne, hdigits⟩, -⟩ := hnumber
  rcases digits with _ | ⟨d, digits⟩
  · exact absurd rfl hne
  · rintro h
    have hd := hdigits d List.mem_cons_self
    rw [(List.cons.inj h).1, hc] at hd
    exact absurd hd Bool.false_ne_true

lemma not_overflows_bracket (separators str : List UInt8) : ¬Overflows separators (91 :: str) := by
  rintro hoverflows
  rcases separators with _ | ⟨separator, separators⟩
  · exact not_startsBig_cons (by decide) str (overflows_nil_iff.1 hoverflows)
  · rcases overflows_cons_iff.1 hoverflows with hbig | ⟨digits, n, str', happend, hnumber, -⟩
    · exact not_startsBig_cons (by decide) str hbig
    · exact not_number_append (by decide) hnumber _ _ happend.symm

/-- The first bracket is at one place only. -/
lemma eq_of_append_bracket {text text' after after' : List UInt8} (h : 93 ∉ text) (h' : 93 ∉ text')
    (happend : text ++ 93 :: after = text' ++ 93 :: after') : after' = after := by
  rcases List.append_eq_append_iff.1 happend with ⟨more, rfl, hmore⟩ | ⟨more, rfl, hmore⟩
  · rcases more with _ | ⟨c, more⟩
    · exact (List.cons.inj hmore).2.symm
    · rw [← (List.cons.inj hmore).1] at h'
      exact absurd (List.mem_append_right _ List.mem_cons_self) h'
  · rcases more with _ | ⟨c, more⟩
    · exact (List.cons.inj hmore).2
    · rw [← (List.cons.inj hmore).1] at h
      exact absurd (List.mem_append_right _ List.mem_cons_self) h

lemma denotes_bracket {inetPton : List UInt8 → Option (Vector UInt8 16)} {addr : NETADDR}
    (h : Denotes inetPton (91 :: str) addr) :
    ∃ text portText port, str = text ++ 93 :: portText ∧ 93 ∉ text ∧ IsPort portText port := by
  generalize hstr : (91 : UInt8) :: str = whole at h
  cases h with
  | ipv4 ha hb hc hd hport => exact absurd hstr.symm (not_number_append (by decide) ha _ str)
  | ipv6 hbracket hip hport => exact ⟨_, _, _, (List.cons.inj hstr).2, hbracket, hport⟩

section Grammar

variable (inetPton : List UInt8 → Option (Vector UInt8 16))

/-- A text without a bracket is read as the grammar says, if no number overflows. -/
lemma grammar_ipv4 (str : List UInt8) :
    (fromStrIpv4 str ≠ .error .overflow ∧ ∀ addr, fromStrIpv4 str = .ok addr → Denotes inetPton str addr) ↔
      ¬Overflows [dot, dot, dot, colon] str := by
  rw [Ne, fromStrIpv4_overflow_iff]
  refine and_iff_left fun addr h => ?_
  obtain ⟨a, b, c, d, port, as, bs, cs, ds, portText, ha, hb, hc, hd, hport, rfl, rfl⟩ := numbers_of_fromStrIpv4 h
  exact .ipv4 ha hb hc hd hport

/-- A text with a bracket is read as the grammar says, if the port does not overflow and nothing is behind it. -/
lemma grammar_ipv6 (str : List UInt8) :
    (fromStrIpv6 inetPton str ≠ .error .overflow ∧
        ∀ addr, fromStrIpv6 inetPton str = .ok addr → Denotes inetPton (91 :: str) addr) ↔
      ∀ (text : List UInt8) (ip : Vector UInt8 16) (after : List UInt8), 91 :: str = 91 :: (text ++ 93 :: after) →
        93 ∉ text → text.length ≤ 127 → inetPton text = some ip →
        (¬∃ str, after = colon :: str ∧ StartsBig str) ∧ ¬Trailing after := by
  constructor
  · rintro ⟨hoverflow, hdenotes⟩ text ip after happend hbracket hlength hip
    obtain rfl := (List.cons.inj happend).2
    rw [fromStrIpv6_append hbracket hlength hip] at hoverflow hdenotes
    refine ⟨fun hbig => hoverflow ((map_overflow_iff _).2 (parsePortIpv6_overflow_iff.2 hbig)), fun htrailing => ?_⟩
    obtain ⟨port, hport, hnot⟩ := parsePortIpv6_of_trailing htrailing
    have hread := hdenotes _ (congrArg (Except.map _) hport)
    obtain ⟨text', portText, port', happend, hbracket', hport'⟩ := denotes_bracket hread
    exact hnot port' (eq_of_append_bracket hbracket hbracket' happend ▸ hport')
  · rintro h
    constructor
    · rintro hoverflow
      obtain ⟨text, ip, after, rfl, hbracket, hlength, hip⟩ :=
        exists_append_of_fromStrIpv6 (fun hinvalid => absurd (hoverflow.symm.trans hinvalid) (by simp))
      rw [fromStrIpv6_append hbracket hlength hip, map_overflow_iff] at hoverflow
      exact (h text ip after rfl hbracket hlength hip).1 (parsePortIpv6_overflow_iff.1 hoverflow)
    · rintro addr haddr
      obtain ⟨text, ip, after, rfl, hbracket, hlength, hip⟩ :=
        exists_append_of_fromStrIpv6 (fun hinvalid => absurd (haddr.symm.trans hinvalid) (fun h => nomatch h))
      rw [fromStrIpv6_append hbracket hlength hip] at haddr
      rcases hport : parsePortIpv6 after with failure | port
      · rw [hport] at haddr
        exact nomatch haddr
      · rw [hport] at haddr
        obtain rfl := Except.ok.inj haddr
        exact .ipv6 hbracket hip (isPort_of_parsePortIpv6 hport (h text ip after rfl hbracket hlength hip).2)

/-- What is accepted is an address, and nothing overflows, if and only if the text is strict. -/
lemma grammar_iff (str : List UInt8) :
    (netAddrFromStr inetPton str ≠ .error .overflow ∧
        ∀ addr, netAddrFromStr inetPton str = .ok addr → Denotes inetPton str addr) ↔
      Strict inetPton str := by
  rcases str with _ | ⟨c, str⟩
  · exact (grammar_ipv4 inetPton []).trans (and_iff_left fun _ _ _ h => absurd h.symm (List.cons_ne_nil _ _)).symm
  by_cases hc : c = 91
  · rw [hc, netAddrFromStr, if_pos rfl]
    exact (grammar_ipv6 inetPton str).trans (and_iff_right (not_overflows_bracket _ str)).symm
  · rw [netAddrFromStr, if_neg hc]
    exact (grammar_ipv4 inetPton (c :: str)).trans
      (and_iff_left fun _ _ _ h => absurd (List.cons.inj h).1 hc).symm

end Grammar

end NetAddrText

end DDNet
