/-
STUN responses (`engine/shared/stun.cpp`).

The attributes of a message follow each other, each one padded to a multiple of four bytes.  `StunMessageParse` takes
them directly behind one another and does not skip the padding, so that what it reads is the message without padding
(`parseLoop_iff`): behind an attribute whose length is no multiple of four it takes the padding for the next attribute.
-/
import DDNet.Base.NetAddr
import DDNet.Lib.Bits

namespace DDNet

namespace Stun

/-- Two bytes of the message as a number; `none` if they are not in it. -/
def readU16 (message : List UInt8) (pos : ℕ) : Option ℕ :=
  (message[pos]?).bind fun hi => (message[pos + 1]?).map fun lo => (hi.toNat <<< 8) ||| lo.toNat

/-- Some bytes of the message; `none` if they are not in it. -/
def readBytes (message : List UInt8) (pos size : ℕ) : Option (List UInt8) :=
  if pos + size ≤ message.length then some ((message.drop pos).take size) else none

/-- The magic cookie, `0x2112A442`. -/
def magicCookie : List UInt8 := [0x21, 0x12, 0xA4, 0x42]

/-- The type of XOR-MAPPED-ADDRESS. -/
def xorMappedAddress : ℕ := 0x0020

/-- The ip of an address, of which the bytes in the message are masked with the cookie and the transaction. -/
def unmask (secret : Vector UInt8 12) (bytes : List UInt8) : Vector UInt8 16 :=
  Vector.ofFn fun i => (List.zipWith (· ^^^ ·) bytes (magicCookie ++ secret.toList)).getD i 0

/-- The address that is zeroed. -/
def zeroAddr : NETADDR := ⟨0, Vector.replicate 16 0, 0⟩

/-- The loop of `StunMessageParse`: what is returned, and the address. -/
def parseLoop (message : List UInt8) (secret : Vector UInt8 12) (messageSize : ℕ) (success : Bool) (offset : ℕ)
    (foundAddr : Bool) (addr : NETADDR) : Option (Bool × NETADDR) :=
  if messageSize = offset then some (success && !foundAddr, addr)
  else if messageSize < offset + 4 then some (true, addr)
  else
    (readU16 message offset).bind fun type => (readU16 message (offset + 2)).bind fun length =>
    if messageSize < offset + 4 + length then some (true, addr)
    else if success && type == xorMappedAddress then
      if length < 4 then some (true, addr)
      else
        (message[offset + 4 + 1]?).bind fun family => (readU16 message (offset + 4 + 2)).bind fun xPort =>
        let port := UInt16.ofNat xPort ^^^ 0x2112
        if family = 0x01 then
          if length ≠ 8 then some (true, addr)
          else if foundAddr then parseLoop message secret messageSize success (offset + 4 + length) foundAddr addr
          else
            (readBytes message (offset + 4 + 4) 4).bind fun ip =>
              parseLoop message secret messageSize success (offset + 4 + length) true
                ⟨nettypeIpv4, unmask secret ip, port⟩
        else if family = 0x02 then
          if length ≠ 20 then some (true, addr)
          else if foundAddr then parseLoop message secret messageSize success (offset + 4 + length) foundAddr addr
          else
            (readBytes message (offset + 4 + 4) 16).bind fun ip =>
              parseLoop message secret messageSize success (offset + 4 + length) true
                ⟨nettypeIpv6, unmask secret ip, port⟩
        else parseLoop message secret messageSize success (offset + 4 + length) foundAddr addr
    else if type ≤ 0x7fff then some (true, addr)
    else parseLoop message secret messageSize success (offset + 4 + length) foundAddr addr
termination_by messageSize - offset

/-- `StunMessageParse`: what is returned, `*pSuccess` and `*pAddr`; `none` if a byte is read that is not in the
message. -/
def stunMessageParse (message : List UInt8) (secret : Vector UInt8 12) : Option (Bool × Bool × NETADDR) :=
  if message.length < 20 then some (true, false, zeroAddr)
  else
    (message[0]?).bind fun class₀ => (message[1]?).bind fun class₁ => (readU16 message 2).bind fun messageLength =>
    (readBytes message 4 4).bind fun cookie => (readBytes message 8 12).bind fun transaction =>
    let parsed := class₀ = 0x01 ∧ (class₁ = 0x01 ∨ class₁ = 0x11) ∧ message.length ≥ 20 + messageLength ∧
      messageLength % 4 = 0 ∧ cookie = magicCookie ∧ transaction = secret.toList
    if parsed then
      let success := class₁ == 0x01
      (parseLoop message secret (20 + messageLength) success 20 false zeroAddr).map fun (failed, addr) =>
        (failed, success, addr)
    else some (true, false, zeroAddr)

/-! ### Attributes -/

/-- The bytes of a number. -/
def u16Bytes (n : ℕ) : List UInt8 := [UInt8.ofNat (n / 256), UInt8.ofNat (n % 256)]

/-- An attribute of a message. -/
structure Attribute where
  type : UInt16
  value : List UInt8
  small : value.length < 2 ^ 16

/-- The bytes of an attribute up to the end of its value. -/
def Attribute.bytes (a : Attribute) : List UInt8 := u16Bytes a.type.toNat ++ (u16Bytes a.value.length ++ a.value)

/-- What an attribute changes of the variables of the loop; `none` if it is not accepted. -/
def step (secret : Vector UInt8 12) (success : Bool) (a : Attribute) (foundAddr : Bool) (addr : NETADDR) :
    Option (Bool × NETADDR) :=
  if success && a.type.toNat == xorMappedAddress then
    match a.value with
    | _ :: family :: p₁ :: p₂ :: ip =>
      let port := UInt16.ofNat (p₁.toNat * 256 + p₂.toNat) ^^^ 0x2112
      if family = 0x01 then
        if ip.length ≠ 4 then none
        else if foundAddr then some (foundAddr, addr) else some (true, ⟨nettypeIpv4, unmask secret ip, port⟩)
      else if family = 0x02 then
        if ip.length ≠ 16 then none
        else if foundAddr then some (foundAddr, addr) else some (true, ⟨nettypeIpv6, unmask secret ip, port⟩)
      else some (foundAddr, addr)
    | _ => none
  else if a.type.toNat ≤ 0x7fff then none
  else some (foundAddr, addr)

variable {secret : Vector UInt8 12} {success foundAddr : Bool} {addr : NETADDR} {front body behind : List UInt8}

lemma getElem?_front (front rest : List UInt8) (k : ℕ) : (front ++ rest)[front.length + k]? = rest[k]? := by
  rw [List.getElem?_append_right (Nat.le_add_right _ _), Nat.add_sub_cancel_left]

lemma readU16_front (front rest : List UInt8) (k : ℕ) : readU16 (front ++ rest) (front.length + k) = readU16 rest k := by
  rw [readU16, readU16, getElem?_front, Nat.add_assoc, getElem?_front]

lemma readBytes_front (front rest : List UInt8) (k size : ℕ) :
    readBytes (front ++ rest) (front.length + k) size = readBytes rest k size := by
  rw [readBytes, readBytes, List.drop_length_add_append, List.length_append, Nat.add_assoc]
  simp only [Nat.add_le_add_iff_left]

lemma readU16_cons (hi lo : UInt8) (rest : List UInt8) :
    readU16 (hi :: lo :: rest) 0 = some (hi.toNat * 256 + lo.toNat) := by
  have h : (hi.toNat <<< 8) ||| lo.toNat = hi.toNat * 256 + lo.toNat := by
    rw [Lib.shiftLeft_or lo.toNat_lt]
    omega
  exact congrArg some h

lemma readBytes_zero {bytes : List UInt8} {size : ℕ} (hsize : bytes.length = size) (rest : List UInt8) :
    readBytes (bytes ++ rest) 0 size = some bytes := by
  rw [readBytes, if_pos (by rw [List.length_append]; omega), List.drop_zero, ← hsize, List.take_left]

lemma toNat_u16Bytes {n : ℕ} (hn : n < 2 ^ 16) :
    (UInt8.ofNat (n / 256)).toNat * 256 + (UInt8.ofNat (n % 256)).toNat = n := by
  rw [Lib.toNat_ofNat_of_lt (by omega), Lib.toNat_ofNat_of_lt (by omega)]
  omega

/-- Two bytes are those of the number that they make. -/
lemma u16Bytes_of_toNat (hi lo : UInt8) : u16Bytes (hi.toNat * 256 + lo.toNat) = [hi, lo] := by
  have hlo := lo.toNat_lt
  rw [u16Bytes, show (hi.toNat * 256 + lo.toNat) / 256 = hi.toNat by omega,
    show (hi.toNat * 256 + lo.toNat) % 256 = lo.toNat by omega, UInt8.ofNat_toNat, UInt8.ofNat_toNat]

lemma u16Bytes_injective {m n : ℕ} (hm : m < 2 ^ 16) (hn : n < 2 ^ 16) (h : u16Bytes m = u16Bytes n) : m = n := by
  obtain ⟨hhi, hrest⟩ := List.cons.inj h
  obtain ⟨hlo, -⟩ := List.cons.inj hrest
  rw [← toNat_u16Bytes hm, ← toNat_u16Bytes hn, hhi, hlo]

/-- A sequence of attributes starts with one attribute only. -/
lemma bytes_append_inj {a b : Attribute} {rest rest' : List UInt8} (h : a.bytes ++ rest = b.bytes ++ rest') :
    a = b ∧ rest = rest' := by
  rw [Attribute.bytes, Attribute.bytes, List.append_assoc, List.append_assoc, List.append_assoc, List.append_assoc] at h
  obtain ⟨htype, h⟩ := List.append_inj h rfl
  obtain ⟨hlength, h⟩ := List.append_inj h rfl
  have hvalue := u16Bytes_injective a.small b.small hlength
  obtain ⟨hvalue, hrest⟩ := List.append_inj h hvalue
  have htype := UInt16.toNat_inj.1 (u16Bytes_injective a.type.toNat_lt b.type.toNat_lt htype)
  cases a
  cases b
  cases htype
  cases hvalue
  exact ⟨rfl, hrest⟩

lemma length_bytes (a : Attribute) : a.bytes.length = 4 + a.value.length := by
  rw [Attribute.bytes, List.length_append, List.length_append, ← Nat.add_assoc]
  rfl

/-! ### One round of the loop -/

/-- What is read of an attribute with at least four bytes. -/
lemma read_value (type : UInt16) (r family p₁ p₂ : UInt8) (ip tail front : List UInt8)
    (small : (r :: family :: p₁ :: p₂ :: ip).length < 2 ^ 16) :
    (front ++ ((Attribute.mk type (r :: family :: p₁ :: p₂ :: ip) small).bytes ++ tail))[front.length + 4 + 1]? =
        some family ∧
      readU16 (front ++ ((Attribute.mk type (r :: family :: p₁ :: p₂ :: ip) small).bytes ++ tail))
        (front.length + 4 + 2) = some (p₁.toNat * 256 + p₂.toNat) ∧
      readBytes (front ++ ((Attribute.mk type (r :: family :: p₁ :: p₂ :: ip) small).bytes ++ tail))
        (front.length + 4 + 4) ip.length = some ip := by
  refine ⟨?_, ?_, ?_⟩
  · rw [Nat.add_assoc, getElem?_front]
    rfl
  · rw [Nat.add_assoc, readU16_front, ← readU16_cons p₁ p₂ (ip ++ tail)]
    rfl
  · rw [Nat.add_assoc, readBytes_front]
    exact (readBytes_front (u16Bytes type.toNat ++ (u16Bytes (r :: family :: p₁ :: p₂ :: ip).length ++
      [r, family, p₁, p₂])) (ip ++ tail) 0 ip.length).trans (readBytes_zero rfl tail)

/-- The round of the loop for an attribute. -/
lemma parseLoop_attribute (a : Attribute) (rest : List UInt8) {messageSize : ℕ}
    (hsize : front.length + (a.bytes ++ rest).length = messageSize) :
    parseLoop (front ++ (a.bytes ++ (rest ++ behind))) secret messageSize success front.length foundAddr addr =
      match step secret success a foundAddr addr with
      | none => some (true, addr)
      | some (foundAddr', addr') =>
        parseLoop (front ++ (a.bytes ++ (rest ++ behind))) secret messageSize success (front ++ a.bytes).length
          foundAddr' addr' := by
  have hnext : (front ++ a.bytes).length = front.length + 4 + a.value.length := by
    rw [List.length_append, length_bytes, Nat.add_assoc]
  have hlength : (a.bytes ++ rest).length = 4 + a.value.length + rest.length := by
    rw [List.length_append, length_bytes]
  have htype : readU16 (front ++ (a.bytes ++ (rest ++ behind))) front.length = some a.type.toNat := by
    have h := readU16_front front (a.bytes ++ (rest ++ behind)) 0
    rw [Nat.add_zero] at h
    rw [h]
    exact (readU16_cons _ _ _).trans (congrArg some (toNat_u16Bytes a.type.toNat_lt))
  have hvalue : readU16 (front ++ (a.bytes ++ (rest ++ behind))) (front.length + 2) = some a.value.length := by
    have h := readU16_cons (UInt8.ofNat (a.value.length / 256)) (UInt8.ofNat (a.value.length % 256))
      (a.value ++ (rest ++ behind))
    rw [toNat_u16Bytes a.small] at h
    rw [readU16_front, ← h]
    rfl
  rw [hnext, parseLoop, if_neg (by omega), if_neg (by omega), htype, Option.bind_some, hvalue, Option.bind_some,
    if_neg (by omega), step]
  by_cases hmapped : (success && a.type.toNat == xorMappedAddress) = true
  · rw [if_pos hmapped, if_pos hmapped]
    obtain ⟨type, value, small⟩ := a
    rcases value with _ | ⟨r, _ | ⟨family, _ | ⟨p₁, _ | ⟨p₂, ip⟩⟩⟩⟩
    · rfl
    · rfl
    · rfl
    · rfl
    · obtain ⟨hfamily, hport, hip⟩ := read_value type r family p₁ p₂ ip (rest ++ behind) front small
      rw [if_neg (by simp), hfamily, Option.bind_some, hport, Option.bind_some]
      dsimp only
      have hlong : (r :: family :: p₁ :: p₂ :: ip).length = ip.length + 4 := rfl
      rw [hlong]
      by_cases hipv4 : family = 0x01
      · rw [if_pos hipv4, if_pos hipv4]
        by_cases hfour : ip.length = 4
        · rw [if_neg (by omega), if_neg (not_not.2 hfour)]
          cases foundAddr
          · rw [hfour] at hip
            rw [if_neg Bool.false_ne_true, if_neg Bool.false_ne_true, hip]
            rfl
          · rfl
        · rw [if_pos (by omega), if_pos hfour]
      rw [if_neg hipv4, if_neg hipv4]
      by_cases hipv6 : family = 0x02
      · rw [if_pos hipv6, if_pos hipv6]
        by_cases hsixteen : ip.length = 16
        · rw [if_neg (by omega), if_neg (not_not.2 hsixteen)]
          cases foundAddr
          · rw [hsixteen] at hip
            rw [if_neg Bool.false_ne_true, if_neg Bool.false_ne_true, hip]
            rfl
          · rfl
        · rw [if_pos (by omega), if_pos hsixteen]
      · rw [if_neg hipv6, if_neg hipv6]
  · rw [if_neg hmapped, if_neg hmapped]
    split_ifs <;> rfl

/-- What a round of the loop can do: end at the end of the message, fail, or go on behind an attribute. -/
lemma parseLoop_cases (front body behind : List UInt8) {messageSize : ℕ}
    (hsize : front.length + body.length = messageSize) (foundAddr : Bool) (addr : NETADDR) :
    (body = [] ∧ parseLoop (front ++ (body ++ behind)) secret messageSize success front.length foundAddr addr =
      some (success && !foundAddr, addr)) ∨
    (body ≠ [] ∧ (∀ (a : Attribute) (rest : List UInt8), body ≠ a.bytes ++ rest) ∧
      parseLoop (front ++ (body ++ behind)) secret messageSize success front.length foundAddr addr =
        some (true, addr)) ∨
    ∃ (a : Attribute) (rest : List UInt8), body = a.bytes ++ rest ∧
      parseLoop (front ++ (body ++ behind)) secret messageSize success front.length foundAddr addr =
        match step secret success a foundAddr addr with
        | none => some (true, addr)
        | some (foundAddr', addr') =>
          parseLoop ((front ++ a.bytes) ++ (rest ++ behind)) secret messageSize success (front ++ a.bytes).length
            foundAddr' addr' := by
  by_cases hattribute : ∃ (a : Attribute) (rest : List UInt8), body = a.bytes ++ rest
  · obtain ⟨a, rest, rfl⟩ := hattribute
    refine .inr (.inr ⟨a, rest, rfl, ?_⟩)
    rw [List.append_assoc, List.append_assoc]
    exact parseLoop_attribute a rest hsize
  · have hnot : ∀ (a : Attribute) (rest : List UInt8), body ≠ a.bytes ++ rest := fun a rest h => hattribute ⟨a, rest, h⟩
    rcases body with _ | ⟨t₁, _ | ⟨t₂, _ | ⟨l₁, _ | ⟨l₂, tail⟩⟩⟩⟩
    · refine .inl ⟨rfl, ?_⟩
      rw [parseLoop, if_pos (by rw [← hsize]; rfl)]
    all_goals refine .inr (.inl ⟨List.cons_ne_nil _ _, hnot, ?_⟩)
    · rw [parseLoop, if_neg (by rw [← hsize]; simp), if_pos (by rw [← hsize]; simp)]
    · rw [parseLoop, if_neg (by rw [← hsize]; simp), if_pos (by rw [← hsize]; simp)]
    · rw [parseLoop, if_neg (by rw [← hsize]; simp), if_pos (by rw [← hsize]; simp)]
    · have ht₁ := t₁.toNat_lt
      have ht₂ := t₂.toNat_lt
      have hl₁ := l₁.toNat_lt
      have hl₂ := l₂.toNat_lt
      have htype := readU16_front front (t₁ :: t₂ :: l₁ :: l₂ :: tail ++ behind) 0
      have hlength := readU16_front front (t₁ :: t₂ :: l₁ :: l₂ :: tail ++ behind) 2
      have hcons : readU16 (t₁ :: t₂ :: l₁ :: l₂ :: tail ++ behind) 2 = some (l₁.toNat * 256 + l₂.toNat) :=
        readU16_cons l₁ l₂ (tail ++ behind)
      rw [Nat.add_zero, List.cons_append, List.cons_append, readU16_cons] at htype
      rw [hcons] at hlength
      have hshort : tail.length < l₁.toNat * 256 + l₂.toNat := by
        by_contra hlong
        obtain ⟨value, rest, rfl, hvalue⟩ : ∃ value rest, tail = value ++ rest ∧
            value.length = l₁.toNat * 256 + l₂.toNat :=
          ⟨tail.take (l₁.toNat * 256 + l₂.toNat), tail.drop (l₁.toNat * 256 + l₂.toNat),
            (List.take_append_drop ..).symm, by rw [List.length_take]; omega⟩
        refine hnot ⟨UInt16.ofNat (t₁.toNat * 256 + t₂.toNat), value, by omega⟩ rest ?_
        rw [Attribute.bytes]
        dsimp only
        rw [UInt16.toNat_ofNat_of_lt' (by rw [UInt16.size]; omega), hvalue, u16Bytes_of_toNat, u16Bytes_of_toNat]
        rfl
      simp only [List.length_cons] at hsize
      rw [List.cons_append, List.cons_append] at hlength ⊢
      rw [parseLoop, if_neg (by omega), if_neg (by omega), htype, Option.bind_some, hlength, Option.bind_some,
        if_pos (by omega)]

/-! ### The loop -/

/-- The rounds of the loop for some attributes. -/
def run (secret : Vector UInt8 12) (success : Bool) : List Attribute → Bool → NETADDR → Option (Bool × NETADDR)
  | [], foundAddr, addr => some (foundAddr, addr)
  | a :: attrs, foundAddr, addr =>
    (step secret success a foundAddr addr).bind fun (foundAddr, addr) => run secret success attrs foundAddr addr

lemma length_append_lt (a : Attribute) (rest : List UInt8) : rest.length < (a.bytes ++ rest).length := by
  rw [List.length_append, length_bytes]
  omega

/-- The loop ends, and reads inside of the message only. -/
lemma parseLoop_total (front body behind : List UInt8) {messageSize : ℕ}
    (hsize : front.length + body.length = messageSize) (foundAddr : Bool) (addr : NETADDR) :
    ∃ result, parseLoop (front ++ (body ++ behind)) secret messageSize success front.length foundAddr addr =
      some result := by
  induction hlength : body.length using Nat.strong_induction_on generalizing front body foundAddr addr with
  | _ length ih =>
    rcases parseLoop_cases front body behind hsize foundAddr addr with ⟨-, h⟩ | ⟨-, -, h⟩ | ⟨a, rest, rfl, h⟩
    · exact ⟨_, h⟩
    · exact ⟨_, h⟩
    · rw [h]
      rcases hstep : step secret success a foundAddr addr with _ | ⟨foundAddr', addr'⟩
      · exact ⟨_, rfl⟩
      · refine ih rest.length (hlength ▸ length_append_lt a rest) _ rest ?_ _ _ rfl
        rw [← hsize, List.length_append, List.length_append, Nat.add_assoc]

/-- The loop succeeds for a success response that is a sequence of attributes without padding, all of which are accepted
and one of which has an address. -/
lemma parseLoop_iff (front body behind : List UInt8) {messageSize : ℕ}
    (hsize : front.length + body.length = messageSize) (foundAddr : Bool) (addr addr' : NETADDR) :
    parseLoop (front ++ (body ++ behind)) secret messageSize true front.length foundAddr addr = some (false, addr') ↔
      ∃ attrs : List Attribute, body = attrs.flatMap Attribute.bytes ∧
        run secret true attrs foundAddr addr = some (true, addr') := by
  induction hlength : body.length using Nat.strong_induction_on generalizing front body foundAddr addr with
  | _ length ih =>
    rcases parseLoop_cases front body behind hsize foundAddr addr with ⟨rfl, h⟩ | ⟨hne, hnot, h⟩ | ⟨a, rest, rfl, h⟩
    · rw [h, Bool.true_and, Option.some.injEq, Prod.mk.injEq, Bool.not_eq_false']
      constructor
      · rintro ⟨rfl, rfl⟩
        exact ⟨[], rfl, rfl⟩
      · rintro ⟨attrs, hattrs, hrun⟩
        rcases attrs with _ | ⟨a, attrs⟩
        · exact Prod.mk.inj (Option.some.inj hrun)
        · have hlt := length_append_lt a (attrs.flatMap Attribute.bytes)
          rw [← List.flatMap_cons, ← hattrs] at hlt
          exact absurd hlt (Nat.not_lt_zero _)
    · rw [h]
      refine iff_of_false (fun h => ?_) ?_
      · exact Bool.noConfusion (Prod.mk.inj (Option.some.inj h)).1
      · rintro ⟨attrs, rfl, -⟩
        rcases attrs with _ | ⟨a, attrs⟩
        · exact hne rfl
        · exact hnot a (attrs.flatMap Attribute.bytes) List.flatMap_cons
    · have hrest : (∃ attrs : List Attribute, a.bytes ++ rest = attrs.flatMap Attribute.bytes ∧
          run secret true attrs foundAddr addr = some (true, addr')) ↔
          ∃ attrs : List Attribute, rest = attrs.flatMap Attribute.bytes ∧
            run secret true (a :: attrs) foundAddr addr = some (true, addr') := by
        constructor
        · rintro ⟨attrs, hattrs, hrun⟩
          rcases attrs with _ | ⟨b, attrs⟩
          · have hlt := length_append_lt a rest
            rw [hattrs] at hlt
            exact absurd hlt (Nat.not_lt_zero _)
          · obtain ⟨rfl, rfl⟩ := bytes_append_inj (hattrs.trans List.flatMap_cons)
            exact ⟨attrs, rfl, hrun⟩
        · rintro ⟨attrs, rfl, hrun⟩
          exact ⟨a :: attrs, List.flatMap_cons.symm, hrun⟩
      rw [h, hrest]
      simp only [run]
      rcases hstep : step secret true a foundAddr addr with _ | ⟨foundAddr', addr''⟩
      · refine iff_of_false (fun h => ?_) ?_
        · exact Bool.noConfusion (Prod.mk.inj (Option.some.inj h)).1
        · rintro ⟨attrs, -, hrun⟩
          exact nomatch hrun
      · refine ih rest.length (hlength ▸ length_append_lt a rest) _ rest ?_ _ _ rfl
        rw [← hsize, List.length_append, List.length_append, Nat.add_assoc]

/-! ### Attributes that are accepted -/

/-- An attribute that does not make the parser fail: an address of the right length, or one whose type is
comprehension-optional. -/
def Attribute.Accepted (a : Attribute) : Prop :=
  (a.type = 0x0020 ∧ ∃ r family p₁ p₂ ip, a.value = r :: family :: p₁ :: p₂ :: ip ∧ (family = 0x01 → ip.length = 4) ∧
    (family = 0x02 → ip.length = 16)) ∨ 0x8000 ≤ a.type.toNat

/-- The address of an attribute, if it has one. -/
def Attribute.address (secret : Vector UInt8 12) (a : Attribute) : Option NETADDR :=
  if a.type = 0x0020 then
    match a.value with
    | _ :: family :: p₁ :: p₂ :: ip =>
      let port := UInt16.ofNat (p₁.toNat * 256 + p₂.toNat) ^^^ 0x2112
      if family = 0x01 then some ⟨nettypeIpv4, unmask secret ip, port⟩
      else if family = 0x02 then some ⟨nettypeIpv6, unmask secret ip, port⟩
      else none
    | _ => none
  else none

/-- An attribute that is accepted gives the address if there is none yet. -/
lemma step_of_accepted {a : Attribute} (ha : a.Accepted) (foundAddr : Bool) (addr : NETADDR) :
    step secret true a foundAddr addr =
      some (match foundAddr, a.address secret with
        | false, some found => (true, found)
        | _, _ => (foundAddr, addr)) := by
  rcases ha with ⟨htype, r, family, p₁, p₂, ip, hvalue, hfour, hsixteen⟩ | hoptional
  · rw [step, Attribute.address, if_pos htype, htype, if_pos (by decide), hvalue]
    dsimp only
    by_cases hipv4 : family = 0x01
    · rw [if_pos hipv4, if_pos hipv4, if_neg (not_not.2 (hfour hipv4))]
      cases foundAddr <;> rfl
    rw [if_neg hipv4, if_neg hipv4]
    by_cases hipv6 : family = 0x02
    · rw [if_pos hipv6, if_pos hipv6, if_neg (not_not.2 (hsixteen hipv6))]
      cases foundAddr <;> rfl
    · rw [if_neg hipv6, if_neg hipv6]
      cases foundAddr <;> rfl
  · have htype : a.type ≠ 0x0020 := by
      rintro h
      rw [h] at hoptional
      exact absurd hoptional (by decide)
    have hnat : (true && a.type.toNat == xorMappedAddress) = false := by
      rw [Bool.true_and, beq_eq_false_iff_ne]
      exact fun h => htype (UInt16.toNat_inj.1 h)
    rw [step, Attribute.address, if_neg htype, hnat, if_neg Bool.false_ne_true, if_neg (by omega)]
    cases foundAddr <;> rfl

lemma step_of_not_accepted {a : Attribute} (ha : ¬a.Accepted) (foundAddr : Bool) (addr : NETADDR) :
    step secret true a foundAddr addr = none := by
  rw [step]
  by_cases htype : a.type = 0x0020
  · rw [htype, if_pos (by decide)]
    rcases hvalue : a.value with _ | ⟨r, _ | ⟨family, _ | ⟨p₁, _ | ⟨p₂, ip⟩⟩⟩⟩
    · rfl
    · rfl
    · rfl
    · rfl
    · have hlengths : ¬((family = 0x01 → ip.length = 4) ∧ (family = 0x02 → ip.length = 16)) := fun h =>
        ha (.inl ⟨htype, r, family, p₁, p₂, ip, hvalue, h.1, h.2⟩)
      dsimp only
      by_cases hipv4 : family = 0x01
      · rw [if_pos hipv4, if_pos]
        rintro hfour
        exact hlengths ⟨fun _ => hfour, fun hipv6 => absurd (hipv4.symm.trans hipv6) (by decide)⟩
      rw [if_neg hipv4]
      by_cases hipv6 : family = 0x02
      · rw [if_pos hipv6, if_pos]
        rintro hsixteen
        exact hlengths ⟨fun h => absurd h hipv4, fun _ => hsixteen⟩
      · exact absurd ⟨fun h => absurd h hipv4, fun h => absurd h hipv6⟩ hlengths
  · have hnat : (true && a.type.toNat == xorMappedAddress) = false := by
      rw [Bool.true_and, beq_eq_false_iff_ne]
      exact fun h => htype (UInt16.toNat_inj.1 h)
    have hrequired : a.type.toNat ≤ 0x7fff := by
      by_contra hoptional
      exact ha (.inr (by omega))
    rw [hnat, if_neg Bool.false_ne_true, if_pos hrequired]

/-- With an address already, the attributes only have to be accepted. -/
lemma run_found (attrs : List Attribute) (addr addr' : NETADDR) :
    run secret true attrs true addr = some (true, addr') ↔ (∀ a ∈ attrs, a.Accepted) ∧ addr = addr' := by
  induction attrs with
  | nil => simp [run]
  | cons a attrs ih =>
    rw [run, List.forall_mem_cons]
    by_cases ha : a.Accepted
    · rw [step_of_accepted ha, Option.bind_some]
      exact ih.trans (by simp [ha])
    · rw [step_of_not_accepted ha, Option.bind_none]
      simp [ha]

/-- The rounds succeed if every attribute is accepted and the first one that has an address has this one. -/
lemma run_iff (attrs : List Attribute) (addr addr' : NETADDR) :
    run secret true attrs false addr = some (true, addr') ↔
      (∀ a ∈ attrs, a.Accepted) ∧ attrs.findSome? (Attribute.address secret) = some addr' := by
  induction attrs with
  | nil => simp [run]
  | cons a attrs ih =>
    rw [run, List.forall_mem_cons, List.findSome?_cons]
    by_cases ha : a.Accepted
    · rw [step_of_accepted ha, Option.bind_some]
      rcases a.address secret with _ | found
      · exact ih.trans (by simp [ha])
      · exact (run_found attrs found addr').trans (by simp [ha])
    · rw [step_of_not_accepted ha, Option.bind_none]
      simp [ha]

/-! ### Responses -/

/-- The bytes are a sequence of attributes without padding between them, all of them are accepted and the first one that
has an address has this one. -/
def ReadsUnpadded (secret : Vector UInt8 12) (body : List UInt8) (addr : NETADDR) : Prop :=
  ∃ attrs : List Attribute, body = attrs.flatMap Attribute.bytes ∧ (∀ a ∈ attrs, a.Accepted) ∧
    attrs.findSome? (Attribute.address secret) = some addr

/-- An attribute as it is sent: the value is padded to a multiple of four bytes, with any bytes. -/
structure PaddedAttribute extends Attribute where
  padding : List UInt8
  padded : padding.length = (4 - value.length % 4) % 4

/-- The bytes of an attribute with its padding. -/
def PaddedAttribute.wire (a : PaddedAttribute) : List UInt8 := a.bytes ++ a.padding

/-- An attribute that a receiver may ignore. -/
def PaddedAttribute.Optional (a : PaddedAttribute) : Prop := 0x8000 ≤ a.type.toNat

instance (a : PaddedAttribute) : Decidable a.Optional := inferInstanceAs (Decidable (0x8000 ≤ a.type.toNat))

/-- The value of an XOR-MAPPED-ADDRESS, whose first byte is reserved. -/
def mappedValue (secret : Vector UInt8 12) (reserved : UInt8) (addr : NETADDR) : List UInt8 :=
  reserved :: (if addr.type = nettypeIpv4 then 0x01 else 0x02) :: (u16Bytes (addr.port ^^^ 0x2112).toNat ++
    List.zipWith (· ^^^ ·) addr.ipBytes (magicCookie ++ secret.toList))

lemma length_mappedValue_ipv4 (reserved : UInt8) (h : addr.type = nettypeIpv4) :
    (mappedValue secret reserved addr).length = 8 := by
  simp [mappedValue, NETADDR.ipBytes, NETADDR.ipLength, h, u16Bytes, magicCookie]

lemma length_mappedValue_ipv6 (reserved : UInt8) (h : addr.type ≠ nettypeIpv4) :
    (mappedValue secret reserved addr).length = 20 := by
  simp [mappedValue, NETADDR.ipBytes, NETADDR.ipLength, h, u16Bytes, magicCookie]

lemma length_mappedValue (secret : Vector UInt8 12) (reserved : UInt8) (addr : NETADDR) :
    (mappedValue secret reserved addr).length = 8 ∨ (mappedValue secret reserved addr).length = 20 := by
  by_cases h : addr.type = nettypeIpv4
  · exact .inl (length_mappedValue_ipv4 reserved h)
  · exact .inr (length_mappedValue_ipv6 reserved h)

/-- The attribute with an address, which needs no padding. -/
def mappedAddress (secret : Vector UInt8 12) (reserved : UInt8) (addr : NETADDR) : PaddedAttribute where
  type := 0x0020
  value := mappedValue secret reserved addr
  small := by rcases length_mappedValue secret reserved addr with h | h <;> omega
  padding := []
  padded := by rcases length_mappedValue secret reserved addr with h | h <;> rw [h] <;> rfl

/-- The header of a success response for the transaction. -/
def header (secret : Vector UInt8 12) (bodyLength : ℕ) : List UInt8 :=
  [0x01, 0x01] ++ (u16Bytes bodyLength ++ (magicCookie ++ secret.toList))

/-- A success response for the transaction with these attributes. -/
def response (secret : Vector UInt8 12) (attrs : List PaddedAttribute) : List UInt8 :=
  let body := attrs.flatMap PaddedAttribute.wire
  header secret body.length ++ body

/-! ### What is returned for a response -/

lemma zipWith_xor_cancel {bytes mask : List UInt8} (hlength : bytes.length ≤ mask.length) :
    List.zipWith (· ^^^ ·) (List.zipWith (· ^^^ ·) bytes mask) mask = bytes := by
  induction bytes generalizing mask with
  | nil => rfl
  | cons byte bytes ih =>
    rcases mask with _ | ⟨m, mask⟩
    · exact absurd hlength (Nat.not_succ_le_zero _)
    · rw [List.zipWith_cons_cons, List.zipWith_cons_cons, ih (Nat.le_of_succ_le_succ hlength), UInt8.xor_assoc,
        UInt8.xor_self, UInt8.xor_zero]

/-- The ip of a plain address is its bytes that count and zeros behind them. -/
lemma getD_ipBytes_plain (haddr : addr.Plain) {i : ℕ} (hi : i < 16) : addr.ipBytes.getD i 0 = addr.ip[i] := by
  have hip : addr.ip.toList.getD i 0 = addr.ip[i] := by
    rw [List.getD_eq_getElem _ _ (by simpa using hi), Vector.getElem_toList]
  rcases haddr with ⟨hipv4, hzero⟩ | hipv6
  · rw [NETADDR.ipBytes, NETADDR.ipLength, if_pos hipv4, ← hip]
    by_cases hfour : i < 4
    · rw [List.getD_eq_getElem?_getD, List.getElem?_take_of_lt hfour, List.getD_eq_getElem?_getD]
    · obtain ⟨k, rfl⟩ := Nat.exists_eq_add_of_le (Nat.le_of_not_lt hfour)
      have hdrop := @List.getElem?_drop _ addr.ip.toList 4 k
      rw [hzero, List.getElem?_replicate_of_lt (by omega)] at hdrop
      rw [List.getD_eq_default _ _ (by simp), List.getD_eq_getElem?_getD, ← hdrop]
      rfl
  · rw [NETADDR.ipBytes, NETADDR.ipLength, if_neg (by rw [hipv6]; decide), ← hip, List.take_of_length_le (by simp)]

lemma unmask_plain (haddr : addr.Plain) (secret : Vector UInt8 12) :
    unmask secret (List.zipWith (· ^^^ ·) addr.ipBytes (magicCookie ++ secret.toList)) = addr.ip := by
  have hlength : addr.ipBytes.length ≤ (magicCookie ++ secret.toList).length := by
    simp [NETADDR.ipBytes, magicCookie]
  ext i hi
  rw [unmask, zipWith_xor_cancel hlength, Vector.getElem_ofFn, getD_ipBytes_plain haddr hi]

lemma type_plain (haddr : addr.Plain) (h : addr.type ≠ nettypeIpv4) : addr.type = nettypeIpv6 := by
  rcases haddr with ⟨hipv4, -⟩ | hipv6
  · exact absurd hipv4 h
  · exact hipv6

lemma accepted_mappedAddress (secret : Vector UInt8 12) (reserved : UInt8) (addr : NETADDR) :
    (mappedAddress secret reserved addr).Accepted := by
  refine .inl ⟨rfl, reserved, _, _, _, _, rfl, ?_, ?_⟩
  · rintro hfamily
    have hipv4 : addr.type = nettypeIpv4 := by
      by_contra h
      rw [if_neg h] at hfamily
      exact absurd hfamily (by decide)
    have hlength := @length_mappedValue_ipv4 secret addr reserved hipv4
    simpa [mappedValue, u16Bytes] using hlength
  · rintro hfamily
    have hipv6 : addr.type ≠ nettypeIpv4 := by
      rintro h
      rw [if_pos h] at hfamily
      exact absurd hfamily (by decide)
    have hlength := @length_mappedValue_ipv6 secret addr reserved hipv6
    simpa [mappedValue, u16Bytes] using hlength

/-- The attribute gives the address back. -/
lemma address_mappedAddress (secret : Vector UInt8 12) (reserved : UInt8) (haddr : addr.Plain) :
    (mappedAddress secret reserved addr).address secret = some addr := by
  have hport : UInt16.ofNat ((UInt8.ofNat ((addr.port ^^^ 0x2112).toNat / 256)).toNat * 256 +
      (UInt8.ofNat ((addr.port ^^^ 0x2112).toNat % 256)).toNat) ^^^ 0x2112 = addr.port := by
    rw [toNat_u16Bytes (addr.port ^^^ 0x2112).toNat_lt, UInt16.ofNat_toNat, UInt16.xor_assoc, UInt16.xor_self,
      UInt16.xor_zero]
  have hip := unmask_plain haddr secret
  rw [Attribute.address, if_pos (by rfl)]
  simp only [mappedAddress, mappedValue, u16Bytes, List.cons_append, List.nil_append, hport, hip]
  by_cases hipv4 : addr.type = nettypeIpv4
  · rw [if_pos hipv4, if_pos rfl, ← hipv4]
  · rw [if_neg hipv4, if_neg (by decide), if_pos rfl, ← type_plain haddr hipv4]

lemma length_wire (a : PaddedAttribute) : a.wire.length % 4 = 0 := by
  have hpadded := a.padded
  rw [PaddedAttribute.wire, List.length_append, length_bytes]
  omega

lemma length_flatMap_wire (attrs : List PaddedAttribute) : (attrs.flatMap PaddedAttribute.wire).length % 4 = 0 := by
  induction attrs with
  | nil => rfl
  | cons a attrs ih =>
    have ha := length_wire a
    rw [List.flatMap_cons, List.length_append]
    omega

lemma length_header (secret : Vector UInt8 12) (n : ℕ) : (header secret n).length = 20 := by
  simp [header, u16Bytes, magicCookie]

/-- What the parser reads of the header. -/
lemma read_header (secret : Vector UInt8 12) {n : ℕ} (hn : n < 2 ^ 16) (body : List UInt8) :
    readU16 (header secret n ++ body) 2 = some n ∧ readBytes (header secret n ++ body) 4 4 = some magicCookie ∧
      readBytes (header secret n ++ body) 8 12 = some secret.toList := by
  rw [header, List.append_assoc, List.append_assoc, List.append_assoc]
  refine ⟨?_, ?_, ?_⟩
  · have h := readU16_cons (UInt8.ofNat (n / 256)) (UInt8.ofNat (n % 256)) (magicCookie ++ (secret.toList ++ body))
    rw [toNat_u16Bytes hn] at h
    exact (readU16_front [0x01, 0x01] _ 0).trans h
  · rw [← List.append_assoc]
    exact (readBytes_front ([0x01, 0x01] ++ u16Bytes n) _ 0 4).trans (readBytes_zero rfl _)
  · rw [← List.append_assoc, ← List.append_assoc]
    exact (readBytes_front (([0x01, 0x01] ++ u16Bytes n) ++ magicCookie) _ 0 12).trans (readBytes_zero (by simp) _)

/-- The parser reads the attributes of a response as if they had no padding. -/
lemma stunMessageParse_response (secret : Vector UInt8 12) (attrs : List PaddedAttribute)
    (hsmall : (attrs.flatMap PaddedAttribute.wire).length < 2 ^ 16) (addr : NETADDR) :
    stunMessageParse (response secret attrs) secret = some (false, true, addr) ↔
      ReadsUnpadded secret (attrs.flatMap PaddedAttribute.wire) addr := by
  have hfour := length_flatMap_wire attrs
  rw [response]
  generalize attrs.flatMap PaddedAttribute.wire = body at hsmall hfour ⊢
  obtain ⟨hnumber, hcookie, hsecret⟩ := read_header secret hsmall body
  have hlength : (header secret body.length ++ body).length = 20 + body.length := by
    rw [List.length_append, length_header]
  have hloop := @parseLoop_iff secret (header secret body.length) body [] _
    (congrArg (· + body.length) (length_header secret body.length)) false zeroAddr addr
  rw [List.append_nil, length_header] at hloop
  have hreads : ReadsUnpadded secret body addr ↔
      ∃ attrs : List Attribute, body = attrs.flatMap Attribute.bytes ∧
        run secret true attrs false zeroAddr = some (true, addr) := by
    simp only [ReadsUnpadded, run_iff]
  rw [hreads, ← hloop, stunMessageParse, if_neg (by omega), hnumber, hcookie, hsecret]
  have hclass : (header secret body.length ++ body)[0]? = some 0x01 ∧
      (header secret body.length ++ body)[1]? = some 0x01 := ⟨rfl, rfl⟩
  rw [hclass.1, hclass.2]
  simp only [Option.bind_some]
  rw [if_pos ⟨trivial, .inl trivial, hlength.ge, hfour, trivial, trivial⟩]
  rw [Option.map_eq_some_iff]
  constructor
  · rintro ⟨⟨failed, found⟩, hparse, h⟩
    obtain ⟨rfl, h⟩ := Prod.mk.inj h
    obtain ⟨-, rfl⟩ := Prod.mk.inj h
    exact hparse
  · rintro hparse
    exact ⟨_, hparse, rfl⟩

/-- The parser ends, and reads inside of the message only. -/
lemma stunMessageParse_total (message : List UInt8) (secret : Vector UInt8 12) :
    ∃ result, stunMessageParse message secret = some result := by
  rw [stunMessageParse]
  by_cases hshort : message.length < 20
  · rw [if_pos hshort]
    exact ⟨_, rfl⟩
  have hlength : 20 ≤ message.length := Nat.le_of_not_lt hshort
  have hnumber : readU16 message 2 = some ((message[2].toNat <<< 8) ||| message[3].toNat) := by
    rw [readU16, List.getElem?_eq_getElem (by omega), List.getElem?_eq_getElem (by omega)]
    rfl
  rw [if_neg hshort, List.getElem?_eq_getElem (by omega), List.getElem?_eq_getElem (by omega), hnumber, readBytes,
    if_pos (by omega), readBytes, if_pos (by omega)]
  simp only [Option.bind_some]
  split_ifs with hparsed
  · obtain ⟨-, -, hfits, -, -, -⟩ := hparsed
    set messageLength := (message[2].toNat <<< 8) ||| message[3].toNat
    have hbody : (message.take 20).length + ((message.drop 20).take messageLength).length = 20 + messageLength := by
      rw [List.length_take, List.length_take, List.length_drop]
      omega
    obtain ⟨result, hresult⟩ := @parseLoop_total secret (message[1] == 0x01) (message.take 20)
      ((message.drop 20).take messageLength) ((message.drop 20).drop messageLength) _ hbody false zeroAddr
    rw [List.take_append_drop, List.take_append_drop, List.length_take, Nat.min_eq_left hlength] at hresult
    rw [hresult]
    exact ⟨_, rfl⟩
  · exact ⟨_, rfl⟩

/-! ### Padding -/

/-- An attribute of a response: one that may be ignored, or an address. -/
def PaddedAttribute.Sent (a : PaddedAttribute) : Prop := a.Optional ∨ a.type = 0x0020

/-- The type of an attribute that is sent does not start with the byte 0x20. -/
lemma PaddedAttribute.Sent.head_wire {a : PaddedAttribute} (ha : a.Sent) :
    ∃ rest, a.wire = UInt8.ofNat (a.type.toNat / 256) :: rest ∧ UInt8.ofNat (a.type.toNat / 256) ≠ 0x20 := by
  refine ⟨_, rfl, fun h => ?_⟩
  have htype := a.type.toNat_lt
  have hnat := congrArg UInt8.toNat h
  rw [Lib.toNat_ofNat_of_lt (by omega), show (0x20 : UInt8).toNat = 32 from rfl] at hnat
  rcases ha with hoptional | hmapped
  · rw [PaddedAttribute.Optional] at hoptional
    omega
  · rw [hmapped] at hnat
    exact absurd hnat (by decide)

/-- An attribute that is accepted does not start with the byte 0, except for the one of an address. -/
lemma Attribute.Accepted.head_bytes {a : Attribute} (ha : a.Accepted) {rest tail : List UInt8}
    (h : a.bytes ++ rest = 0 :: tail) : ∃ tail', tail = 0x20 :: tail' := by
  obtain ⟨hhead, htail⟩ := List.cons.inj h
  have htype := a.type.toNat_lt
  rcases ha with ⟨hmapped, -⟩ | hoptional
  · rw [hmapped] at htail
    exact ⟨_, htail.symm⟩
  · have hnat := congrArg UInt8.toNat hhead
    rw [Lib.toNat_ofNat_of_lt (by omega), UInt8.toNat_zero] at hnat
    omega

/-- What is padded with zeros can not be read without padding. -/
lemma lengths_of_readsUnpadded {attrs : List PaddedAttribute} (hsent : ∀ a ∈ attrs, a.Sent)
    (hzero : ∀ a ∈ attrs, ∀ byte ∈ a.padding, byte = 0) {read : List Attribute}
    (hread : attrs.flatMap PaddedAttribute.wire = read.flatMap Attribute.bytes) (haccepted : ∀ a ∈ read, a.Accepted) :
    ∀ a ∈ attrs, a.value.length % 4 = 0 := by
  induction attrs generalizing read with
  | nil =>
    rintro a ha
    exact absurd ha List.not_mem_nil
  | cons a attrs ih =>
    rw [List.forall_mem_cons] at hsent hzero ⊢
    rw [List.flatMap_cons, PaddedAttribute.wire, List.append_assoc] at hread
    rcases read with _ | ⟨b, read⟩
    · have hlt := length_append_lt a.toAttribute (a.padding ++ attrs.flatMap PaddedAttribute.wire)
      rw [hread] at hlt
      exact absurd hlt (Nat.not_lt_zero _)
    rw [List.flatMap_cons] at hread
    rw [List.forall_mem_cons] at haccepted
    obtain ⟨-, hrest⟩ := bytes_append_inj hread
    have hpadded := a.padded
    rcases hpadding : a.padding with _ | ⟨byte, padding⟩
    · rw [hpadding] at hpadded hrest
      rw [List.length_nil] at hpadded
      exact ⟨by omega, ih hsent.2 hzero.2 hrest haccepted.2⟩
    -- the padding is taken for the start of an attribute
    exfalso
    have hbyte : byte = 0 := hzero.1 byte (hpadding ▸ List.mem_cons_self)
    rw [hpadding, hbyte] at hrest
    rcases read with _ | ⟨c, read⟩
    · exact List.cons_ne_nil _ _ hrest
    obtain ⟨tail, htail⟩ := (haccepted.2 c List.mem_cons_self).head_bytes hrest.symm
    rcases padding with _ | ⟨byte', padding⟩
    · rcases attrs with _ | ⟨d, attrs⟩
      · exact List.cons_ne_nil _ _ htail.symm
      · obtain ⟨rest, hwire, hhead⟩ := (hsent.2 d List.mem_cons_self).head_wire
        have hd : d.wire ++ attrs.flatMap PaddedAttribute.wire = 0x20 :: tail := htail
        rw [hwire] at hd
        exact hhead (List.cons.inj hd).1
    · have hbyte' : byte' = 0 := hzero.1 byte' (hpadding ▸ List.mem_cons_of_mem _ List.mem_cons_self)
      have h := (List.cons.inj htail).1
      rw [hbyte'] at h
      exact absurd h (by decide)

lemma wire_of_length {a : PaddedAttribute} (ha : a.value.length % 4 = 0) : a.wire = a.bytes := by
  have hpadded := a.padded
  rw [ha] at hpadded
  rw [PaddedAttribute.wire, List.eq_nil_of_length_eq_zero hpadded, List.append_nil]

lemma address_of_optional {a : PaddedAttribute} (ha : a.Optional) : a.address secret = none := by
  rw [Attribute.address, if_neg]
  rintro h
  rw [PaddedAttribute.Optional, h] at ha
  exact absurd ha (by decide)

section Conforming

variable {before after : List PaddedAttribute}

/-- Without padding, the parser finds the address. -/
lemma readsUnpadded_of_lengths (haddr : addr.Plain) (reserved : UInt8)
    (hoptional : ∀ a ∈ before ++ after, a.Optional) (hlengths : ∀ a ∈ before ++ after, a.value.length % 4 = 0) :
    ReadsUnpadded secret ((before ++ mappedAddress secret reserved addr :: after).flatMap PaddedAttribute.wire)
      addr := by
  rw [List.forall_mem_append] at hoptional hlengths
  have hmapped : (mappedAddress secret reserved addr).value.length % 4 = 0 := by
    rcases length_mappedValue secret reserved addr with h | h
    · exact congrArg (· % 4) h
    · exact congrArg (· % 4) h
  refine ⟨(before ++ mappedAddress secret reserved addr :: after).map PaddedAttribute.toAttribute, ?_, ?_, ?_⟩
  · rw [List.flatMap_map]
    refine List.flatMap_congr fun a ha => wire_of_length ?_
    rcases List.mem_append.1 ha with h | h
    · exact hlengths.1 a h
    · rcases List.mem_cons.1 h with rfl | h
      · exact hmapped
      · exact hlengths.2 a h
  · rw [List.forall_mem_map, List.forall_mem_append, List.forall_mem_cons]
    exact ⟨fun a ha => .inr (hoptional.1 a ha), accepted_mappedAddress secret reserved addr,
      fun a ha => .inr (hoptional.2 a ha)⟩
  · have hbefore : before.findSome? (Attribute.address secret ∘ PaddedAttribute.toAttribute) = none :=
      List.findSome?_eq_none_iff.2 fun a ha => address_of_optional (hoptional.1 a ha)
    rw [List.findSome?_map, List.findSome?_append, hbefore, Option.none_or, List.findSome?_cons, Function.comp_apply,
      address_mappedAddress secret reserved haddr]

/-- With zeros as padding, the parser finds the address if and only if no attribute needs padding. -/
lemma stunMessageParse_zero_iff (haddr : addr.Plain) (reserved : UInt8)
    (hoptional : ∀ a ∈ before ++ after, a.Optional)
    (hsmall : ((before ++ mappedAddress secret reserved addr :: after).flatMap PaddedAttribute.wire).length < 2 ^ 16)
    (hzero : ∀ a ∈ before ++ after, ∀ byte ∈ a.padding, byte = 0) :
    stunMessageParse (response secret (before ++ mappedAddress secret reserved addr :: after)) secret =
        some (false, true, addr) ↔
      ∀ a ∈ before ++ after, a.value.length % 4 = 0 := by
  refine (stunMessageParse_response secret _ hsmall addr).trans
    ⟨?_, readsUnpadded_of_lengths haddr reserved hoptional⟩
  rintro ⟨read, hread, haccepted, -⟩
  have hsent : ∀ a ∈ before ++ mappedAddress secret reserved addr :: after, a.Sent := by
    rw [List.forall_mem_append] at hoptional
    rw [List.forall_mem_append, List.forall_mem_cons]
    exact ⟨fun a ha => .inl (hoptional.1 a ha), .inr rfl, fun a ha => .inl (hoptional.2 a ha)⟩
  have hpadding : ∀ a ∈ before ++ mappedAddress secret reserved addr :: after, ∀ byte ∈ a.padding, byte = 0 := by
    rw [List.forall_mem_append] at hzero
    rw [List.forall_mem_append, List.forall_mem_cons]
    exact ⟨hzero.1, fun byte hbyte => absurd hbyte List.not_mem_nil, hzero.2⟩
  have hlengths := lengths_of_readsUnpadded hsent hpadding hread haccepted
  rw [List.forall_mem_append, List.forall_mem_cons] at hlengths
  rw [List.forall_mem_append]
  exact ⟨hlengths.1, hlengths.2.2⟩

end Conforming

/-- The parser ends for every message and reads inside of it.  For a response that conforms to the RFC it returns the
address if and only if what is behind the header can be read without padding; where the padding is zero, if and only if
no attribute needs one. -/
theorem stunMessageParse_conforming_iff (secret : Vector UInt8 12) :
    (∀ message : List UInt8, ∃ result, stunMessageParse message secret = some result) ∧
    ∀ (before after : List PaddedAttribute) (reserved : UInt8) (addr : NETADDR),
      addr.Plain → (∀ a ∈ before ++ after, a.Optional) →
      ((before ++ mappedAddress secret reserved addr :: after).flatMap PaddedAttribute.wire).length < 2 ^ 16 →
        (stunMessageParse (response secret (before ++ mappedAddress secret reserved addr :: after)) secret =
            some (false, true, addr) ↔
          ReadsUnpadded secret
            ((before ++ mappedAddress secret reserved addr :: after).flatMap PaddedAttribute.wire) addr) ∧
        ((∀ a ∈ before ++ after, ∀ byte ∈ a.padding, byte = 0) →
          (stunMessageParse (response secret (before ++ mappedAddress secret reserved addr :: after)) secret =
              some (false, true, addr) ↔
            ∀ a ∈ before ++ after, a.value.length % 4 = 0)) := by
  refine ⟨fun message => stunMessageParse_total message secret,
    fun before after reserved addr haddr hoptional hsmall => ⟨?_, ?_⟩⟩
  · exact stunMessageParse_response secret _ hsmall addr
  · exact stunMessageParse_zero_iff haddr reserved hoptional hsmall

/-- The transaction of the samples. -/
def sampleSecret : Vector UInt8 12 := Vector.replicate 12 0

/-- The address of the samples. -/
def sampleAddr : NETADDR := ⟨nettypeIpv4, #v[1, 2, 3, 4, 0, 0, 0, 0, 0, 0, 0, 0, 0, 0, 0, 0], 5⟩

/-- A name of the software with `n` bytes. -/
def sampleSoftware (n : ℕ) (hn : n < 2 ^ 16) : PaddedAttribute where
  type := 0x8022
  value := List.replicate n 0x61
  small := by rwa [List.length_replicate]
  padding := List.replicate ((4 - n % 4) % 4) 0
  padded := by rw [List.length_replicate, List.length_replicate]

/-- A name of four bytes in front of the address is read over. -/
theorem stunMessageParse_four_bytes :
    stunMessageParse
        (response sampleSecret ([sampleSoftware 4 (by decide)] ++ mappedAddress sampleSecret 0 sampleAddr :: []))
        sampleSecret = some (false, true, sampleAddr) :=
  (((stunMessageParse_conforming_iff sampleSecret).2 [sampleSoftware 4 (by decide)] [] 0 sampleAddr (.inl ⟨rfl, rfl⟩)
    (by decide) (by decide)).2 (by simp [sampleSoftware])).2 (by decide)

/-- A name of one byte in front of the address makes the parser fail. -/
theorem stunMessageParse_one_byte :
    ¬∀ (secret : Vector UInt8 12) (before after : List PaddedAttribute) (reserved : UInt8) (addr : NETADDR),
      addr.Plain → (∀ a ∈ before ++ after, a.Optional) →
      ((before ++ mappedAddress secret reserved addr :: after).flatMap PaddedAttribute.wire).length < 2 ^ 16 →
        stunMessageParse (response secret (before ++ mappedAddress secret reserved addr :: after)) secret =
          some (false, true, addr) := by
  rintro h
  have hparse := h sampleSecret [sampleSoftware 1 (by decide)] [] 0 sampleAddr (.inl ⟨rfl, rfl⟩) (by decide) (by decide)
  have hlengths := (stunMessageParse_zero_iff (.inl ⟨rfl, rfl⟩) 0 (by decide) (by decide)
    (by simp [sampleSoftware])).1 hparse
  exact absurd hlengths (by decide)

end Stun

end DDNet
