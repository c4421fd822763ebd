/-
The key bindings (`CBinds`, `game/client/components/binds.cpp`): the lines that are saved for them, and the bindings
after the console has executed these lines.

A line is built in a buffer with room for twice the text and 30 more bytes, which the command, the modifiers and the name
of the key may not leave enough of, and the console reads no more than 8192 bytes of it.  The bindings are restored if
and only if no line is too long and no text ends in a part of a code point (`loadsBack_iff`).
-/
import DDNet.Shared.ConsoleInteger
import Mathlib.Data.List.ProdSigma

namespace DDNet

open Lib.Json (decimal)

/-- `KEY_LAST`. -/
def keyLast : ℕ := 512

/-- `MODIFIER_COMBINATION_COUNT`. -/
def modifierCombinationCount : ℕ := 32

/-- `+` -/
def plus : UInt8 := 43

/-! ### Tokens -/

/-- `str_token_get`: the text that starts with the token, and the length of the token. -/
def strTokenGet (str delim : List UInt8) : Option (List UInt8 × ℕ) :=
  let len := (str.takeWhile (· ∈ delim)).length
  let str := if len > 1 then str.tail else str.drop len
  if str = [] then none else some (str, (str.takeWhile (· ∉ delim)).length)

/-- `str_next_token` with a buffer of `bufferSize` bytes: what is in the buffer, and what follows the token. -/
def strNextToken (str delim : List UInt8) (bufferSize : ℕ) : List UInt8 × Option (List UInt8) :=
  match strTokenGet str delim with
  | none => ([], none)
  | some (tok, len) =>
    let len := if bufferSize > len then len else bufferSize - 1
    (tok.take len, some (tok.drop len))

lemma length_strNextToken {str delim rest : List UInt8} {bufferSize : ℕ}
    (h : (strNextToken str delim bufferSize).2 = some rest) : rest.length ≤ str.length := by
  have hget : ∀ tok len, strTokenGet str delim = some (tok, len) → tok.length ≤ str.length := by
    intro tok len htok
    rw [strTokenGet] at htok
    split_ifs at htok with hlen
    · obtain ⟨rfl, -⟩ := Prod.mk.inj (Option.some.inj htok)
      exact (List.tail_sublist str).length_le
    · obtain ⟨rfl, -⟩ := Prod.mk.inj (Option.some.inj htok)
      exact (List.drop_sublist _ str).length_le
  rw [strNextToken] at h
  cases htok : strTokenGet str delim with
  | none =>
    rw [htok] at h
    exact absurd h (Option.some_ne_none _).symm
  | some tok =>
    rw [htok] at h
    obtain rfl := Option.some.inj h
    exact (List.drop_sublist _ tok.1).length_le.trans (hget tok.1 tok.2 htok)

/-! ### Modifiers and keys -/

/-- `MODIFIER_CTRL`, `MODIFIER_ALT`, `MODIFIER_SHIFT` and `MODIFIER_GUI`. -/
inductive Modifier where
  | ctrl
  | alt
  | shift
  | gui
deriving DecidableEq

namespace Modifier

/-- The number of the modifier. -/
def toNat : Modifier → ℕ
  | ctrl => 1
  | alt => 2
  | shift => 3
  | gui => 4

/-- `GetModifierName`. -/
def name : Modifier → List UInt8
  | ctrl => ofChars ['c', 't', 'r', 'l']
  | alt => ofChars ['a', 'l', 't']
  | shift => ofChars ['s', 'h', 'i', 'f', 't']
  | gui => ofChars ['g', 'u', 'i']

/-- The modifiers in the order of their numbers. -/
def all : List Modifier := [ctrl, alt, shift, gui]

end Modifier

/-- `GetKeyBindModifiersName` with a buffer of `bufSize` bytes. -/
def getKeyBindModifiersName (modifierCombination bufSize : ℕ) : List UInt8 :=
  Modifier.all.foldl (fun buf modifier =>
    if modifierCombination.testBit modifier.toNat then
      strAppend (strAppend buf modifier.name bufSize) [plus] bufSize
    else buf) []

/-- `FindKeyByName` with the table of the names. -/
def findKeyByName (keyName : ℕ → List UInt8) (name : List UInt8) : ℕ :=
  let key := strToint name.tail
  if name.head? = some 38 ∧ 0 < key ∧ key < keyLast then key.toNat
  else ((List.range keyLast).find? fun key => strCompNocase name (keyName key) == .eq).getD 0

lemma findKeyByName_lt (keyName : ℕ → List UInt8) (name : List UInt8) : findKeyByName keyName name < keyLast := by
  rw [findKeyByName]
  split_ifs with h
  · omega
  · cases hfind : (List.range keyLast).find? fun key => strCompNocase name (keyName key) == .eq with
    | none => exact (by decide : 0 < keyLast)
    | some key => exact List.mem_range.1 (List.mem_of_find?_eq_some hfind)

/-- What the names in the table have in common; an entry of the table has 20 bytes. -/
structure PlainKeyName (name : List UInt8) : Prop where
  nonempty : name ≠ []
  short : name.length < 20
  ascii : ∀ c ∈ name, c < 128
  noSpace : ∀ c ∈ name, strIsSpace c = false
  noQuote : quote ∉ name
  noPlus : plus ∉ name
  noBackslash : backslash ∉ name
  noSeparator : ∀ c ∈ name, isSeparator c = false

/-- The names of the keys, `KeyName`, which `FindKeyByName` finds again. -/
structure KeyNames where
  keyName : ℕ → List UInt8
  plain : ∀ key < keyLast, PlainKeyName (keyName key)
  inverse : ∀ key < keyLast, findKeyByName keyName (keyName key) = key

/-- A combination of modifiers: a bit for each of them, and none for `MODIFIER_NONE`. -/
@[ext]
structure ModifierMask where
  bits : ℕ
  lt : bits < modifierCombinationCount
  noNone : bits.testBit 0 = false

namespace ModifierMask

/-- No modifier. -/
def none : ModifierMask := ⟨0, by decide, rfl⟩

/-- The combination with one more modifier. -/
def set (mask : ModifierMask) (modifier : Modifier) : ModifierMask where
  bits := mask.bits ||| 1 <<< modifier.toNat
  lt := Nat.or_lt_two_pow (n := 5) mask.lt (by cases modifier <;> decide)
  noNone := by
    rw [Nat.testBit_or, mask.noNone]
    cases modifier <;> decide

@[simp] lemma set_bits (mask : ModifierMask) (modifier : Modifier) :
    (mask.set modifier).bits = mask.bits ||| 1 <<< modifier.toNat := rfl

end ModifierMask

/-- `CBindSlot`. -/
structure CBindSlot where
  key : ℕ
  modifierMask : ModifierMask
  key_lt : key < keyLast

namespace CBindSlot

/-- The slot of the key with the name. -/
def ofName (keyName : ℕ → List UInt8) (name : List UInt8) (mask : ModifierMask) : CBindSlot :=
  ⟨findKeyByName keyName name, mask, findKeyByName_lt keyName name⟩

end CBindSlot

/-- The modifier that `GetBindSlot` recognises. -/
def findModifier (aMod : List UInt8) : Option Modifier :=
  [Modifier.shift, Modifier.ctrl, Modifier.alt, Modifier.gui].find? fun modifier =>
    strCompNocase aMod modifier.name == .eq

/-- The end of `GetBindSlot`; without a result where the name would be read from behind the end of the string. -/
def endBindSlot (keyName : ℕ → List UInt8) (aMod : List UInt8) (pKey : Option (List UInt8)) (mask : ModifierMask) :
    Option CBindSlot :=
  if mask.bits = 0 then some (CBindSlot.ofName keyName aMod mask)
  else
    match pKey with
    | some (_ :: name) => some (CBindSlot.ofName keyName name mask)
    | _ => none

/-- The loop of `GetBindSlot`. -/
def bindSlotLoop (keyName : ℕ → List UInt8) (aMod : List UInt8) (pKey : Option (List UInt8)) (mask : ModifierMask) :
    Option CBindSlot :=
  match pKey with
  | some (c :: name) =>
    if aMod = [] then endBindSlot keyName aMod (some (c :: name)) mask
    else
      match findModifier aMod with
      | none => some ⟨0, ModifierMask.none, by decide⟩
      | some modifier =>
        if plus ∈ name then
          match _h : (strNextToken name [plus] 32).2 with
          | none => endBindSlot keyName (strNextToken name [plus] 32).1 none (mask.set modifier)
          | some rest => bindSlotLoop keyName (strNextToken name [plus] 32).1 (some rest) (mask.set modifier)
        else endBindSlot keyName aMod (some (c :: name)) (mask.set modifier)
  | _ => endBindSlot keyName aMod pKey mask
termination_by (pKey.getD []).length
decreasing_by exact Nat.lt_succ_of_le (length_strNextToken _h)

/-- `GetBindSlot`. -/
def getBindSlot (keyName : ℕ → List UInt8) (bindString : List UInt8) : Option CBindSlot :=
  bindSlotLoop keyName (strNextToken bindString [plus] 32).1 (strNextToken bindString [plus] 32).2 ModifierMask.none

/-! ### The bindings -/

/-- `CBinds`: the texts by modifiers and keys.  Only slots of a key that is known are bound. -/
@[ext]
structure CBinds where
  keyBindings : ℕ → ℕ → Option (List UInt8)
  slots : ∀ {mask key text}, keyBindings mask key = some text →
    (∃ modifierMask : ModifierMask, modifierMask.bits = mask) ∧ 0 < key ∧ key < keyLast

namespace CBinds

/-- `UnbindAll`. -/
def unbindAll : CBinds := ⟨fun _ _ => none, fun h => absurd h (Option.some_ne_none _).symm⟩

/-- `Get`. -/
def get (binds : CBinds) (key mask : ℕ) : List UInt8 := (binds.keyBindings mask key).getD []

/-- `Bind`, for a key that is known. -/
def bind (binds : CBinds) (slot : CBindSlot) (hkey : slot.key ≠ 0) (str : List UInt8) (freeOnly : Bool) : CBinds :=
  if freeOnly = true ∧ binds.get slot.key slot.modifierMask.bits ≠ [] then binds
  else
    { keyBindings := fun mask key =>
        if mask = slot.modifierMask.bits ∧ key = slot.key then
          if str = [] then none else some (strCopy (str.length + 1) str)
        else binds.keyBindings mask key
      slots := by
        intro mask key text h
        split_ifs at h with hslot
        · exact ⟨⟨slot.modifierMask, hslot.1.symm⟩, hslot.2 ▸ Nat.pos_of_ne_zero hkey, hslot.2 ▸ slot.key_lt⟩
        · exact binds.slots h }

/-- `ConBind`. -/
def conBind (keyName : ℕ → List UInt8) (result : CResult) (binds : CBinds) : CBinds :=
  match getBindSlot keyName (result.getString 0) with
  | none => binds
  | some slot =>
    if hkey : slot.key = 0 then binds
    else if result.args.length = 1 then binds
    else binds.bind slot hkey (result.getString 1) false

/-- `ConUnbind`. -/
def conUnbind (keyName : ℕ → List UInt8) (result : CResult) (binds : CBinds) : CBinds :=
  match getBindSlot keyName (result.getString 0) with
  | none => binds
  | some slot => if hkey : slot.key = 0 then binds else binds.bind slot hkey [] false

end CBinds

/-- The line for a binding, in a buffer of as many bytes as the source takes for it. -/
def bindLine (keyName : ℕ → List UInt8) (mask key : ℕ) (text : List UInt8) : List UInt8 :=
  let size := text.length * 2 + 30
  let buffer := strCopy size (ofChars ['b', 'i', 'n', 'd'] ++
    space :: (getKeyBindModifiersName mask 128 ++ keyName key ++ [space, quote]))
  strAppend (buffer ++ strEscape (size - buffer.length) text) [quote] size

/-- `ConfigSaveCallback`: the lines that are written. -/
def configSaveCallback (keyName : ℕ → List UInt8) (binds : CBinds) : List (List UInt8) :=
  ofChars ['u', 'n', 'b', 'i', 'n', 'd', 'a', 'l', 'l'] ::
    (List.range modifierCombinationCount ×ˢ List.range keyLast).filterMap fun (mask, key) =>
      (binds.keyBindings mask key).map (bindLine keyName mask key)

/-! ### The console -/

/-- The bindings, next to the rest of the program. -/
@[ext]
structure BindsState (W : Type) where
  binds : CBinds
  rest : W

/-- The console on which `bind`, `unbind`, `unbindall` and `binds` are registered, next to the other commands. -/
def bindsConsole {W : Type} (keyName : ℕ → List UInt8) (console : Console W) : Console (BindsState W) where
  settings s := console.settings s.rest
  callback command result s :=
    if command.name = ofChars ['b', 'i', 'n', 'd'] then { s with binds := s.binds.conBind keyName result }
    else if command.name = ofChars ['u', 'n', 'b', 'i', 'n', 'd'] then
      { s with binds := s.binds.conUnbind keyName result }
    else if command.name = ofChars ['u', 'n', 'b', 'i', 'n', 'd', 'a', 'l', 'l'] then
      { s with binds := CBinds.unbindAll }
    else if command.name = ofChars ['b', 'i', 'n', 'd', 's'] then s
    else { s with rest := console.callback command result s.rest }
  store command result s := { s with rest := console.store command result s.rest }
  unknownCommand str s := { s with rest := console.unknownCommand str s.rest }
  isColor := console.isColor
  validFloat := console.validFloat

/-- The lines are executed one after the other. -/
def executeSaved {W : Type} (console : Console W) (lines : List (List UInt8)) (clientId : ℤ) (w : W) : W :=
  lines.foldl (fun w line => (console.executeLine line clientId true w).1) w

/-! ### The slot of a line -/

/-- The modifiers of a combination, with what follows each of them. -/
def combination (mask : ℕ) : List UInt8 :=
  (Modifier.all.filter fun modifier => mask.testBit modifier.toNat).flatMap fun modifier => modifier.name ++ [plus]

lemma getKeyBindModifiersName_eq :
    ∀ mask < modifierCombinationCount, getKeyBindModifiersName mask 128 = combination mask := by
  decide +kernel

lemma bits_foldl_set (modifiers : List Modifier) (mask : ModifierMask) :
    (modifiers.foldl ModifierMask.set mask).bits =
      modifiers.foldl (fun bits modifier => bits ||| 1 <<< modifier.toNat) mask.bits := by
  induction modifiers generalizing mask with
  | nil => rfl
  | cons modifier modifiers ih => exact ih (mask.set modifier)

/-- A combination is set by its modifiers. -/
lemma foldl_set_modifiers (mask : ModifierMask) :
    (Modifier.all.filter fun modifier => mask.bits.testBit modifier.toNat).foldl ModifierMask.set ModifierMask.none =
      mask := by
  have hall : ∀ bits < modifierCombinationCount, bits.testBit 0 = false →
      (Modifier.all.filter fun modifier => bits.testBit modifier.toNat).foldl
        (fun bits modifier => bits ||| 1 <<< modifier.toNat) 0 = bits := by decide
  exact ModifierMask.ext ((bits_foldl_set _ _).trans (hall mask.bits mask.lt mask.noNone))

lemma strNextToken_plus {word rest : List UInt8} (hword : word ≠ []) (hplus : plus ∉ word) (hlen : word.length < 32)
    (hrest : rest = [] ∨ rest.head? = some plus) : strNextToken (word ++ rest) [plus] 32 = (word, some rest) := by
  have hstart : (word ++ rest).takeWhile (· ∈ [plus]) = [] := by
    obtain ⟨c, word, rfl⟩ := List.exists_cons_of_ne_nil hword
    rw [List.cons_append, List.takeWhile_cons_of_neg]
    simpa using fun h : c = plus => hplus (h ▸ List.mem_cons_self)
  have htoken : (word ++ rest).takeWhile (· ∉ [plus]) = word := by
    have hmem : ∀ c ∈ word, decide (c ∉ [plus]) = true := fun c hc => by
      simpa using fun h : c = plus => hplus (h ▸ hc)
    rw [List.takeWhile_append_of_pos hmem]
    rcases hrest with rfl | hrest
    · exact List.append_nil word
    · obtain ⟨rest, rfl⟩ := List.head?_eq_some_iff.1 hrest
      rw [List.takeWhile_cons_of_neg (by simp), List.append_nil]
  have hne : word ++ rest ≠ [] := fun h => hword (List.append_eq_nil_iff.1 h).1
  have hget : strTokenGet (word ++ rest) [plus] = some (word ++ rest, word.length) := by
    simp only [strTokenGet, hstart, htoken, List.length_nil, List.drop_zero, gt_iff_lt, not_lt_zero, if_false,
      if_neg hne]
  rw [strNextToken, hget]
  dsimp only
  rw [if_pos hlen, List.take_left, List.drop_left]

namespace Modifier

lemma name_plain (modifier : Modifier) :
    modifier.name ≠ [] ∧ plus ∉ modifier.name ∧ modifier.name.length < 32 := by
  cases modifier <;> decide

lemma findModifier_name (modifier : Modifier) : findModifier modifier.name = some modifier := by
  cases modifier <;> decide

end Modifier

lemma ModifierMask.set_ne_zero (mask : ModifierMask) (modifier : Modifier) : (mask.set modifier).bits ≠ 0 := by
  intro h
  have hbit : (mask.set modifier).bits.testBit modifier.toNat = true := by
    rw [ModifierMask.set_bits, Nat.testBit_or, Nat.one_shiftLeft, Nat.testBit_two_pow_self, Bool.or_true]
  rw [h, Nat.zero_testBit] at hbit
  exact Bool.false_ne_true hbit

section Slot

variable {keyName : ℕ → List UInt8} {name : List UInt8}

lemma bindSlotLoop_modifiers (hplus : plus ∉ name) (modifier : Modifier) (modifiers : List Modifier)
    (mask : ModifierMask) :
    bindSlotLoop keyName modifier.name
        (some (plus :: (modifiers.flatMap (fun modifier => modifier.name ++ [plus]) ++ name))) mask =
      some (CBindSlot.ofName keyName name (modifiers.foldl ModifierMask.set (mask.set modifier))) := by
  induction modifiers generalizing modifier mask with
  | nil =>
    rw [bindSlotLoop, if_neg modifier.name_plain.1, modifier.findModifier_name]
    dsimp only
    rw [List.flatMap_nil, List.nil_append, if_neg hplus, endBindSlot, if_neg (mask.set_ne_zero modifier)]
    rfl
  | cons next modifiers ih =>
    obtain ⟨hname, hnoPlus, hshort⟩ := next.name_plain
    have hrest : (next :: modifiers).flatMap (fun modifier => modifier.name ++ [plus]) ++ name =
        next.name ++ plus :: (modifiers.flatMap (fun modifier => modifier.name ++ [plus]) ++ name) := by
      rw [List.flatMap_cons, List.append_assoc, List.append_assoc, List.singleton_append]
    have hmem : plus ∈ next.name ++ plus :: (modifiers.flatMap (fun modifier => modifier.name ++ [plus]) ++ name) :=
      List.mem_append_right _ List.mem_cons_self
    have htoken := @strNextToken_plus next.name
      (plus :: (modifiers.flatMap (fun modifier => modifier.name ++ [plus]) ++ name)) hname hnoPlus hshort (.inr rfl)
    rw [hrest, bindSlotLoop, if_neg modifier.name_plain.1, modifier.findModifier_name]
    dsimp only
    rw [if_pos hmem]
    split
    · next h => exact absurd (h.symm.trans (congrArg Prod.snd htoken)) (Option.some_ne_none _).symm
    · next rest h =>
      obtain rfl := Option.some.inj (h.symm.trans (congrArg Prod.snd htoken))
      rw [htoken]
      exact ih next (mask.set modifier)

/-- The slot of a line is that of the modifiers and the name in it. -/
lemma getBindSlot_combination (hname : PlainKeyName name) (mask : ModifierMask) :
    getBindSlot keyName (combination mask.bits ++ name) = some (CBindSlot.ofName keyName name mask) := by
  have hmask := foldl_set_modifiers mask
  rw [getBindSlot, combination]
  generalize (Modifier.all.filter fun modifier => mask.bits.testBit modifier.toNat) = modifiers at hmask ⊢
  rcases modifiers with _ | ⟨modifier, modifiers⟩
  · have htoken := @strNextToken_plus name [] hname.nonempty hname.noPlus (hname.short.trans (by decide)) (.inl rfl)
    rw [List.append_nil] at htoken
    have hend : bindSlotLoop keyName name (some []) ModifierMask.none =
        endBindSlot keyName name (some []) ModifierMask.none := by
      rw [bindSlotLoop]
      exact fun _ _ h => absurd (Option.some.inj h) (List.cons_ne_nil _ _).symm
    have hname' : endBindSlot keyName name (some []) ModifierMask.none =
        some (CBindSlot.ofName keyName name ModifierMask.none) := if_pos rfl
    rw [List.flatMap_nil, List.nil_append, htoken, hend, hname']
    exact congrArg (fun mask => some (CBindSlot.ofName keyName name mask)) hmask
  · obtain ⟨hne, hnoPlus, hshort⟩ := modifier.name_plain
    have htoken := @strNextToken_plus modifier.name
      (plus :: (modifiers.flatMap (fun modifier => modifier.name ++ [plus]) ++ name)) hne hnoPlus hshort (.inr rfl)
    rw [List.flatMap_cons, List.append_assoc, List.append_assoc, List.singleton_append, htoken,
      bindSlotLoop_modifiers hname.noPlus]
    exact congrArg (fun mask => some (CBindSlot.ofName keyName name mask)) hmask

end Slot

/-! ### The line of a binding -/

/-- The key with its modifiers, as it is in a line. -/
def slotName (keyName : ℕ → List UInt8) (mask key : ℕ) : List UInt8 := combination mask ++ keyName key

/-- What a line has before the text. -/
def bindHead (slot : List UInt8) : List UInt8 := ofChars ['b', 'i', 'n', 'd'] ++ space :: (slot ++ [space, quote])

/-- The line of a binding that is not cut. -/
def savedLine (slot text : List UInt8) : List UInt8 := bindHead slot ++ (escape text ++ [quote])

/-- The characters that have no meaning for the console, other than that they belong to an argument. -/
structure PlainSlot (slot : List UInt8) : Prop where
  nonempty : slot ≠ []
  ascii : ∀ c ∈ slot, c < 128
  noSpace : ∀ c ∈ slot, strIsSpace c = false
  plain : ∀ c ∈ slot, c ≠ quote ∧ c ≠ backslash ∧ isSeparator c = false

lemma plainSlot_slotName (names : KeyNames) {mask key : ℕ} (hmask : mask < modifierCombinationCount)
    (hkey : key < keyLast) : PlainSlot (slotName names.keyName mask key) := by
  have hmodifiers : ∀ mask < modifierCombinationCount, (combination mask).all (fun c =>
      c < 128 ∧ strIsSpace c = false ∧ c ≠ quote ∧ c ≠ backslash ∧ isSeparator c = false) = true := by decide +kernel
  have hcombination := List.all_iff_forall_prop.1 (hmodifiers mask hmask)
  have hname := names.plain key hkey
  constructor
  · exact fun h => hname.nonempty (List.append_eq_nil_iff.1 h).2
  · intro c hc
    rcases List.mem_append.1 hc with hc | hc
    · exact (hcombination c hc).1
    · exact hname.ascii c hc
  · intro c hc
    rcases List.mem_append.1 hc with hc | hc
    · exact (hcombination c hc).2.1
    · exact hname.noSpace c hc
  · intro c hc
    rcases List.mem_append.1 hc with hc | hc
    · exact (hcombination c hc).2.2
    · exact ⟨fun h => hname.noQuote (h ▸ hc), fun h => hname.noBackslash (h ▸ hc), hname.noSeparator c hc⟩

lemma strUtf8FixTruncation_of_ascii {str : List UInt8} (hstr : ∀ c ∈ str, c < 128) :
    strUtf8FixTruncation str = str := by
  rcases List.eq_nil_or_concat str with rfl | ⟨before, c, rfl⟩
  · rfl
  · rw [List.concat_eq_append] at hstr ⊢
    exact strUtf8FixTruncation_ascii before (hstr c (List.mem_append_right before List.mem_cons_self))

section Line

variable {slot text : List UInt8}

lemma ascii_bindHead (hslot : PlainSlot slot) : ∀ c ∈ bindHead slot, c < 128 := by
  have hbind : ∀ c ∈ ofChars ['b', 'i', 'n', 'd'], c < 128 := by simp [ofChars]
  intro c hc
  rw [bindHead, List.mem_append, List.mem_cons, List.mem_append, List.mem_pair] at hc
  rcases hc with hc | rfl | hc | rfl | rfl
  · exact hbind c hc
  · decide
  · exact hslot.ascii c hc
  · decide
  · decide

lemma bindHead_eq (slot rest : List UInt8) : bindHead slot ++ rest =
    ofChars ['b', 'i', 'n', 'd'] ++ space :: (slot ++ space :: quote :: rest) := by
  simp only [bindHead, List.append_assoc, List.cons_append, List.nil_append]

lemma length_savedLine (slot text : List UInt8) :
    (savedLine slot text).length = slot.length + (escape text).length + 8 := by
  have hbind : (ofChars ['b', 'i', 'n', 'd']).length = 4 := rfl
  rw [savedLine, bindHead_eq]
  simp only [List.length_append, List.length_cons, List.length_nil, hbind]
  omega

/-- A line is that of a part of the text, which is the text if the line fits the buffer, or it is cut before the last
quote. -/
lemma bindLine_cases (names : KeyNames) {mask key : ℕ} (hmask : mask < modifierCombinationCount) (hkey : key < keyLast)
    (text : List UInt8) :
    (∃ part, part <+: text ∧ bindLine names.keyName mask key text = savedLine (slotName names.keyName mask key) part ∧
      (part = text ↔ (savedLine (slotName names.keyName mask key) text).length < text.length * 2 + 30)) ∨
    ¬(savedLine (slotName names.keyName mask key) text).length < text.length * 2 + 30 ∧
      ∃ rest, bindLine names.keyName mask key text = ofChars ['b', 'i', 'n', 'd'] ++ space :: rest ∧
        rest <+: slotName names.keyName mask key ++ space :: quote :: escape text := by
  have hslot := plainSlot_slotName names hmask hkey
  have hline : bindLine names.keyName mask key text =
      strAppend (strCopy (text.length * 2 + 30) (bindHead (slotName names.keyName mask key)) ++
        strEscape (text.length * 2 + 30 -
          (strCopy (text.length * 2 + 30) (bindHead (slotName names.keyName mask key))).length) text) [quote]
        (text.length * 2 + 30) := by
    rw [bindLine, getKeyBindModifiersName_eq mask hmask]
    rfl
  rw [hline]
  clear hline
  generalize slotName names.keyName mask key = slot at hslot ⊢
  have hascii := ascii_bindHead hslot
  have hlength := length_savedLine slot text
  have hhead : (bindHead slot).length = slot.length + 7 := by
    rw [bindHead, List.length_append, List.length_cons, List.length_append]
    exact Nat.add_comm 4 _
  set size := text.length * 2 + 30 with hsize
  by_cases hfits : (bindHead slot).length < size
  · have hcopy : strCopy size (bindHead slot) = bindHead slot := by
      rw [strCopy, List.take_of_length_le (by omega), strUtf8FixTruncation_of_ascii hascii]
    obtain ⟨part, hpart, heq, hiff, hlt⟩ := strEscape_eq_escape (size - (bindHead slot).length) text (by omega)
    rw [hcopy, heq]
    by_cases hquote : (bindHead slot ++ (escape part ++ [quote])).length < size
    · left
      refine ⟨part, hpart, ?_, ?_⟩
      · rw [savedLine, ← List.append_assoc]
        rw [← List.append_assoc] at hquote
        exact @strAppend_ascii _ [] _ _ (by decide) hquote
      · rw [savedLine] at hlength ⊢
        rw [List.length_append, List.length_append, List.length_singleton] at hquote
        constructor
        · rintro rfl
          rw [List.length_append, List.length_append, List.length_singleton]
          exact hquote
        · intro h
          rw [hiff]
          omega
    · right
      rw [List.length_append, List.length_append, List.length_singleton] at hquote
      refine ⟨fun h => ?_, ?_⟩
      · rw [hiff.2 (by omega)] at hquote
        omega
      · have hcut : strAppend (bindHead slot ++ escape part) [quote] size =
            strCopy size (bindHead slot ++ escape part) := by
          rw [strAppend, strCopy, List.take_append_of_le_length (by rw [List.length_append]; omega)]
        rw [hcut, bindHead_eq]
        obtain ⟨rest, hrest, hcopy⟩ := @strCopy_ascii (ofChars ['b', 'i', 'n', 'd'])
          (slot ++ space :: quote :: escape part) space size (by decide) (by
            rw [← bindHead_eq, List.length_append]
            omega)
        refine ⟨rest, hcopy, hrest.trans ?_⟩
        have hescape : escape part <+: escape text := hpart.flatMap escapeChar
        exact (List.prefix_append_right_inj slot).2
          (List.cons_prefix_cons.2 ⟨rfl, List.cons_prefix_cons.2 ⟨rfl, hescape⟩⟩)
  · right
    refine ⟨by omega, ?_⟩
    have hcopy : strCopy size (bindHead slot) = (bindHead slot).take (size - 1) :=
      strUtf8FixTruncation_of_ascii fun c hc => hascii c (List.mem_of_mem_take hc)
    have hroom : size - ((bindHead slot).take (size - 1)).length = 1 := by
      rw [List.length_take]
      omega
    have hnone : strEscape 1 text = [] := by cases text <;> rfl
    have hcut : strAppend ((bindHead slot).take (size - 1)) [quote] size = (bindHead slot).take (size - 1) := by
      rw [strAppend, List.take_append_of_le_length (by rw [List.length_take]; omega), List.take_take, Nat.min_self]
      exact hcopy
    obtain ⟨n, hn⟩ : ∃ n, size - 1 = (ofChars ['b', 'i', 'n', 'd']).length + (n + 1) := ⟨size - 6, by
      rw [show (ofChars ['b', 'i', 'n', 'd']).length = 4 from rfl]
      omega⟩
    rw [hcopy, hroom, hnone, List.append_nil, hcut, bindHead, hn, List.take_length_add_append, List.take_succ_cons]
    refine ⟨_, rfl, (List.take_prefix _ _).trans ?_⟩
    exact (List.prefix_append_right_inj slot).2
      (List.cons_prefix_cons.2 ⟨rfl, List.cons_prefix_cons.2 ⟨rfl, List.nil_prefix⟩⟩)

end Line

/-! ### A line in one part -/

/-- The splitter goes to the end of what is in front of a text that it goes through. -/
lemma splitPart_isPrefix {inString : Bool} {str part : List UInt8} (hstr : splitPart true inString str = (str, none))
    (hpart : part <+: str) : splitPart true inString part = (part, none) := by
  fun_induction splitPart true inString str generalizing part with
  | case1 =>
    obtain rfl := List.prefix_nil.1 hpart
    rfl
  | case2 inString str read next heq ih =>
    obtain ⟨hread, rfl⟩ := Prod.mk.inj hstr
    rw [(List.cons.inj hread).2] at heq
    rcases List.prefix_cons_iff.1 hpart with rfl | ⟨part, rfl, htail⟩
    · rfl
    · rw [splitPart_quote, ih heq htail]
      rfl
  | case3 inString hquote =>
    rcases List.prefix_cons_iff.1 hpart with rfl | ⟨part, rfl, htail⟩
    · rfl
    · obtain rfl := List.prefix_nil.1 htail
      rfl
  | case4 inString str read next heq hquote ih =>
    obtain ⟨hread, rfl⟩ := Prod.mk.inj hstr
    rw [(List.cons.inj (List.cons.inj hread).2).2] at heq
    rcases List.prefix_cons_iff.1 hpart with rfl | ⟨part, rfl, htail⟩
    · rfl
    · rcases List.prefix_cons_iff.1 htail with rfl | ⟨part, rfl, htail'⟩
      · rfl
      · rw [splitPart_escaped, ih heq htail']
        rfl
  | case5 inString d str hd read next heq hquote ih =>
    obtain ⟨hread, rfl⟩ := Prod.mk.inj hstr
    rw [(List.cons.inj hread).2] at heq
    rcases List.prefix_cons_iff.1 hpart with rfl | ⟨part, rfl, htail⟩
    · rfl
    · have hhead : part.head? ≠ some quote := by
        rcases List.prefix_cons_iff.1 htail with rfl | ⟨part, rfl, -⟩
        · exact (Option.some_ne_none quote).symm
        · exact head?_cons_ne hd part
      rw [splitPart_backslash hhead, ih heq htail]
      rfl
  | case6 => exact absurd (Prod.mk.inj hstr).2 (Option.some_ne_none _)
  | case7 => exact absurd (Prod.mk.inj hstr).1 (List.cons_ne_nil _ _).symm
  | case8 inString c str hquote hbackslash hsep hhash read next heq ih =>
    obtain ⟨hread, rfl⟩ := Prod.mk.inj hstr
    rw [(List.cons.inj hread).2] at heq
    rcases List.prefix_cons_iff.1 hpart with rfl | ⟨part, rfl, htail⟩
    · rfl
    · have hplain : inString = true ∨ isSeparator c = false := by
        cases inString with
        | true => exact .inl rfl
        | false =>
          rw [isSeparator, Bool.or_eq_false_iff]
          exact .inr ⟨by simpa using hsep, by simpa using hhash⟩
      rw [splitPart_char hquote hbackslash hplain, ih heq htail]
      rfl

lemma splitPart_append {text : List UInt8} (htext : ∀ c ∈ text, c ≠ quote ∧ c ≠ backslash ∧ isSeparator c = false)
    (rest : List UInt8) : splitPart true false (text ++ rest) = prependPart text (splitPart true false rest) := by
  induction text with
  | nil => rfl
  | cons c text ih =>
    obtain ⟨hquote, hbackslash, hsep⟩ := htext c List.mem_cons_self
    rw [List.cons_append, splitPart_char hquote hbackslash (.inr hsep),
      ih fun d hd => htext d (List.mem_cons_of_mem c hd), prependPart_prependPart]
    rfl

lemma splitPart_savedLine {slot : List UInt8} (hslot : PlainSlot slot) (text : List UInt8) :
    splitPart true false (savedLine slot text) = (savedLine slot text, none) := by
  have hbind : ∀ c ∈ ofChars ['b', 'i', 'n', 'd'] ++ [space], c ≠ quote ∧ c ≠ backslash ∧ isSeparator c = false := by
    simp [ofChars, quote, backslash, isSeparator, semicolon, hash, space]
  have hplain : ∀ c ∈ ofChars ['b', 'i', 'n', 'd'] ++ [space] ++ slot,
      c ≠ quote ∧ c ≠ backslash ∧ isSeparator c = false := by
    intro c hc
    rcases List.mem_append.1 hc with hc | hc
    · exact hbind c hc
    · exact hslot.plain c hc
  have hline : savedLine slot text = ofChars ['b', 'i', 'n', 'd'] ++ [space] ++ slot ++ renderArg text := by
    rw [savedLine, bindHead_eq, renderArg]
    simp only [List.append_assoc, List.cons_append, List.nil_append]
  have harg : splitPart true false (renderArg text) = (renderArg text, none) := by
    have h := @splitPart_renderArg false text (fun h => Bool.noConfusion h) []
    rwa [List.append_nil, prependPart, splitPart, List.append_nil] at h
  rw [hline, splitPart_append hplain, harg]
  rfl

/-! ### The arguments of a line -/

section Parse

variable {validFloat : List UInt8 → Bool} {isColor : Bool} {word rest text : List UInt8}

lemma parseArg_string {str : List UInt8} (hstr : str.head? ≠ some quote) (result : CResult) :
    parseArg validFloat isColor 115 str result =
      .ok (result.addArgument (strToken str), some (strSkipToWhitespace str).tail) := by
  rw [parseArg, if_neg hstr, if_neg (by decide)]
  simp

/-- The first parameter takes a word. -/
lemma parseParams_word (hword : word ≠ []) (hspace : ∀ c ∈ word, strIsSpace c = false)
    (hquote : word.head? ≠ some quote) (hrest : rest = [] ∨ rest.head? = some space) (result : CResult) :
    parseParams validFloat isColor false [115, 63, 114] (word ++ rest) result =
      parseParams validFloat isColor true [114] rest.tail (result.addArgument word) := by
  have hskip : strSkipWhitespaces (word ++ rest) = word ++ rest := by
    obtain ⟨c, word, rfl⟩ := List.exists_cons_of_ne_nil hword
    rw [strSkipWhitespaces, List.cons_append, List.dropWhile_cons_of_neg]
    rw [hspace c List.mem_cons_self]
    exact Bool.false_ne_true
  have hhead : (word ++ rest).head? ≠ some quote := by
    rwa [List.head?_append_of_ne_nil word hword]
  rw [parseParams, if_neg (by decide), hskip]
  dsimp only
  rw [if_neg fun h => hword (List.append_eq_nil_iff.1 h).1, parseArg_string hhead, strToken_append hspace hrest,
    strSkipToWhitespace_append hspace hrest]
  exact if_pos rfl

/-- The text is the second argument. -/
lemma parseParams_text (text : List UInt8) (result : CResult) :
    parseParams validFloat isColor true [114] (quote :: (escape text ++ [quote])) result =
      .ok (result.addArgument text) := by
  have hskip : strSkipWhitespaces (quote :: (escape text ++ [quote])) = quote :: (escape text ++ [quote]) := rfl
  rw [parseParams, if_neg (by decide), hskip]
  dsimp only
  rw [if_neg (List.cons_ne_nil _ _), parseArg_quote (readQuoted_escape text [])]
  rfl

/-- Without its last quote, or with even less, a line has no second argument. -/
lemma parseParams_isPrefix {slot : List UInt8} (hslot : PlainSlot slot)
    (hrest : rest <+: slot ++ space :: quote :: escape text) {result result' : CResult}
    (h : parseParams validFloat isColor false [115, 63, 114] rest result = .ok result') :
    ∃ arg, result' = result.addArgument arg := by
  have hnil : ∀ result, parseParams validFloat isColor true [114] [] result = .ok result := fun _ => rfl
  have hhead : ∀ word, word <+: slot → word.head? ≠ some quote := by
    intro word hword hq
    obtain ⟨tail, rfl⟩ := List.head?_eq_some_iff.1 hq
    exact (hslot.plain quote (hword.subset List.mem_cons_self)).1 rfl
  rcases Nat.le_total rest.length slot.length with hle | hle
  · have hword : rest <+: slot := List.prefix_of_prefix_length_le hrest (List.prefix_append _ _) hle
    by_cases hne : rest = []
    · subst hne
      exact absurd h (by rintro ⟨⟩)
    · have hspace : ∀ c ∈ rest, strIsSpace c = false := fun c hc => hslot.noSpace c (hword.subset hc)
      rw [← List.append_nil rest, parseParams_word hne hspace (hhead rest hword) (.inl rfl), List.tail_nil, hnil] at h
      exact ⟨rest, (Except.ok.inj h).symm⟩
  · obtain ⟨tail, rfl⟩ := List.prefix_of_prefix_length_le (List.prefix_append _ _) hrest hle
    have htail : tail <+: space :: quote :: escape text := (List.prefix_append_right_inj slot).1 hrest
    have hspace : tail = [] ∨ tail.head? = some space := by
      rcases List.prefix_cons_iff.1 htail with rfl | ⟨tail, rfl, -⟩
      · exact .inl rfl
      · exact .inr rfl
    rw [parseParams_word hslot.nonempty hslot.noSpace (hhead slot List.prefix_rfl) hspace] at h
    rcases List.prefix_cons_iff.1 htail with rfl | ⟨tail, rfl, htext⟩
    · exact ⟨slot, (Except.ok.inj h).symm⟩
    · rw [List.tail_cons] at h
      rcases List.prefix_cons_iff.1 htext with rfl | ⟨text', rfl, htext'⟩
      · exact ⟨slot, (Except.ok.inj h).symm⟩
      · have hskip : strSkipWhitespaces (quote :: text') = quote :: text' := rfl
        rw [parseParams, if_neg (by decide), hskip] at h
        dsimp only at h
        rw [if_neg (List.cons_ne_nil _ _), parseArg, if_pos List.head?_cons, List.tail_cons,
          readQuoted_isPrefix htext'] at h
        exact absurd h (by rintro ⟨⟩)

end Parse

section Execution

variable {W : Type} {console : Console W} {clientId : ℤ} {command : CCommand} {w : W}

/-- What a line in one part does is what its command does. -/
lemma executeLine_part (hname : PlainName command.name) (hruns : Runs (console.settings w) clientId command)
    {rest : List UInt8} (hrest : rest = [] ∨ rest.head? = some space)
    (hsplit : splitPart true false (command.name ++ rest) = (command.name ++ rest, none)) {argsStart : List UInt8}
    (hstart : parseStart (command.name ++ rest) = (command.name, argsStart)) :
    (console.executeLine (command.name ++ rest) clientId true w).1 =
      match parseArgs console.validFloat (console.isColor command) command.params argsStart
        ⟨clientId, [], victimNone⟩ with
      | .error _ => w
      | .ok result => (console.runCalls command (Console.victims clientId result) w).1 := by
  have hne : command.name ++ rest ≠ [] := fun h => hname.nonempty (List.append_eq_nil_iff.1 h).1
  have hparts : lineParts true (command.name ++ rest) = [(command.name ++ rest, command.name ++ rest)] := by
    rw [lineParts_none hne (by rw [hsplit]), hsplit]
  have hmc : strStartswith (command.name ++ rest) (ofChars ['m', 'c', ';']) = none := by
    rw [strStartswith, if_neg]
    refine not_prefix_of_plainName hname ?_
    rcases hrest with rfl | hrest
    · exact (Option.some_ne_none _).symm
    · rw [hrest]
      decide
  have hpress := executePart_eq hname hruns hstart (command.name ++ rest)
  have hrelease (w' : W) := @executePart_release W console clientId command hname _ _ hstart (command.name ++ rest) w'
  rw [Console.executeLine]
  simp only [Console.executeLineStroked, hmc, hparts, Console.executeParts, hpress]
  cases parseArgs console.validFloat (console.isColor command) command.params argsStart ⟨clientId, [], victimNone⟩ with
  | error error =>
    obtain ⟨goesOn, hw⟩ := hrelease w
    cases goesOn <;> simp [hw]
  | ok result =>
    obtain ⟨goesOn, hw⟩ := hrelease (console.runCalls command (Console.victims clientId result) w).1
    cases goesOn <;> simp [hw]

end Execution

/-! ### What a line does -/

/-- What the console copies of a line. -/
lemma strCopy_line (after : List UInt8) : ∃ rest, rest <+: after ∧ rest.length + 5 ≤ consoleMaxStrLength ∧
    strCopy (min (consoleMaxStrLength + 1) ((ofChars ['b', 'i', 'n', 'd'] ++ space :: after).length + 1))
      (ofChars ['b', 'i', 'n', 'd'] ++ space :: after) = ofChars ['b', 'i', 'n', 'd'] ++ space :: rest := by
  have hmax : consoleMaxStrLength = (ofChars ['b', 'i', 'n', 'd']).length + (8187 + 1) := rfl
  have hcut : ∀ (line : List UInt8) (n : ℕ), line.take (min (n + 1) (line.length + 1) - 1) = line.take n := by
    intro line n
    rw [Nat.add_min_add_right, Nat.add_sub_cancel]
    rcases Nat.le_total n line.length with h | h
    · rw [Nat.min_eq_left h]
    · rw [Nat.min_eq_right h, List.take_length, List.take_of_length_le h]
  have htake : (ofChars ['b', 'i', 'n', 'd'] ++ space :: after).take consoleMaxStrLength =
      ofChars ['b', 'i', 'n', 'd'] ++ space :: after.take 8187 := by
    rw [hmax, List.take_length_add_append, List.take_succ_cons]
  obtain ⟨rest, hrest, hcopy⟩ := @strCopy_ascii (ofChars ['b', 'i', 'n', 'd']) (after.take 8187) space _ (by decide)
    (Nat.lt_add_one _)
  rw [strCopy, Nat.add_sub_cancel, List.take_length] at hcopy
  refine ⟨rest, hrest.trans (List.take_prefix _ _), ?_, by rw [strCopy, hcut, htake, hcopy]⟩
  have hle := hrest.length_le
  rw [List.length_take] at hle
  have h8192 : consoleMaxStrLength = 8192 := rfl
  omega

/-- The registered command `bind`. -/
structure IsBind (command : CCommand) : Prop where
  name : command.name = ofChars ['b', 'i', 'n', 'd']
  params : command.params = ofChars "s[key] ?r[command]".toList

lemma IsBind.params_eq {command : CCommand} (h : IsBind command) : DDNet.params command.params = [115, 63, 114] := by
  have hfirst : DDNet.params (ofChars "s[key] ?r[command]".toList) =
      115 :: DDNet.params (nextParam (ofChars "s[key] ?r[command]".toList)) := by exact DDNet.params.eq_2 _ _
  have hsecond : DDNet.params (ofChars "?r[command]".toList) =
      63 :: DDNet.params (nextParam (ofChars "?r[command]".toList)) := by exact DDNet.params.eq_2 _ _
  have hthird : DDNet.params (ofChars "r[command]".toList) =
      114 :: DDNet.params (nextParam (ofChars "r[command]".toList)) := by exact DDNet.params.eq_2 _ _
  rw [h.params, hfirst, show nextParam (ofChars "s[key] ?r[command]".toList) = ofChars "?r[command]".toList by decide,
    hsecond, show nextParam (ofChars "?r[command]".toList) = ofChars "r[command]".toList by decide, hthird,
    show nextParam (ofChars "r[command]".toList) = [] by decide, DDNet.params]

lemma plainName_bind : PlainName (ofChars ['b', 'i', 'n', 'd']) where
  nonempty := by decide
  ascii := List.all_iff_forall_prop.1 (by decide)
  noSpace := List.all_iff_forall_prop.1 (by decide)
  noQuote := by decide
  noBackslash := by decide
  noSeparator := List.all_iff_forall_prop.1 (by decide)
  noStroke := by decide
  noPrefix := by decide

lemma CBinds.conBind_singleton (keyName : ℕ → List UInt8) (clientId : ℤ) (arg : List UInt8) (binds : CBinds) :
    binds.conBind keyName (stringResult clientId [arg]) = binds := by
  rw [CBinds.conBind]
  cases getBindSlot keyName ((stringResult clientId [arg]).getString 0) with
  | none => rfl
  | some slot =>
    dsimp only
    split_ifs with hkey hargs
    · rfl
    · rfl
    · exact absurd rfl hargs

section Execution

variable {W : Type} {console : Console W} {clientId : ℤ} {command : CCommand} {s : BindsState W}
  {keyName : ℕ → List UInt8} {slot text line after : List UInt8}

/-- A line that runs `bind` with some arguments. -/
lemma executeLine_bind (hbind : IsBind command) (hruns : Runs (console.settings s.rest) clientId command)
    {rest : List UInt8} (hsplit : splitPart true false (ofChars ['b', 'i', 'n', 'd'] ++ space :: after) =
      (ofChars ['b', 'i', 'n', 'd'] ++ space :: after, none))
    (hcopy : strCopy (min (consoleMaxStrLength + 1) ((ofChars ['b', 'i', 'n', 'd'] ++ space :: after).length + 1))
      (ofChars ['b', 'i', 'n', 'd'] ++ space :: after) = ofChars ['b', 'i', 'n', 'd'] ++ space :: rest) :
    ((bindsConsole keyName console).executeLine (ofChars ['b', 'i', 'n', 'd'] ++ space :: after) clientId true s).1 =
      match parseParams console.validFloat (console.isColor command) false [115, 63, 114] rest
        ⟨clientId, [], victimNone⟩ with
      | .error _ => s
      | .ok result => ((bindsConsole keyName console).runCalls command (Console.victims clientId result) s).1 := by
  have hstart := parseStart_eq plainName_bind (.inr rfl) hcopy
  rw [← hbind.name] at hsplit hstart ⊢
  rw [@executeLine_part _ (bindsConsole keyName console) clientId command s (hbind.name ▸ plainName_bind) hruns _
    (.inr rfl) hsplit _ hstart, parseArgs, hbind.params_eq]
  rfl

/-- A line that is cut does nothing. -/
lemma executeLine_cut (hbind : IsBind command) (hruns : Runs (console.settings s.rest) clientId command)
    (hslot : PlainSlot slot) (hsplit : splitPart true false (ofChars ['b', 'i', 'n', 'd'] ++ space :: after) =
      (ofChars ['b', 'i', 'n', 'd'] ++ space :: after, none)) {rest : List UInt8}
    (hcopy : strCopy (min (consoleMaxStrLength + 1) ((ofChars ['b', 'i', 'n', 'd'] ++ space :: after).length + 1))
      (ofChars ['b', 'i', 'n', 'd'] ++ space :: after) = ofChars ['b', 'i', 'n', 'd'] ++ space :: rest)
    (hrest : rest <+: slot ++ space :: quote :: escape text) :
    ((bindsConsole keyName console).executeLine (ofChars ['b', 'i', 'n', 'd'] ++ space :: after) clientId true s).1 =
      s := by
  rw [executeLine_bind hbind hruns hsplit hcopy]
  cases hparse : parseParams console.validFloat (console.isColor command) false [115, 63, 114] rest
      ⟨clientId, [], victimNone⟩ with
  | error error => rfl
  | ok result =>
    obtain ⟨arg, rfl⟩ := parseParams_isPrefix hslot hrest hparse
    dsimp only
    rw [victims_of_none rfl]
    simp only [Console.runCalls, bindsConsole, hbind.name, if_true]
    rw [show (⟨clientId, [], victimNone⟩ : CResult).addArgument arg = stringResult clientId [arg] from rfl,
      CBinds.conBind_singleton]

/-- The line of a binding fits the buffer that it is written to, and the buffer of the console. -/
def LineFits (keyName : ℕ → List UInt8) (mask key : ℕ) (text : List UInt8) : Prop :=
  (savedLine (slotName keyName mask key) text).length < text.length * 2 + 30 ∧
    (savedLine (slotName keyName mask key) text).length ≤ consoleMaxStrLength

/-- The line of a binding binds a part of the text, which is the text if the line fits, or does nothing. -/
lemma executeLine_bindLine (names : KeyNames) (hbind : IsBind command)
    (hruns : Runs (console.settings s.rest) clientId command) {mask key : ℕ} (hmask : mask < modifierCombinationCount)
    (hkey : key < keyLast) (text : List UInt8) :
    (∃ part, part <+: text ∧ (part = text ↔ LineFits names.keyName mask key text) ∧
      ((bindsConsole names.keyName console).executeLine (bindLine names.keyName mask key text) clientId true s).1 =
        ⟨s.binds.conBind names.keyName (stringResult clientId [slotName names.keyName mask key, part]), s.rest⟩) ∨
    ¬LineFits names.keyName mask key text ∧
      ((bindsConsole names.keyName console).executeLine (bindLine names.keyName mask key text) clientId true s).1 =
        s := by
  have hslot := plainSlot_slotName names hmask hkey
  rcases bindLine_cases names hmask hkey text with ⟨part, hpart, hline, hiff⟩ | ⟨hcut, after, hline, hafter⟩
  · have hsplit := splitPart_savedLine hslot part
    have hlength := length_savedLine (slotName names.keyName mask key) part
    rw [hline]
    rw [savedLine, bindHead_eq] at hsplit
    by_cases hfits : (savedLine (slotName names.keyName mask key) part).length ≤ consoleMaxStrLength
    · left
      refine ⟨part, hpart, ⟨?_, fun h => hiff.2 h.1⟩, ?_⟩
      · rintro rfl
        exact ⟨hiff.1 rfl, hfits⟩
      · have hcopy := @strCopy_part (savedLine (slotName names.keyName mask key) part)
          ⟨bindHead (slotName names.keyName mask key) ++ escape part, quote, (List.append_assoc _ _ _).symm, by decide⟩
          hfits
        rw [savedLine, bindHead_eq] at hcopy ⊢
        rw [executeLine_bind hbind hruns hsplit hcopy, parseParams_word hslot.nonempty hslot.noSpace
          (fun h => (hslot.plain quote (List.mem_of_mem_head? h)).1 rfl) (.inr rfl), List.tail_cons, parseParams_text]
        dsimp only
        rw [victims_of_none rfl]
        simp only [Console.runCalls, bindsConsole, hbind.name, if_true]
        rfl
    · right
      obtain ⟨rest, hrest, hlen, hcopy⟩ := strCopy_line
        (slotName names.keyName mask key ++ space :: quote :: (escape part ++ [quote]))
      have hrest' : rest <+: slotName names.keyName mask key ++ space :: quote :: escape part := by
        refine List.prefix_of_prefix_length_le hrest ?_ ?_
        · exact (List.prefix_append_right_inj _).2 (List.cons_prefix_cons.2 ⟨rfl, List.cons_prefix_cons.2
            ⟨rfl, List.prefix_append _ _⟩⟩)
        · rw [List.length_append, List.length_cons, List.length_cons]
          omega
      refine ⟨fun h => hfits (hiff.2 h.1 ▸ h.2), ?_⟩
      rw [savedLine, bindHead_eq]
      exact executeLine_cut hbind hruns hslot hsplit hcopy hrest'
  · right
    obtain ⟨rest, hrest, -, hcopy⟩ := strCopy_line after
    have hstart : ofChars ['b', 'i', 'n', 'd'] ++ space :: after <+:
        savedLine (slotName names.keyName mask key) text := by
      rw [savedLine, bindHead_eq]
      refine (List.prefix_append_right_inj _).2 (List.cons_prefix_cons.2 ⟨rfl, hafter.trans ?_⟩)
      exact (List.prefix_append_right_inj _).2 (List.cons_prefix_cons.2 ⟨rfl, List.cons_prefix_cons.2
        ⟨rfl, List.prefix_append _ _⟩⟩)
    have hsplit := splitPart_isPrefix (splitPart_savedLine hslot text) hstart
    refine ⟨fun h => hcut h.1, ?_⟩
    rw [hline]
    exact executeLine_cut hbind hruns hslot hsplit hcopy (hrest.trans hafter)

end Execution

/-! ### What the bindings are after all lines -/

namespace CBinds

/-- The line of a slot binds this slot. -/
lemma keyBindings_conBind (names : KeyNames) (clientId : ℤ) (binds : CBinds) (mask : ModifierMask) {key : ℕ}
    (hpos : 0 < key) (hkey : key < keyLast) (text : List UInt8) (mask' key' : ℕ) :
    (binds.conBind names.keyName
        (stringResult clientId [slotName names.keyName mask.bits key, text])).keyBindings mask' key' =
      if mask' = mask.bits ∧ key' = key then if text = [] then none else some (strUtf8FixTruncation text)
      else binds.keyBindings mask' key' := by
  have hslot : getBindSlot names.keyName
      ((stringResult clientId [slotName names.keyName mask.bits key, text]).getString 0) =
        some (CBindSlot.ofName names.keyName (names.keyName key) mask) :=
    getBindSlot_combination (names.plain key hkey) mask
  have hfind : (CBindSlot.ofName names.keyName (names.keyName key) mask).key = key := names.inverse key hkey
  have htwo : ¬(stringResult clientId [slotName names.keyName mask.bits key, text]).args.length = 1 := by
    show ¬(2 = 1)
    decide
  have hcopy : strCopy (text.length + 1) text = strUtf8FixTruncation text := by
    rw [strCopy, Nat.add_sub_cancel, List.take_length]
  rw [conBind, hslot]
  dsimp only
  rw [dif_neg (by rw [hfind]; exact hpos.ne'), if_neg htwo, bind, if_neg fun h => Bool.false_ne_true h.1]
  dsimp only
  rw [hfind, ← hcopy]
  rfl

/-- A binding whose line brings it back. -/
structure Restorable (keyName : ℕ → List UInt8) (mask key : ℕ) (text : List UInt8) : Prop where
  nonempty : text ≠ []
  whole : strUtf8FixTruncation text = text
  fits : LineFits keyName mask key text

section Run

variable {W : Type} {console : Console W} {clientId : ℤ} {command : CCommand}

/-- What the line of a binding changes. -/
lemma executeLine_step (names : KeyNames) (hbind : IsBind command) {s : BindsState W}
    (hruns : Runs (console.settings s.rest) clientId command) (mask : ModifierMask) {key : ℕ} (hpos : 0 < key)
    (hkey : key < keyLast) (text : List UInt8) :
    let s' := ((bindsConsole names.keyName console).executeLine (bindLine names.keyName mask.bits key text) clientId
      true s).1
    s'.rest = s.rest ∧
      (∀ mask' key', (mask', key') ≠ (mask.bits, key) →
        s'.binds.keyBindings mask' key' = s.binds.keyBindings mask' key') ∧
      (s.binds.keyBindings mask.bits key = none →
        (s'.binds.keyBindings mask.bits key = some text ↔ Restorable names.keyName mask.bits key text)) := by
  rcases @executeLine_bindLine W console clientId command s names hbind hruns mask.bits key mask.lt hkey text with
    ⟨part, hpart, hiff, hexec⟩ | ⟨hfits, hexec⟩
  · rw [hexec]
    refine ⟨rfl, fun mask' key' hne => ?_, fun _ => ?_⟩
    · rw [keyBindings_conBind names clientId s.binds mask hpos hkey, if_neg fun h => hne (by rw [h.1, h.2])]
    · rw [keyBindings_conBind names clientId s.binds mask hpos hkey, if_pos ⟨rfl, rfl⟩]
      constructor
      · intro h
        split_ifs at h with hnil
        have hfix : strUtf8FixTruncation part = text := Option.some.inj h
        have hle := (strUtf8FixTruncation_isPrefix part).length_le
        rw [hfix] at hle
        obtain rfl := hpart.eq_of_length_le hle
        exact ⟨hnil, hfix, hiff.1 rfl⟩
      · rintro ⟨hnil, hwhole, hfits⟩
        rw [hiff.2 hfits, if_neg hnil, hwhole]
  · rw [hexec]
    refine ⟨rfl, fun _ _ _ => rfl, fun hnone => iff_of_false ?_ fun h => hfits h.fits⟩
    rw [hnone]
    exact (Option.some_ne_none text).symm

/-- The lines of some slots change these slots. -/
lemma executeSaved_slots (names : KeyNames) (hbind : IsBind command) (binds : CBinds) {slots : List (ℕ × ℕ)}
    (hnodup : slots.Nodup) {s : BindsState W} (hruns : Runs (console.settings s.rest) clientId command) :
    let s' := executeSaved (bindsConsole names.keyName console) (slots.filterMap fun (mask, key) =>
      (binds.keyBindings mask key).map (bindLine names.keyName mask key)) clientId s
    s'.rest = s.rest ∧ ∀ mask key,
      ((mask, key) ∉ slots ∨ binds.keyBindings mask key = none →
        s'.binds.keyBindings mask key = s.binds.keyBindings mask key) ∧
      ∀ text, (mask, key) ∈ slots → s.binds.keyBindings mask key = none → binds.keyBindings mask key = some text →
        (s'.binds.keyBindings mask key = some text ↔ Restorable names.keyName mask key text) := by
  induction slots generalizing s with
  | nil => exact ⟨rfl, fun mask key => ⟨fun _ => rfl, fun _ h => absurd h List.not_mem_nil⟩⟩
  | cons slot slots ih =>
    obtain ⟨mask, key⟩ := slot
    obtain ⟨hnotMem, hrestNodup⟩ := List.nodup_cons.1 hnodup
    cases hslot : binds.keyBindings mask key with
    | none =>
      obtain ⟨hrest, hall⟩ := ih hrestNodup hruns
      rw [List.filterMap_cons_none (by dsimp only; rw [hslot]; rfl)]
      refine ⟨hrest, fun mask' key' => ⟨fun h => (hall mask' key').1 ?_, fun text hmem hnone htext => ?_⟩⟩
      · exact h.imp_left fun h hmem => h (List.mem_cons_of_mem _ hmem)
      · refine (hall mask' key').2 text ?_ hnone htext
        rcases List.mem_cons.1 hmem with heq | hmem
        · obtain ⟨rfl, rfl⟩ := Prod.mk.inj heq
          exact absurd (hslot.symm.trans htext) (Option.some_ne_none _).symm
        · exact hmem
    | some text =>
      obtain ⟨⟨modifierMask, rfl⟩, hpos, hkey⟩ := binds.slots hslot
      rw [List.filterMap_cons_some (by dsimp only; rw [hslot]; rfl)]
      obtain ⟨hrest, hother, hown⟩ := @executeLine_step W console clientId command names hbind s hruns modifierMask key
        hpos hkey text
      set s₁ := ((bindsConsole names.keyName console).executeLine (bindLine names.keyName modifierMask.bits key text)
        clientId true s).1
      obtain ⟨hrest', hall⟩ := @ih hrestNodup s₁ (by rw [hrest]; exact hruns)
      refine ⟨hrest'.trans hrest, fun mask' key' => ⟨fun h => ?_, fun text' hmem hnone htext => ?_⟩⟩
      · have hne : (mask', key') ≠ (modifierMask.bits, key) := by
          rintro heq
          rcases h with h | h
          · exact h (heq ▸ List.mem_cons_self)
          · obtain ⟨rfl, rfl⟩ := Prod.mk.inj heq
            exact absurd (h.symm.trans hslot) (Option.some_ne_none _).symm
        exact ((hall mask' key').1 (h.imp_left fun h hmem => h (List.mem_cons_of_mem _ hmem))).trans
          (hother mask' key' hne)
      · rcases List.mem_cons.1 hmem with heq | hmem
        · obtain ⟨rfl, rfl⟩ := Prod.mk.inj heq
          obtain rfl := Option.some.inj (hslot.symm.trans htext)
          have hkeep := (hall modifierMask.bits key').1 (.inl hnotMem)
          exact (Eq.congr_left hkeep).trans (hown hnone)
        · have hne : (mask', key') ≠ (modifierMask.bits, key) := fun heq => hnotMem (heq ▸ hmem)
          exact (hall mask' key').2 text' hmem ((hother mask' key' hne).trans hnone) htext

/-- The registered command `unbindall`. -/
structure IsUnbindAll (command : CCommand) : Prop where
  name : command.name = ofChars ['u', 'n', 'b', 'i', 'n', 'd', 'a', 'l', 'l']
  params : command.params = []

lemma plainName_unbindAll : PlainName (ofChars ['u', 'n', 'b', 'i', 'n', 'd', 'a', 'l', 'l']) where
  nonempty := by decide
  ascii := List.all_iff_forall_prop.1 (by decide)
  noSpace := List.all_iff_forall_prop.1 (by decide)
  noQuote := by decide
  noBackslash := by decide
  noSeparator := List.all_iff_forall_prop.1 (by decide)
  noStroke := by decide
  noPrefix := by decide

lemma executeLine_unbindAll (keyName : ℕ → List UInt8) (hunbindAll : IsUnbindAll command) {s : BindsState W}
    (hruns : Runs (console.settings s.rest) clientId command) :
    ((bindsConsole keyName console).executeLine (ofChars ['u', 'n', 'b', 'i', 'n', 'd', 'a', 'l', 'l']) clientId
      true s).1 = ⟨unbindAll, s.rest⟩ := by
  have hname : PlainName command.name := hunbindAll.name ▸ plainName_unbindAll
  have hsplit : splitPart true false (command.name ++ []) = (command.name ++ [], none) := by
    rw [hunbindAll.name]
    decide
  have hstart : parseStart (command.name ++ []) = (command.name, []) := by
    refine parseStart_eq hname (.inl rfl) ?_
    rw [hunbindAll.name]
    decide
  have hline := @executeLine_part _ (bindsConsole keyName console) clientId command s hname hruns [] (.inl rfl) hsplit
    _ hstart
  have hparams : params [] = [] := by rw [params]
  have hbind : ¬command.name = ofChars ['b', 'i', 'n', 'd'] := by
    rw [hunbindAll.name]
    decide
  have hunbind : ¬command.name = ofChars ['u', 'n', 'b', 'i', 'n', 'd'] := by
    rw [hunbindAll.name]
    decide
  rw [List.append_nil, parseArgs, hunbindAll.params, hparams, parseParams] at hline
  rw [← hunbindAll.name, hline]
  dsimp only
  rw [victims_of_none rfl]
  simp only [Console.runCalls, bindsConsole, if_neg hbind, if_neg hunbind, if_pos hunbindAll.name]

variable {bind unbindall : CCommand}

/-- What all lines together do with the slots. -/
lemma executeSaved_configSaveCallback (names : KeyNames) (binds : CBinds) (hbind : IsBind bind)
    (hunbindAll : IsUnbindAll unbindall) {s : BindsState W}
    (hruns : Runs (console.settings s.rest) clientId bind ∧ Runs (console.settings s.rest) clientId unbindall) :
    let s' := executeSaved (bindsConsole names.keyName console) (configSaveCallback names.keyName binds) clientId s
    s'.rest = s.rest ∧ ∀ mask key,
      (binds.keyBindings mask key = none → s'.binds.keyBindings mask key = none) ∧
      ∀ text, binds.keyBindings mask key = some text →
        (s'.binds.keyBindings mask key = some text ↔ Restorable names.keyName mask key text) := by
  have hnodup : (List.range modifierCombinationCount ×ˢ List.range keyLast).Nodup :=
    List.nodup_range.product List.nodup_range
  obtain ⟨hrest, hall⟩ := @executeSaved_slots W console clientId bind names hbind binds _ hnodup
    ⟨unbindAll, s.rest⟩ hruns.1
  have hlines : executeSaved (bindsConsole names.keyName console) (configSaveCallback names.keyName binds) clientId s =
      executeSaved (bindsConsole names.keyName console)
        ((List.range modifierCombinationCount ×ˢ List.range keyLast).filterMap fun (mask, key) =>
          (binds.keyBindings mask key).map (bindLine names.keyName mask key)) clientId ⟨unbindAll, s.rest⟩ := by
    rw [configSaveCallback, executeSaved, List.foldl_cons, executeLine_unbindAll names.keyName hunbindAll hruns.2]
    rfl
  rw [hlines]
  generalize executeSaved (bindsConsole names.keyName console) _ clientId _ = s' at hrest hall ⊢
  refine ⟨hrest, fun mask key => ⟨fun hnone => (hall mask key).1 (.inr hnone), fun text htext => ?_⟩⟩
  obtain ⟨⟨modifierMask, rfl⟩, -, hkey⟩ := binds.slots htext
  exact (hall modifierMask.bits key).2 text
    (List.mem_product.2 ⟨List.mem_range.2 modifierMask.lt, List.mem_range.2 hkey⟩) rfl htext

/-- The lines that are saved restore exactly the same bindings, whatever they were before, if and only if every line
fits, and no text is empty or ends in a part of a code point. -/
theorem restored_iff (names : KeyNames) (console : Console W) (clientId : ℤ) (binds : CBinds) (s : BindsState W)
    (bind unbindall : CCommand) (hbind : IsBind bind) (hunbindAll : IsUnbindAll unbindall)
    (hruns : Runs (console.settings s.rest) clientId bind ∧ Runs (console.settings s.rest) clientId unbindall) :
    executeSaved (bindsConsole names.keyName console) (configSaveCallback names.keyName binds) clientId s =
        ⟨binds, s.rest⟩ ↔
      ∀ mask key text, binds.keyBindings mask key = some text → Restorable names.keyName mask key text := by
  obtain ⟨hrest, hall⟩ := @executeSaved_configSaveCallback W console clientId bind unbindall names binds hbind
    hunbindAll s hruns
  generalize executeSaved (bindsConsole names.keyName console) (configSaveCallback names.keyName binds) clientId s = s'
    at hrest hall ⊢
  constructor
  · intro h mask key text htext
    refine ((hall mask key).2 text htext).1 ?_
    rw [h]
    exact htext
  · intro h
    ext mask key : 4
    · cases hslot : binds.keyBindings mask key with
      | none => exact (hall mask key).1 hslot
      | some text => exact ((hall mask key).2 text hslot).2 (h mask key text hslot)
    · exact hrest

end Run

/-! ### A binding -/

/-- Names as the table has them: `&` with the number for the keys without a name, and `backspace`. -/
def numberedName (key : ℕ) : List UInt8 :=
  if key = 0 then ofChars "unknown".toList else if key = 42 then ofChars "backspace".toList else 38 :: decimal key

/-- The table of these names. -/
def numberedNames : KeyNames where
  keyName := numberedName
  plain key hkey := by
    have hall : ∀ key < keyLast, numberedName key ≠ [] ∧ (numberedName key).length < 20 ∧
        (numberedName key).all (fun c => c < 128 ∧ strIsSpace c = false ∧ isSeparator c = false) = true ∧
        quote ∉ numberedName key ∧ plus ∉ numberedName key ∧ backslash ∉ numberedName key := by
      decide +kernel
    obtain ⟨hne, hshort, hchars, hquote, hplus, hbackslash⟩ := hall key hkey
    have hplain := List.all_iff_forall_prop.1 hchars
    exact ⟨hne, hshort, fun c hc => (hplain c hc).1, fun c hc => (hplain c hc).2.1, hquote, hplus, hbackslash,
      fun c hc => (hplain c hc).2.2⟩
  inverse := by decide +kernel

/-- The text is all that is bound. -/
def single (mask : ModifierMask) (key : ℕ) (text : List UInt8) (hkey : 0 < key ∧ key < keyLast) : CBinds where
  keyBindings mask' key' := if mask' = mask.bits ∧ key' = key then some text else none
  slots := by
    intro mask' key' text' h
    split_ifs at h with hslot
    exact ⟨⟨mask, hslot.1.symm⟩, hslot.2 ▸ hkey⟩

/-- `bind` on a client. -/
def bindCommand : CCommand where
  name := ofChars ['b', 'i', 'n', 'd']
  params := ofChars "s[key] ?r[command]".toList
  help := ofChars "Bind key to execute a command or view keybindings".toList
  flags := 2
  accessLevel := accessLevelAdmin

/-- `unbindall` on a client. -/
def unbindAllCommand : CCommand where
  name := ofChars ['u', 'n', 'b', 'i', 'n', 'd', 'a', 'l', 'l']
  params := []
  help := ofChars "Unbind all keys".toList
  flags := 2
  accessLevel := accessLevelAdmin

/-- The console of a client with the two commands. -/
def bindsClient : Console Unit where
  settings _ := {
    commands := ⟨[bindCommand, unbindAllCommand], by simp only [ServerSorted, List.pairwise_cons]; decide, by decide⟩
    flagMask := 2
    accessLevel := accessLevelAdmin
    storeCommands := false
    svTestingCommands := false }
  callback _ _ w := w
  store _ _ w := w
  unknownCommand _ w := w
  isColor _ := false
  validFloat _ := true

lemma runs_bindsClient : Runs (bindsClient.settings ()) (-1) bindCommand ∧
    Runs (bindsClient.settings ()) (-1) unbindAllCommand := by
  constructor <;> constructor <;> decide

/-- `say "hi"` on shift and backspace is restored. -/
theorem restored_say :
    let binds := single (ModifierMask.none.set .shift) 42 (ofChars "say \"hi\"".toList) (by decide)
    executeSaved (bindsConsole numberedNames.keyName bindsClient) (configSaveCallback numberedNames.keyName binds) (-1)
      ⟨unbindAll, ()⟩ = ⟨binds, ()⟩ := by
  refine (restored_iff numberedNames bindsClient (-1) _ ⟨unbindAll, ()⟩ bindCommand unbindAllCommand ⟨rfl, rfl⟩
    ⟨rfl, rfl⟩ runs_bindsClient).2 fun mask key text h => ?_
  simp only [single] at h
  split_ifs at h with hslot
  obtain ⟨rfl, rfl⟩ := hslot
  obtain rfl := Option.some.inj h
  exact ⟨by decide, by decide +kernel, by decide +kernel, by decide +kernel⟩

/-- `kill` on backspace with all four modifiers is lost: its line has 40 bytes, and the buffer 38. -/
theorem not_restored_kill :
    let binds := single ((((ModifierMask.none.set .ctrl).set .alt).set .shift).set .gui) 42 (ofChars "kill".toList)
      (by decide)
    ¬executeSaved (bindsConsole numberedNames.keyName bindsClient) (configSaveCallback numberedNames.keyName binds) (-1)
      ⟨unbindAll, ()⟩ = ⟨binds, ()⟩ := by
  intro binds h
  have hslot : binds.keyBindings 30 42 = some (ofChars "kill".toList) := by decide
  have hrestored := @executeSaved_configSaveCallback Unit bindsClient (-1) bindCommand unbindAllCommand numberedNames
    binds ⟨rfl, rfl⟩ ⟨rfl, rfl⟩ ⟨unbindAll, ()⟩ runs_bindsClient
  rw [h] at hrestored
  have hfits := (((hrestored.2 30 42).2 _ hslot).1 hslot).fits.1
  exact absurd hfits (by decide +kernel)

end CBinds

end DDNet
