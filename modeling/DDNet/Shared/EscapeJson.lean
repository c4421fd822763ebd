/-
Escaping a string for JSON into a buffer (`EscapeJson`, `engine/shared/json.cpp`).

`EscapeJson` makes room for the terminating zero first, and then passes the room that is left to `str_format`, which
makes room for a zero of its own.  A control character that is written as `\uXXXX` with exactly six bytes left loses its
last digit; everywhere else what is written is escaped characters of the string (`escapeJson_iff`).
-/
import DDNet.Base.Memory
import DDNet.Shared.JsonOutput

namespace DDNet

open Lib Lib.Json

/-! ### The function -/

/-- `str_format` of a text to a position of a buffer, with `size` bytes. -/
def strFormatAt (buffer : List UInt8) (pos size : ℕ) (text : List UInt8) : Option (List UInt8) :=
  writeBytes buffer pos (text.take (size - 1) ++ [0])

/-- The loop of `EscapeJson` with `size` bytes left: the position behind what is written, and the buffer. -/
def escapeJsonLoop : List UInt8 → ℕ → ℕ → List UInt8 → Option (ℕ × List UInt8)
  | [], _, pos, buffer => some (pos, buffer)
  | c :: str, size, pos, buffer =>
    if size = 0 then some (pos, buffer)
    else
      match escapeJsonChar c with
      | some escaped =>
        if size < 2 then some (pos, buffer)
        else (writeBytes buffer pos [backslash, escaped]).bind (escapeJsonLoop str (size - 2) (pos + 2))
      | none =>
        if c < 32 then
          if size < 6 then some (pos, buffer)
          else
            (strFormatAt buffer pos size
              [backslash, 117, 48, 48, hexDigit (c.toNat / 16), hexDigit (c.toNat % 16)]).bind
              (escapeJsonLoop str (size - 6) (pos + 6))
        else (writeBytes buffer pos [c]).bind (escapeJsonLoop str (size - 1) (pos + 1))

/-- `EscapeJson`; the assertion that the size is not zero is left to the caller. -/
def escapeJson (buffer : List UInt8) (bufferSize : ℕ) (str : List UInt8) : Option (List UInt8) :=
  (escapeJsonLoop str (bufferSize - 1) 0 buffer).bind fun (pos, buffer) => writeBytes buffer pos [0]

/-! ### What is written for one character -/

/-- Characters that are written as `\uXXXX`. -/
def IsControl (c : UInt8) : Prop := escapeJsonChar c = none ∧ c < 32

instance (c : UInt8) : Decidable (IsControl c) := inferInstanceAs (Decidable (_ ∧ _))

variable {str p rest written tail buffer : List UInt8} {c : UInt8} {size : ℕ}

lemma jsonChar_of_control (hc : IsControl c) :
    jsonChar c = [backslash, 117, 48, 48, hexDigit (c.toNat / 16), hexDigit (c.toNat % 16)] := by
  rw [jsonChar, hc.1]
  exact if_pos hc.2

lemma jsonChar_ne_nil (c : UInt8) : jsonChar c ≠ [] := by
  rw [jsonChar]
  cases escapeJsonChar c with
  | some d => exact List.cons_ne_nil _ _
  | none =>
    dsimp only
    split_ifs <;> exact List.cons_ne_nil _ _

/-- What the loop writes for a character. -/
def charBytes (c : UInt8) (size : ℕ) : List UInt8 :=
  if IsControl c then (jsonChar c).take (size - 1) ++ [0] else jsonChar c

lemma escapeJsonLoop_cons (c : UInt8) (str : List UInt8) (size pos : ℕ) (buffer : List UInt8) :
    escapeJsonLoop (c :: str) size pos buffer =
      if size < (jsonChar c).length then some (pos, buffer)
      else (writeBytes buffer pos (charBytes c size)).bind
        (escapeJsonLoop str (size - (jsonChar c).length) (pos + (jsonChar c).length)) := by
  have hpos : 0 < (jsonChar c).length := List.length_pos_of_ne_nil (jsonChar_ne_nil c)
  rw [escapeJsonLoop]
  by_cases hzero : size = 0
  · rw [if_pos hzero, if_pos (by omega)]
  rw [if_neg hzero]
  by_cases hcontrol : IsControl c
  · rw [charBytes, if_pos hcontrol, jsonChar_of_control hcontrol, hcontrol.1]
    dsimp only
    rw [if_pos hcontrol.2]
    rfl
  · rw [charBytes, if_neg hcontrol, jsonChar]
    cases hescape : escapeJsonChar c with
    | some d => rfl
    | none =>
      have hc : ¬ c < 32 := fun hc => hcontrol ⟨hescape, hc⟩
      dsimp only
      rw [if_neg hc, if_neg hc, if_neg (by rw [List.length_singleton]; omega)]
      rfl

/-- The characters that there is room for. -/
def fits : ℕ → List UInt8 → List UInt8
  | _, [] => []
  | size, c :: str => if size < (jsonChar c).length then [] else c :: fits (size - (jsonChar c).length) str

lemma fits_prefix (size : ℕ) (str : List UInt8) : fits size str <+: str := by
  induction str generalizing size with
  | nil => exact List.prefix_refl _
  | cons c str ih =>
    rw [fits]
    split_ifs
    · exact List.nil_prefix
    · exact List.cons_prefix_cons.2 ⟨rfl, ih _⟩

/-- The whole string, if there is room for it. -/
lemma fits_eq (h : (str.flatMap jsonChar).length ≤ size) : fits size str = str := by
  induction str generalizing size with
  | nil => rfl
  | cons c str ih =>
    rw [List.flatMap_cons, List.length_append] at h
    rw [fits, if_neg (by omega), ih (by omega)]

/-- A control character meets exactly the room for its escape. -/
def Cut (size : ℕ) (str : List UInt8) : Prop :=
  ∃ p c rest, str = p ++ c :: rest ∧ IsControl c ∧ (p.flatMap jsonChar).length + 6 = size

lemma Cut.cons (h : Cut (size - (jsonChar c).length) str) (hle : (jsonChar c).length ≤ size) : Cut size (c :: str) := by
  obtain ⟨p, d, rest, rfl, hd, hlength⟩ := h
  refine ⟨c :: p, d, rest, rfl, hd, ?_⟩
  rw [List.flatMap_cons, List.length_append]
  omega

lemma length_jsonChar_of_control (hc : IsControl c) : (jsonChar c).length = 6 := by
  rw [jsonChar_of_control hc]
  rfl

lemma writeBytes_charBytes (written : List UInt8) (hle : (jsonChar c).length ≤ size) (hcut : IsControl c → size ≠ 6)
    (htail : tail.length = size + 1) :
    ∃ tail', tail'.length = size - (jsonChar c).length + 1 ∧
      writeBytes (written ++ tail) written.length (charBytes c size) = some (written ++ jsonChar c ++ tail') := by
  by_cases hc : IsControl c
  · have hsix := length_jsonChar_of_control hc
    have hne := hcut hc
    have hbytes : charBytes c size = jsonChar c ++ [0] := by
      rw [charBytes, if_pos hc, List.take_of_length_le (by omega)]
    refine ⟨0 :: tail.drop 7, by rw [List.length_cons, List.length_drop]; omega, ?_⟩
    rw [hbytes, writeBytes_append (by rw [List.length_append, List.length_singleton]; omega), List.length_append, hsix]
    simp
  · refine ⟨tail.drop (jsonChar c).length, by rw [List.length_drop]; omega, ?_⟩
    rw [charBytes, if_neg hc, writeBytes_append (by omega), List.append_assoc]

/-- The loop writes the escaped characters that there is room for. -/
lemma escapeJsonLoop_fits (written : List UInt8) (hcut : ¬ Cut size str) (htail : tail.length = size + 1) :
    ∃ tail', tail' ≠ [] ∧ escapeJsonLoop str size written.length (written ++ tail) =
      some ((written ++ (fits size str).flatMap jsonChar).length,
        written ++ (fits size str).flatMap jsonChar ++ tail') ∧
        ((fits size str).flatMap jsonChar ++ tail').length = tail.length := by
  induction str generalizing size written tail with
  | nil =>
    refine ⟨tail, List.ne_nil_of_length_eq_add_one htail, ?_⟩
    rw [escapeJsonLoop, fits, List.flatMap_nil, List.append_nil]
    exact ⟨rfl, rfl⟩
  | cons c str ih =>
    rw [escapeJsonLoop_cons, fits]
    split_ifs with hroom
    · refine ⟨tail, List.ne_nil_of_length_eq_add_one htail, ?_⟩
      rw [List.flatMap_nil, List.append_nil]
      exact ⟨rfl, rfl⟩
    · have hle : (jsonChar c).length ≤ size := Nat.le_of_not_lt hroom
      have hcut' : IsControl c → size ≠ 6 := fun hc heq => hcut ⟨[], c, str, rfl, hc, heq.symm⟩
      obtain ⟨tail₁, htail₁, hwrite⟩ := writeBytes_charBytes written hle hcut' htail
      obtain ⟨tail', hne, hloop, hlength⟩ := ih (written ++ jsonChar c) (fun h => hcut (h.cons hle)) htail₁
      refine ⟨tail', hne, ?_, ?_⟩
      · rw [hwrite, Option.bind_some, ← List.length_append, hloop, List.flatMap_cons, List.append_assoc]
      · rw [List.flatMap_cons, List.append_assoc, List.length_append, hlength]
        omega

/-- The escape of a control character that meets its room loses its last digit. -/
def cutEscape (c : UInt8) : List UInt8 := [backslash, 117, 48, 48, hexDigit (c.toNat / 16)]

lemma escapeJsonLoop_zero (str : List UInt8) (pos : ℕ) (buffer : List UInt8) :
    escapeJsonLoop str 0 pos buffer = some (pos, buffer) := by
  cases str with
  | nil => rfl
  | cons c str => exact if_pos rfl

lemma escapeJsonLoop_cut (written rest : List UInt8) (hc : IsControl c) (hsize : (p.flatMap jsonChar).length + 6 = size)
    (htail : tail.length = size + 1) :
    ∃ last, escapeJsonLoop (p ++ c :: rest) size written.length (written ++ tail) =
      some ((written ++ (p.flatMap jsonChar ++ (cutEscape c ++ [0]))).length,
        written ++ (p.flatMap jsonChar ++ (cutEscape c ++ [0])) ++ [last]) := by
  induction p generalizing size written tail with
  | nil =>
    have hsix := length_jsonChar_of_control hc
    obtain rfl : 6 = size := by simpa using hsize
    obtain ⟨last, hlast⟩ : ∃ last, tail.drop 6 = [last] := List.length_eq_one_iff.1 (by rw [List.length_drop]; omega)
    have hbytes : charBytes c 6 = cutEscape c ++ [0] := by
      rw [charBytes, if_pos hc, jsonChar_of_control hc]
      rfl
    have hlength : (cutEscape c ++ [0]).length = 6 := rfl
    refine ⟨last, ?_⟩
    rw [List.nil_append, escapeJsonLoop_cons, if_neg (by omega), hbytes, writeBytes_append (by omega), hlength, hlast,
      Option.bind_some, hsix, escapeJsonLoop_zero]
    simp [hlength]
  | cons d p ih =>
    rw [List.flatMap_cons, List.length_append] at hsize
    have hle : (jsonChar d).length ≤ size := by omega
    have hcut : IsControl d → size ≠ 6 := fun hd => by
      have hsix := length_jsonChar_of_control hd
      omega
    obtain ⟨tail₁, htail₁, hwrite⟩ := writeBytes_charBytes written hle hcut htail
    obtain ⟨last, hloop⟩ := ih (written ++ jsonChar d) (by omega) htail₁
    refine ⟨last, ?_⟩
    rw [List.cons_append, escapeJsonLoop_cons, if_neg (by omega), hwrite, Option.bind_some, ← List.length_append, hloop]
    simp

/-! ### What the string reads as -/

/-- What `EscapeJson` leaves in a buffer: a part of the string as a JSON string, in escapes that are all complete. -/
structure Escapes (bufferSize : ℕ) (str buffer : List UInt8) : Prop where
  length : buffer.length = bufferSize
  terminated : 0 ∈ buffer
  isString : IsString (quote :: (cstrOf buffer ++ [quote]))
  /-- The text reads as the start of the string, and as all of it if there is room. -/
  reads : ∃ p, p <+: str ∧ cstrOf buffer = p.flatMap jsonChar ∧ parseString (cstrOf buffer ++ [quote]) = some (p, []) ∧
    ((str.flatMap jsonChar).length < bufferSize → p = str)

lemma zero_notMem_jsonChar (hc : c ≠ 0) : 0 ∉ jsonChar c := by
  have hhex : ∀ n < 16, hexDigit n ≠ 0 := by
    intro n hn
    interval_cases n <;> decide
  rw [jsonChar]
  cases hescape : escapeJsonChar c with
  | some d =>
    have hd : (0 : UInt8) ≠ d := by
      rw [escapeJsonChar] at hescape
      split_ifs at hescape <;> obtain rfl := Option.some.inj hescape <;> decide
    simp only [List.mem_cons, List.not_mem_nil, or_false, not_or]
    exact ⟨by decide, hd⟩
  | none =>
    dsimp only
    split_ifs with hlt
    · have hlt : c.toNat < 32 := UInt8.lt_iff_toNat_lt.1 hlt
      have hfirst := hhex (c.toNat / 16) (by omega)
      have hsecond := hhex (c.toNat % 16) (by omega)
      simp only [List.mem_cons, List.not_mem_nil, or_false, not_or]
      exact ⟨by decide, by decide, by decide, by decide, hfirst.symm, hsecond.symm⟩
    · exact fun hmem => hc (List.mem_singleton.1 hmem).symm

lemma zero_notMem_flatMap (h : 0 ∉ str) : 0 ∉ str.flatMap jsonChar := by
  intro hmem
  obtain ⟨c, hc, hzero⟩ := List.mem_flatMap.1 hmem
  exact zero_notMem_jsonChar (ne_of_mem_of_not_mem hc h) hzero

/-- The buffer behind `EscapeJson`, if no escape is cut. -/
lemma escapeJson_fits (hbuffer : buffer.length = size + 1) (hcut : ¬ Cut size str) :
    ∃ tail, escapeJson buffer buffer.length str = some ((fits size str).flatMap jsonChar ++ 0 :: tail) ∧
      ((fits size str).flatMap jsonChar ++ 0 :: tail).length = buffer.length := by
  obtain ⟨tail', hne, hloop, hlength⟩ := escapeJsonLoop_fits [] hcut hbuffer
  obtain ⟨last, tail, rfl⟩ := List.exists_cons_of_ne_nil hne
  refine ⟨tail, ?_, ?_⟩
  · rw [List.nil_append, List.nil_append] at hloop
    rw [escapeJson, hbuffer, Nat.add_sub_cancel, ← List.length_nil (α := UInt8), hloop, Option.bind_some]
    exact writeBytes_zero _ last tail
  · rw [List.length_append, List.length_cons] at hlength ⊢
    exact hlength

/-- The buffer behind `EscapeJson`, if an escape is cut. -/
lemma escapeJson_cut (hbuffer : buffer.length = size + 1) (hc : IsControl c)
    (hsize : (p.flatMap jsonChar).length + 6 = size) :
    escapeJson buffer buffer.length (p ++ c :: rest) = some (p.flatMap jsonChar ++ cutEscape c ++ [0, 0]) := by
  obtain ⟨last, hloop⟩ := escapeJsonLoop_cut [] rest hc hsize hbuffer
  rw [List.nil_append, List.nil_append] at hloop
  rw [escapeJson, hbuffer, Nat.add_sub_cancel, ← List.length_nil (α := UInt8), hloop, Option.bind_some]
  have hzero := writeBytes_zero (p.flatMap jsonChar ++ (cutEscape c ++ [0])) last []
  dsimp only
  rw [hzero]
  simp

/-- `EscapeJson` stays inside the buffer, and ends the string there. -/
theorem escapeJson_safe (hsize : 0 < buffer.length) (str : List UInt8) :
    ∃ buffer', escapeJson buffer buffer.length str = some buffer' ∧ buffer'.length = buffer.length ∧ 0 ∈ buffer' := by
  obtain ⟨size, hbuffer⟩ := Nat.exists_eq_add_one_of_ne_zero hsize.ne'
  by_cases hcut : Cut size str
  · obtain ⟨p, c, rest, rfl, hc, hlength⟩ := hcut
    refine ⟨_, escapeJson_cut hbuffer hc hlength, ?_, by simp⟩
    rw [hbuffer, ← hlength]
    simp [cutEscape]
  · obtain ⟨tail, hescape, hlength⟩ := escapeJson_fits hbuffer hcut
    exact ⟨_, hescape, hlength, by simp⟩

/-- The cut escape does not read as a string. -/
lemma parseString_cut (p : List UInt8) (c : UInt8) :
    parseString (p.flatMap jsonChar ++ cutEscape c ++ [quote]) = none := by
  have hunits : parseUnits (p.flatMap jsonChar ++ (cutEscape c ++ [quote])) = none := by
    induction p with
    | nil =>
      -- the closing quote stands where the last digit should be
      have hhex : ∀ d, hexValues [48, 48, d, quote] = none := by
        intro d
        cases hd : hexValue d <;> simp [hexValues, hd, hexValue, quote]
      show parseUnits (92 :: 117 :: 48 :: 48 :: hexDigit (c.toNat / 16) :: quote :: []) = none
      rw [parseUnits, if_neg (by decide), if_pos rfl, if_pos rfl, hhex, Option.bind_none]
    | cons d p ih => rw [List.flatMap_cons, List.append_assoc, parseUnits_jsonChar, ih, Option.map_none]
  rw [parseString, List.append_assoc, hunits, Option.bind_none]

/-- The text is as it should be if and only if no escape is cut. -/
theorem escapeJson_iff (hsize : 0 < buffer.length) (hstr : 0 ∉ str) :
    (∃ buffer', escapeJson buffer buffer.length str = some buffer' ∧ Escapes buffer.length str buffer') ↔
      ∀ p c rest, str = p ++ c :: rest → IsControl c → (p.flatMap jsonChar).length + 7 ≠ buffer.length := by
  obtain ⟨size, hbuffer⟩ := Nat.exists_eq_add_one_of_ne_zero hsize.ne'
  constructor
  · rintro ⟨buffer', hescape, h⟩ p c rest rfl hc hlength
    obtain rfl := Option.some.inj (hescape.symm.trans (escapeJson_cut hbuffer hc (by omega)))
    obtain ⟨q, -, -, hreads, -⟩ := h.reads
    have hp : 0 ∉ p.flatMap jsonChar ++ cutEscape c := by
      rw [List.mem_append, not_or] at hstr ⊢
      have hzero := zero_notMem_jsonChar (c := c) fun heq => hstr.2 (heq ▸ List.mem_cons_self)
      rw [jsonChar_of_control hc] at hzero
      exact ⟨zero_notMem_flatMap hstr.1, fun hmem => hzero (List.mem_of_mem_take (i := 5) hmem)⟩
    rw [cstrOf_append hp, parseString_cut] at hreads
    exact absurd hreads.symm (Option.some_ne_none _)
  · intro hcut
    have hcut' : ¬ Cut size str := by
      rintro ⟨p, c, rest, heq, hc, hlength⟩
      exact hcut p c rest heq hc (by omega)
    obtain ⟨tail, hescape, hlength⟩ := escapeJson_fits hbuffer hcut'
    have hstart := fits_prefix size str
    have hzero : 0 ∉ (fits size str).flatMap jsonChar := zero_notMem_flatMap fun hmem => hstr (hstart.subset hmem)
    refine ⟨_, hescape, hlength, by simp, ?_, fits size str, hstart, cstrOf_append hzero, ?_, fun hroom => ?_⟩
    · rw [cstrOf_append hzero]
      exact isString_jsonString _
    · rw [cstrOf_append hzero, parseString, parseUnits_flatMap, Option.bind_some]
      dsimp only
      rw [decodeUnits_map, Option.map_some]
    · exact fits_eq (by omega)

/-- An escape character and a buffer of eight bytes. -/
theorem escapeJson_iff_eight :
    (∃ buffer', escapeJson (List.replicate 8 0) 8 [27] = some buffer' ∧ Escapes 8 [27] buffer') ↔
      ∀ p c rest, [27] = p ++ c :: rest → IsControl c → (p.flatMap jsonChar).length + 7 ≠ 8 :=
  @escapeJson_iff [27] (List.replicate 8 0) (by decide) (by decide)

/-- In a buffer of seven bytes the last digit is lost. -/
theorem escapeJson_seven :
    ¬ ∃ buffer', escapeJson (List.replicate 7 0) 7 [27] = some buffer' ∧ Escapes 7 [27] buffer' := by
  rintro ⟨buffer', hescape, h⟩
  obtain rfl : [92, 117, 48, 48, 49, 0, 0] = buffer' := Option.some.inj hescape
  obtain ⟨p, -, -, hreads, -⟩ := h.reads
  have hnone : parseString (cstrOf [92, 117, 48, 48, 49, 0, 0] ++ [quote]) = none := parseString_cut [] 27
  exact absurd (hreads.symm.trans hnone) (Option.some_ne_none _)

end DDNet
