/-
What a run of the JSON writer puts out (`engine/shared/jsonwriter.cpp`).

Calls that pass the assertions and close everything they open are those of a tree of values (`exists_written`), and what
they put out is read as this tree (`output_parses`).  In the middle of a run the calls are those of the objects and
arrays that are open, each with the items that have been completed (`Open`).
-/
import DDNet.Base.Utf8
import DDNet.Lib.JsonParse
import DDNet.Shared.JsonWriter

namespace DDNet

open Lib Lib.Json CJsonStringWriter Utf8

/-! ### Calls -/

/-- A call of a function of the writer. -/
inductive JsonOp
  | beginObject
  | endObject
  | beginArray
  | endArray
  | writeAttribute (name : List UInt8)
  | writeStrValue (value : List UInt8)
  | writeIntValue (value : ℤ)
  | writeBoolValue (value : Bool)
  | writeNullValue

namespace JsonOp

def call : JsonOp → JsonCall
  | beginObject => CJsonStringWriter.beginObject
  | endObject => CJsonStringWriter.endObject
  | beginArray => CJsonStringWriter.beginArray
  | endArray => CJsonStringWriter.endArray
  | writeAttribute name => CJsonStringWriter.writeAttribute name
  | writeStrValue value => CJsonStringWriter.writeStrValue value
  | writeIntValue value => CJsonStringWriter.writeIntValue value
  | writeBoolValue value => CJsonStringWriter.writeBoolValue value
  | writeNullValue => CJsonStringWriter.writeNullValue

/-- The value that a call writes by itself. -/
def value : JsonOp → Option Value
  | writeStrValue value => some (.string value)
  | writeIntValue value => some (.number value 0)
  | writeBoolValue value => some (.bool value)
  | writeNullValue => some .null
  | _ => none

/-- The string that is passed to a call. -/
def text : JsonOp → List UInt8
  | writeAttribute name => name
  | writeStrValue value => value
  | _ => []

end JsonOp

/-- One call after the other. -/
def runJson : List JsonOp → JsonCall
  | [] => pure ()
  | op :: ops => do op.call; runJson ops

/-- A new writer. -/
def CJsonStringWriter.new : CJsonStringWriter := ⟨[], 0, []⟩

/-- The calls pass their assertions and write one root value, which they close. -/
structure WritesRoot (ops : List JsonOp) : Prop where
  ne_nil : ops ≠ []
  closed : ∃ w, runJson ops .new = some ((), w) ∧ w.states = []
  single : ∀ before after, ops = before ++ after → before ≠ [] → after ≠ [] →
    ∀ w, runJson before .new = some ((), w) → w.states ≠ []

/-- The calls that write a tree: those of its values, in their order. -/
inductive Written : List JsonOp → Value → Prop
  | leaf {op : JsonOp} {t : Value} (h : op.value = some t) : Written [op] t
  | array (l : List (List JsonOp × Value)) (h : ∀ p ∈ l, Written p.1 p.2) :
      Written (.beginArray :: (l.flatMap Prod.fst ++ [.endArray])) (.array (l.map Prod.snd))
  | object (l : List (List UInt8 × List JsonOp × Value)) (h : ∀ p ∈ l, Written p.2.1 p.2.2) :
      Written (.beginObject :: (l.flatMap (fun p => .writeAttribute p.1 :: p.2.1) ++ [.endObject]))
        (.object (l.map fun p => (p.1, p.2.2)))

/-- A text in UTF-8. -/
def IsUtf8 (s : List UInt8) : Prop := ∃ cs, s = encode cs

/-! ### Sequences of calls -/

variable {ops ops' : List JsonOp} {op : JsonOp} {t : Value} {s s' : List UInt8}

lemma runJson_append (ops ops' : List JsonOp) : runJson (ops ++ ops') = (do runJson ops; runJson ops') := by
  induction ops with
  | nil => rfl
  | cons op ops ih =>
    rw [List.cons_append, runJson, ih, runJson, bind_assoc]

lemma runJson_singleton (op : JsonOp) : runJson [op] = op.call := bind_pure_unit

lemma runJson_block (first last : JsonOp) (ops : List JsonOp) :
    runJson (first :: (ops ++ [last])) = (do first.call; runJson ops; last.call) := by
  rw [runJson, runJson_append, runJson_singleton]

lemma writesItems_elements {l : List (List JsonOp × Value)} {f : List JsonOp × Value → Fragment}
    (h : ∀ p ∈ l, Writes (runJson p.1) (f p)) : WritesItems .stateArray (runJson (l.flatMap Prod.fst)) (l.map f) := by
  induction l with
  | nil => exact writesItems_nil _
  | cons p l ih =>
    rw [List.flatMap_cons, runJson_append]
    exact (writesItems_element (h p List.mem_cons_self)).append (ih fun q hq => h q (List.mem_cons_of_mem _ hq))

lemma writesItems_members {l : List (List UInt8 × List JsonOp × Value)}
    {f : List UInt8 × List JsonOp × Value → Fragment} (h : ∀ p ∈ l, Writes (runJson p.2.1) (f p)) :
    WritesItems .stateObject (runJson (l.flatMap fun p => .writeAttribute p.1 :: p.2.1))
      (l.map fun p => member (jsonString p.1) (f p)) := by
  induction l with
  | nil => exact writesItems_nil _
  | cons p l ih =>
    rw [List.flatMap_cons, runJson_append]
    exact (writesItems_attribute p.1 (h p List.mem_cons_self)).append
      (ih fun q hq => h q (List.mem_cons_of_mem _ hq))

/-! ### Strings -/

/-- The character that is read where the writer has written one. -/
def codeUnit (c : UInt8) : CodeUnit :=
  match escapeJsonChar c with
  | some _ => .byte c
  | none => if c < 32 then .escape c.toNat else .byte c

lemma escapeValue_escapeJsonChar {c d : UInt8} (h : escapeJsonChar c = some d) :
    escapeValue d = some c ∧ d ≠ 117 := by
  rw [escapeJsonChar] at h
  split_ifs at h <;> obtain rfl := Option.some.inj h <;> subst c <;> decide

lemma hexValues_hexDigit {n : ℕ} (hn : n < 32) : hexValues [48, 48, hexDigit (n / 16), hexDigit (n % 16)] = some n := by
  interval_cases n <;> rfl

lemma parseUnits_jsonChar (c : UInt8) :
    parseUnits (jsonChar c ++ s) = (parseUnits s).map fun (units, s) => (codeUnit c :: units, s) := by
  rw [jsonChar, codeUnit]
  cases hescape : escapeJsonChar c with
  | some d =>
    obtain ⟨hvalue, hd⟩ := escapeValue_escapeJsonChar hescape
    show parseUnits (92 :: d :: s) = _
    rw [parseUnits.eq_def]
    dsimp only
    rw [if_neg (by decide), if_pos rfl, if_neg hd, hvalue, Option.bind_some]
  | none =>
    dsimp only
    split_ifs with hc
    · have hhex := hexValues_hexDigit (UInt8.lt_iff_toNat_lt.1 hc)
      show parseUnits (92 :: 117 :: 48 :: 48 :: hexDigit (c.toNat / 16) :: hexDigit (c.toNat % 16) :: s) = _
      rw [parseUnits, if_neg (by decide), if_pos rfl, if_pos rfl, hhex, Option.bind_some]
    · have hquote : c ≠ 34 := by
        rintro rfl
        exact absurd hescape (by decide)
      have hbackslash : c ≠ 92 := by
        rintro rfl
        exact absurd hescape (by decide)
      show parseUnits (c :: s) = _
      rw [parseUnits.eq_def]
      dsimp only
      rw [if_neg hquote, if_neg hbackslash, if_neg hc]

lemma decodeUnits_escape {n : ℕ} (hn : n < 0xD800) (units : List CodeUnit) :
    decodeUnits (.escape n :: units) = (decodeUnits units).map (String.utf8EncodeChar (Char.ofNat n) ++ ·) := by
  rw [decodeUnits.eq_def]
  dsimp only
  rw [if_neg (by omega), if_neg (by omega)]

lemma utf8EncodeChar_ofNat {n : ℕ} (hn : n < 128) : String.utf8EncodeChar (Char.ofNat n) = [UInt8.ofNat n] := by
  have hscalar : IsScalar n := Or.inl (by omega)
  rw [← strUtf8Encode_toNat, toNat_ofNat_of_isScalar hscalar, strUtf8Encode]
  exact if_pos (by omega)

lemma decodeUnits_codeUnit (c : UInt8) (units : List CodeUnit) :
    decodeUnits (codeUnit c :: units) = (decodeUnits units).map (c :: ·) := by
  rw [codeUnit]
  cases escapeJsonChar c with
  | some d => rfl
  | none =>
    dsimp only
    split_ifs with hc
    · have hlt : c.toNat < 32 := UInt8.lt_iff_toNat_lt.1 hc
      rw [decodeUnits_escape (by omega), utf8EncodeChar_ofNat (by omega), UInt8.ofNat_toNat]
      rfl
    · rfl

lemma parseUnits_flatMap (str : List UInt8) :
    parseUnits (str.flatMap jsonChar ++ quote :: s) = some (str.map codeUnit, s) := by
  induction str with
  | nil =>
    rw [List.flatMap_nil, List.nil_append, parseUnits.eq_def]
    exact if_pos rfl
  | cons c str ih => rw [List.flatMap_cons, List.append_assoc, parseUnits_jsonChar, ih, Option.map_some, List.map_cons]

lemma decodeUnits_map (str : List UInt8) : decodeUnits (str.map codeUnit) = some str := by
  induction str with
  | nil => rfl
  | cons c str ih => rw [List.map_cons, decodeUnits_codeUnit, ih, Option.map_some]

lemma readsString_jsonString (str : List UInt8) : ReadsString (jsonString str) str := by
  refine ⟨str.flatMap jsonChar ++ [quote], rfl, fun rest => ?_⟩
  rw [parseString, List.append_assoc, List.singleton_append, parseUnits_flatMap, Option.bind_some]
  dsimp only
  rw [decodeUnits_map, Option.map_some]

/-! ### UTF-8 -/

lemma isUtf8_nil : IsUtf8 [] := ⟨[], rfl⟩

lemma IsUtf8.append (h : IsUtf8 s) (h' : IsUtf8 s') : IsUtf8 (s ++ s') := by
  obtain ⟨cs, rfl⟩ := h
  obtain ⟨cs', rfl⟩ := h'
  exact ⟨cs ++ cs', List.flatMap_append.symm⟩

lemma isUtf8_ascii (h : ∀ c ∈ s, c < 128) : IsUtf8 s := by
  refine ⟨s.map fun c => Char.ofNat c.toNat, ?_⟩
  induction s with
  | nil => rfl
  | cons c s ih =>
    have hc : c.toNat < 128 := UInt8.lt_iff_toNat_lt.1 (h c List.mem_cons_self)
    rw [List.map_cons, encode_cons, utf8EncodeChar_ofNat hc, UInt8.ofNat_toNat,
      ← ih fun d hd => h d (List.mem_cons_of_mem c hd)]
    rfl

/-- The bytes of the other characters are not ASCII. -/
lemma le_of_mem_utf8EncodeChar {c : Char} (hc : 128 ≤ c.toNat) {b : UInt8} (hb : b ∈ String.utf8EncodeChar c) :
    128 ≤ b := by
  have hval : c.val.toNat = c.toNat := rfl
  have hle : ∀ n, 128 ≤ n % 256 → 128 ≤ UInt8.ofNat n := fun n hn =>
    UInt8.le_iff_toNat_le.2 (by rw [UInt8.toNat_ofNat']; exact hn)
  unfold String.utf8EncodeChar at hb
  simp only [hval] at hb
  split_ifs at hb with h1 h2 h3
  · omega
  · simp only [List.mem_cons, List.not_mem_nil, or_false] at hb
    rcases hb with rfl | rfl <;> exact hle _ (by omega)
  · simp only [List.mem_cons, List.not_mem_nil, or_false] at hb
    rcases hb with rfl | rfl | rfl <;> exact hle _ (by omega)
  · have hmax : c.toNat < 0x110000 := by
      have hscalar := isScalar_toNat c
      unfold IsScalar at hscalar
      omega
    simp only [List.mem_cons, List.not_mem_nil, or_false] at hb
    rcases hb with rfl | rfl | rfl | rfl <;> exact hle _ (by omega)

lemma ascii_jsonChar {c : UInt8} (hc : c < 128) : ∀ d ∈ jsonChar c, d < 128 := by
  have hhex : ∀ n < 16, hexDigit n < 128 := by
    intro n hn
    interval_cases n <;> decide
  rw [jsonChar]
  cases hescape : escapeJsonChar c with
  | some d =>
    have hd : d < 128 := by
      rw [escapeJsonChar] at hescape
      split_ifs at hescape <;> obtain rfl := Option.some.inj hescape <;> decide
    simp only [List.forall_mem_cons, List.not_mem_nil, false_implies, implies_true, and_true]
    exact ⟨by decide, hd⟩
  | none =>
    dsimp only
    split_ifs
    · have hlt : c.toNat < 128 := UInt8.lt_iff_toNat_lt.1 hc
      simp only [List.forall_mem_cons, List.not_mem_nil, false_implies, implies_true, and_true]
      exact ⟨by decide, by decide, by decide, by decide, hhex _ (by omega), hhex _ (by omega)⟩
    · exact List.forall_mem_singleton.2 hc

lemma jsonChar_of_le {c : UInt8} (hc : 128 ≤ c) : jsonChar c = [c] := by
  have hne : ∀ d : UInt8, d < 128 → c ≠ d := by
    rintro d hd rfl
    exact absurd hc (UInt8.not_le.2 hd)
  have hescape : escapeJsonChar c = none := by
    rw [escapeJsonChar, if_neg (hne _ (by decide)), if_neg (hne _ (by decide)), if_neg (hne _ (by decide)),
      if_neg (hne _ (by decide)), if_neg (hne _ (by decide)), if_neg (hne _ (by decide))]
  rw [jsonChar, hescape]
  exact if_neg fun hlt => absurd (UInt8.lt_trans hlt (by decide : (32 : UInt8) < 128)) (UInt8.not_lt.2 hc)

lemma IsUtf8.jsonString (h : IsUtf8 s) : IsUtf8 (jsonString s) := by
  obtain ⟨cs, rfl⟩ := h
  have hchars : IsUtf8 ((encode cs).flatMap jsonChar) := by
    induction cs with
    | nil => exact isUtf8_nil
    | cons c cs ih =>
      rw [encode_cons, List.flatMap_append]
      refine IsUtf8.append ?_ ih
      rcases Nat.lt_or_ge c.toNat 128 with hc | hc
      · rw [← Char.ofNat_toNat c, utf8EncodeChar_ofNat hc, List.flatMap_singleton]
        have hlt : (UInt8.ofNat c.toNat).toNat < 128 := by
          rw [UInt8.toNat_ofNat']
          omega
        exact isUtf8_ascii (ascii_jsonChar (UInt8.lt_iff_toNat_lt.2 hlt))
      · have hsame : ∀ b ∈ String.utf8EncodeChar c, jsonChar b = [b] := fun b hb =>
          jsonChar_of_le (le_of_mem_utf8EncodeChar hc hb)
        rw [List.flatMap_congr hsame, List.flatMap_singleton']
        exact ⟨[c], (List.flatMap_singleton _ _).symm⟩
  exact IsUtf8.append (isUtf8_ascii (s := [quote]) (by simp [quote])) (hchars.append (isUtf8_ascii (by simp [quote])))

lemma isUtf8_line (n : ℕ) : IsUtf8 (line n) := by
  refine isUtf8_ascii fun c hc => ?_
  rcases List.mem_cons.1 hc with rfl | hc
  · decide
  · rw [List.eq_of_mem_replicate hc]
    decide

lemma isUtf8_items {n : ℕ} {l : List Fragment} (h : ∀ f ∈ l, IsUtf8 (f n)) (first : Bool) :
    IsUtf8 (items n first l) := by
  induction l generalizing first with
  | nil => exact isUtf8_nil
  | cons f l ih =>
    have hcomma : IsUtf8 (if first then [] else [44]) := isUtf8_ascii (by cases first <;> simp)
    exact ((hcomma.append (isUtf8_line n)).append (h f List.mem_cons_self)).append
      (ih (fun g hg => h g (List.mem_cons_of_mem f hg)) false)

lemma isUtf8_block {n : ℕ} {l : List Fragment} (h : ∀ f ∈ l, IsUtf8 (f (n + 1))) {left right : UInt8}
    (hleft : left < 128) (hright : right < 128) : IsUtf8 (block left right l n) := by
  have hbody := ((isUtf8_items h true).append (isUtf8_line n)).append
    (isUtf8_ascii (List.forall_mem_singleton.2 hright))
  exact (isUtf8_ascii (List.forall_mem_singleton.2 hleft)).append hbody

lemma isUtf8_integer (i : ℤ) : IsUtf8 (integer i) := by
  have hdecimal : ∀ c ∈ decimal i.natAbs, c < 128 := by
    intro c hc
    have hdigit := (decimal_digits i.natAbs).1 c hc
    rw [isDigit, Bool.and_eq_true, decide_eq_true_eq, decide_eq_true_eq] at hdigit
    exact UInt8.lt_of_le_of_lt hdigit.2 (by decide)
  rw [integer]
  split_ifs
  · exact isUtf8_ascii (List.forall_mem_cons.2 ⟨by decide, hdecimal⟩)
  · exact isUtf8_ascii hdecimal

/-! ### The layout of a tree -/

/-- The calls write the layout `f` of the tree. -/
structure HasLayout (ops : List JsonOp) (t : Value) (f : Fragment) : Prop where
  writes : Writes (runJson ops) f
  parses : Parses f t
  isValue : ∀ n, IsValue (f n)
  isUtf8 : (∀ op ∈ ops, IsUtf8 op.text) → ∀ n, IsUtf8 (f n)

lemma exists_hasLayout_leaf (h : op.value = some t) : ∃ f, HasLayout [op] t f := by
  have hwrites : ∀ text, op.call = writeValue text → Writes (runJson [op]) fun _ => text := by
    intro text hcall
    rw [runJson_singleton, hcall]
    exact writes_writeValue text
  cases op with
  | writeStrValue value =>
    obtain rfl := Option.some.inj h
    exact ⟨_, hwrites _ rfl, parses_string (readsString_jsonString value), fun _ => .string (isString_jsonString value),
      fun htext _ => (htext _ (List.mem_singleton_self _)).jsonString⟩
  | writeIntValue value =>
    obtain rfl := Option.some.inj h
    exact ⟨_, hwrites _ rfl, parses_integer value, fun _ => isValue_integer value, fun _ _ => isUtf8_integer value⟩
  | writeBoolValue value =>
    obtain rfl := Option.some.inj h
    refine ⟨_, hwrites _ rfl, ?_, fun _ => isValue_boolText value, fun _ _ =>
      isUtf8_ascii (by cases value <;> simp [boolText])⟩
    cases value
    · exact parses_false
    · exact parses_true
  | writeNullValue =>
    obtain rfl := Option.some.inj h
    exact ⟨_, hwrites _ rfl, parses_null, fun _ => .litNull, fun _ _ => isUtf8_ascii (by simp)⟩
  | _ => exact absurd h.symm (Option.some_ne_none t)

/-- Calls that write a tree write its layout. -/
lemma Written.exists_hasLayout (h : Written ops t) : ∃ f, HasLayout ops t f := by
  induction h with
  | leaf h => exact exists_hasLayout_leaf h
  | array l _ ih =>
    choose! f hf using ih
    refine ⟨Lib.Json.array (l.map f), ?_, ?_, fun n => isValue_array ?_,
      fun htext n => isUtf8_block ?_ (by decide) (by decide)⟩
    · rw [runJson_block]
      exact writes_array (writesItems_elements fun p hp => (hf p hp).writes)
    · have hparses := parses_array (l := l.map fun p => (f p, p.2))
        (List.forall_mem_map.2 fun p hp => (hf p hp).parses)
      rw [List.map_map, List.map_map] at hparses
      exact hparses
    · exact List.forall_mem_map.2 fun p hp => (hf p hp).isValue _
    · refine List.forall_mem_map.2 fun p hp => (hf p hp).isUtf8 (fun op hop => htext op ?_) _
      exact List.mem_cons_of_mem _ (List.mem_append_left _ (List.mem_flatMap_of_mem hp hop))
  | object l _ ih =>
    choose! f hf using ih
    refine ⟨Lib.Json.object (l.map fun p => member (jsonString p.1) (f p)), ?_, ?_, fun n => isValue_object ?_,
      fun htext n => isUtf8_block ?_ (by decide) (by decide)⟩
    · rw [runJson_block]
      exact writes_object (writesItems_members fun p hp => (hf p hp).writes)
    · have hparses := parses_object (l := l.map fun p => (member (jsonString p.1) (f p), p.1, p.2.2))
        (List.forall_mem_map.2 fun p hp => ⟨_, _, rfl, readsString_jsonString p.1, (hf p hp).parses⟩)
      rw [List.map_map, List.map_map] at hparses
      exact hparses
    · exact List.forall_mem_map.2 fun p hp => isMember_member (isString_jsonString p.1) ((hf p hp).isValue _)
    · refine List.forall_mem_map.2 fun p hp => ?_
      have hmem : ∀ op ∈ JsonOp.writeAttribute p.1 :: p.2.1, IsUtf8 op.text := fun op hop =>
        htext op (List.mem_cons_of_mem _ (List.mem_append_left _ (List.mem_flatMap_of_mem hp hop)))
      rw [List.forall_mem_cons] at hmem
      exact (hmem.1.jsonString.append (isUtf8_ascii (by simp))).append ((hf p hp).isUtf8 hmem.2 _)

/-! ### The middle of a run -/

/-- The kinds of the states, from the innermost on. -/
def kinds (w : CJsonStringWriter) : List EJsonStateKind := w.states.map SState.kind

/-- `CanWriteDatatype`, as far as the kinds go. -/
def CanWrite (k : List EJsonStateKind) : Prop := ∀ kind ∈ k.head?, kind ≠ .stateObject

/-- The kinds behind a complete value. -/
def complete : List EJsonStateKind → List EJsonStateKind
  | .stateAttribute :: k => k
  | k => k

/-- The calls of objects and arrays that are still open, with their complete items. -/
inductive Open : List EJsonStateKind → List JsonOp → Prop
  | root : Open [] []
  | array {k : List EJsonStateKind} {before : List JsonOp} (hopen : Open k before) (hwrite : CanWrite k)
      (l : List (List JsonOp × Value)) (h : ∀ p ∈ l, Written p.1 p.2) :
      Open (.stateArray :: k) (before ++ .beginArray :: l.flatMap Prod.fst)
  | object {k : List EJsonStateKind} {before : List JsonOp} (hopen : Open k before) (hwrite : CanWrite k)
      (l : List (List UInt8 × List JsonOp × Value)) (h : ∀ p ∈ l, Written p.2.1 p.2.2) :
      Open (.stateObject :: k) (before ++ .beginObject :: l.flatMap fun p => .writeAttribute p.1 :: p.2.1)
  | named {k : List EJsonStateKind} {before : List JsonOp} (hopen : Open (.stateObject :: k) before)
      (name : List UInt8) : Open (.stateAttribute :: .stateObject :: k) (before ++ [.writeAttribute name])

/-- A value goes to the innermost object or array that is open. -/
lemma Open.value {k : List EJsonStateKind} {before : List JsonOp} (hopen : Open k before) (hwrite : CanWrite k)
    (hk : k ≠ []) (h : Written ops t) : Open (complete k) (before ++ ops) := by
  cases hopen with
  | root => exact absurd rfl hk
  | @array k before hopen hwrite' l hl =>
    have hitems := Open.array hopen hwrite' (l ++ [(ops, t)]) (List.forall_mem_append.2
      ⟨hl, List.forall_mem_singleton.2 h⟩)
    rw [List.flatMap_append, List.flatMap_singleton, ← List.cons_append, ← List.append_assoc] at hitems
    exact hitems
  | object => exact absurd rfl (hwrite _ rfl)
  | named hopen name =>
    cases hopen with
    | @object k before hopen hwrite' l hl =>
      have hitems := Open.object hopen hwrite' (l ++ [(name, ops, t)]) (List.forall_mem_append.2
        ⟨hl, List.forall_mem_singleton.2 h⟩)
      rw [List.flatMap_append, List.flatMap_singleton, ← List.cons_append, ← List.append_assoc] at hitems
      rw [List.append_assoc, List.singleton_append]
      exact hitems

/-! ### One call -/

section Kinds

variable {w w' : CJsonStringWriter} {kind : EJsonStateKind}

@[simp] lemma kinds_writeInternal (str : List UInt8) : kinds (w.writeInternal str) = kinds w := rfl

@[simp] lemma kinds_writeIndent (endElement : Bool) : kinds (w.writeIndent endElement) = kinds w := by
  rw [writeIndent]
  cases w.states with
  | nil => cases endElement <;> rfl
  | cons top states =>
    dsimp only
    split_ifs <;> rfl

lemma map_kind_clearEmpty (states : List SState) : (clearEmpty states).map SState.kind = states.map SState.kind := by
  cases states <;> rfl

@[simp] lemma kinds_pushState : kinds (w.pushState kind) = kind :: kinds w := by
  rw [kinds, pushState, List.map_cons, map_kind_clearEmpty, kinds]

@[simp] lemma kinds_popState : kinds w.popState = (kinds w).tail := by
  rw [popState]
  cases hstates : w.states with
  | nil => simp [kinds, hstates]
  | cons top states => simp [kinds, hstates]

lemma topIs_iff : w.topIs kind = true ↔ ∃ k, kinds w = kind :: k := by
  rw [topIs, kinds]
  cases w.states with
  | nil => simp
  | cons top states => simp

lemma canWriteDatatype_iff : w.canWriteDatatype = true ↔ CanWrite (kinds w) := by
  rw [canWriteDatatype, kinds, CanWrite]
  cases w.states with
  | nil => simp
  | cons top states => cases hkind : top.kind <;> simp [hkind]

@[simp] lemma kinds_completeDataType : kinds w.completeDataType = complete (kinds w) := by
  rw [completeDataType, kinds]
  dsimp only
  rw [map_kind_clearEmpty]
  cases htop : w.topIs .stateAttribute with
  | true =>
    obtain ⟨k, hk⟩ := topIs_iff.1 htop
    rw [if_pos rfl, ← kinds, kinds_popState, hk]
    rfl
  | false =>
    rw [if_neg Bool.false_ne_true, ← kinds]
    cases hk : kinds w with
    | nil => rfl
    | cons kind k =>
      cases kind with
      | stateAttribute => exact absurd (topIs_iff.2 ⟨k, hk⟩) (by rw [htop]; exact Bool.false_ne_true)
      | _ => rfl

lemma call_eq_some {assertion : CJsonStringWriter → Bool} {f : CJsonStringWriter → CJsonStringWriter}
    (h : CJsonStringWriter.call assertion f w = some ((), w')) : assertion w = true ∧ w' = f w := by
  rw [CJsonStringWriter.call] at h
  split_ifs at h with hassertion
  exact ⟨hassertion, (Prod.mk.inj (Option.some.inj h)).2.symm⟩

/-- What a call may be, and what it does to the kinds of the states. -/
inductive StepKinds : JsonOp → List EJsonStateKind → List EJsonStateKind → Prop
  | value {op : JsonOp} {t : Value} {k : List EJsonStateKind} (h : op.value = some t) (hwrite : CanWrite k) :
      StepKinds op k (complete k)
  | beginArray {k : List EJsonStateKind} (hwrite : CanWrite k) : StepKinds .beginArray k (.stateArray :: k)
  | beginObject {k : List EJsonStateKind} (hwrite : CanWrite k) : StepKinds .beginObject k (.stateObject :: k)
  | endArray {k : List EJsonStateKind} : StepKinds .endArray (.stateArray :: k) (complete k)
  | endObject {k : List EJsonStateKind} : StepKinds .endObject (.stateObject :: k) (complete k)
  | writeAttribute {name : List UInt8} {k : List EJsonStateKind} :
      StepKinds (.writeAttribute name) (.stateObject :: k) (.stateAttribute :: .stateObject :: k)

lemma stepKinds_writeValue {text : List UInt8} (hcall : op.call = writeValue text) (hvalue : op.value = some t)
    (h : op.call w = some ((), w')) : StepKinds op (kinds w) (kinds w') := by
  rw [hcall] at h
  obtain ⟨hwrite, rfl⟩ := call_eq_some h
  have hstep := StepKinds.value hvalue (canWriteDatatype_iff.1 hwrite)
  simpa using hstep

lemma stepKinds_endBlock {right : UInt8} (h : endBlock kind right w = some ((), w')) :
    ∃ k, kinds w = kind :: k ∧ kinds w' = complete k := by
  obtain ⟨htop, rfl⟩ := call_eq_some h
  obtain ⟨k, hk⟩ := topIs_iff.1 htop
  exact ⟨k, hk, by simp [hk]⟩

lemma stepKinds_beginBlock {left : UInt8} (h : beginBlock kind left w = some ((), w')) :
    CanWrite (kinds w) ∧ kinds w' = kind :: kinds w := by
  obtain ⟨hwrite, rfl⟩ := call_eq_some h
  exact ⟨canWriteDatatype_iff.1 hwrite, by simp⟩

lemma stepKinds_call (h : op.call w = some ((), w')) : StepKinds op (kinds w) (kinds w') := by
  cases op with
  | beginObject =>
    obtain ⟨hwrite, hkinds⟩ := stepKinds_beginBlock h
    exact hkinds ▸ .beginObject hwrite
  | beginArray =>
    obtain ⟨hwrite, hkinds⟩ := stepKinds_beginBlock h
    exact hkinds ▸ .beginArray hwrite
  | endObject =>
    obtain ⟨k, hk, hk'⟩ := stepKinds_endBlock h
    rw [hk, hk']
    exact .endObject
  | endArray =>
    obtain ⟨k, hk, hk'⟩ := stepKinds_endBlock h
    rw [hk, hk']
    exact .endArray
  | writeAttribute name =>
    change CJsonStringWriter.writeAttribute name w = some ((), w') at h
    obtain ⟨htop, rfl⟩ := call_eq_some h
    obtain ⟨k, hk⟩ := topIs_iff.1 htop
    simp only [kinds_pushState, kinds_writeInternal, kinds_writeIndent, hk]
    exact .writeAttribute
  | writeStrValue value => exact stepKinds_writeValue rfl rfl h
  | writeIntValue value => exact stepKinds_writeValue rfl rfl h
  | writeBoolValue value => exact stepKinds_writeValue rfl rfl h
  | writeNullValue => exact stepKinds_writeValue rfl rfl h

end Kinds

/-- A complete value is either the root or an item of what is open. -/
lemma Open.complete_value {k : List EJsonStateKind} {before : List JsonOp} (hopen : Open k before) (hwrite : CanWrite k)
    (h : Written ops t) : Open (complete k) (before ++ ops) ∨ complete k = [] ∧ Written (before ++ ops) t := by
  by_cases hk : k = []
  · subst hk
    cases hopen
    exact .inr ⟨rfl, h⟩
  · exact .inl (hopen.value hwrite hk h)

lemma Open.step {k k' : List EJsonStateKind} {before : List JsonOp} (hopen : Open k before) (h : StepKinds op k k') :
    Open k' (before ++ [op]) ∨ k' = [] ∧ ∃ t, Written (before ++ [op]) t := by
  have hvalue : ∀ {k before ops t}, Open k before → CanWrite k → Written ops t →
      Open (complete k) (before ++ ops) ∨ complete k = [] ∧ ∃ t, Written (before ++ ops) t :=
    fun hopen hwrite h => (hopen.complete_value hwrite h).imp_right fun h => ⟨h.1, _, h.2⟩
  cases h with
  | value h hwrite => exact hvalue hopen hwrite (.leaf h)
  | beginArray hwrite => exact .inl (.array hopen hwrite [] (by simp))
  | beginObject hwrite => exact .inl (.object hopen hwrite [] (by simp))
  | endArray =>
    cases hopen with
    | array hopen hwrite l hl =>
      rw [List.append_assoc, List.cons_append]
      exact hvalue hopen hwrite (.array l hl)
  | endObject =>
    cases hopen with
    | object hopen hwrite l hl =>
      rw [List.append_assoc, List.cons_append]
      exact hvalue hopen hwrite (.object l hl)
  | writeAttribute => exact .inl (.named hopen _)

/-! ### Runs -/

lemma runJson_concat {w w' : CJsonStringWriter} (h : runJson (ops ++ [op]) w = some ((), w')) :
    ∃ v, runJson ops w = some ((), v) ∧ op.call v = some ((), w') := by
  rw [runJson_append, runJson_singleton, run_seq] at h
  obtain ⟨⟨⟨⟩, v⟩, hops, hop⟩ := Option.bind_eq_some_iff.1 h
  exact ⟨v, hops, hop⟩

/-- Calls that write one root value are open in the middle, and a tree at the end. -/
lemma open_or_written {w : CJsonStringWriter} (hrun : runJson ops .new = some ((), w))
    (hsingle : ∀ before after, ops = before ++ after → before ≠ [] → after ≠ [] →
      ∀ w, runJson before .new = some ((), w) → w.states ≠ []) :
    Open (kinds w) ops ∨ kinds w = [] ∧ ∃ t, Written ops t := by
  induction ops using List.reverseRecOn generalizing w with
  | nil =>
    obtain rfl := (Prod.mk.inj (Option.some.inj hrun)).2
    exact .inl .root
  | append_singleton ops op ih =>
    obtain ⟨v, hops, hop⟩ := runJson_concat hrun
    have hbefore := ih hops fun before after heq hne hne' =>
      hsingle before (after ++ [op]) (by rw [heq, List.append_assoc]) hne (by simp)
    obtain hopen | ⟨hkinds, t, ht⟩ := hbefore
    · exact hopen.step (stepKinds_call hop)
    · -- the root value was complete before the last call
      have hne : ops ≠ [] := by
        rintro rfl
        cases ht
      exact absurd (List.map_eq_nil_iff.1 hkinds) (hsingle ops [op] rfl hne (by simp) v hops)

theorem WritesRoot.exists_written (h : WritesRoot ops) : ∃ t, Written ops t := by
  obtain ⟨w, hrun, hclosed⟩ := h.closed
  have hkinds : kinds w = [] := by rw [kinds, hclosed, List.map_nil]
  obtain hopen | ⟨-, hwritten⟩ := open_or_written hrun h.single
  · rw [hkinds] at hopen
    cases hopen
    exact absurd rfl h.ne_nil
  · exact hwritten

/-- The calls write a tree, and the output is a text in UTF-8 that is read as this tree. -/
theorem output_parses (h : WritesRoot ops) (htext : ∀ op ∈ ops, IsUtf8 op.text) :
    ∃ t out, Written ops t ∧ getOutputString (runJson ops) = some out ∧ IsText out ∧ IsUtf8 out ∧
      parse out = some t := by
  obtain ⟨t, ht⟩ := h.exists_written
  obtain ⟨f, hf⟩ := ht.exists_hasLayout
  have hnewline : IsWs [10] := by simp [IsWs]
  exact ⟨t, _, ht, hf.writes.getOutputString, ⟨[], f 0, [10], by simp [IsWs], hf.isValue 0, hnewline, rfl⟩,
    (hf.isUtf8 htext 0).append (isUtf8_ascii (by simp)), hf.parses.parse_eq⟩

/-- An object with a line end in a string. -/
def lineEnd : List JsonOp := [.beginObject, .writeAttribute [97], .writeStrValue [10], .endObject]

lemma writesRoot_lineEnd : WritesRoot lineEnd where
  ne_nil := List.cons_ne_nil _ _
  closed := ⟨_, rfl, rfl⟩
  single before after heq hne hne' w hw := by
    have hbefore : before = lineEnd.take before.length := by rw [heq, List.take_left]
    have hlength := congrArg List.length heq
    have hpos := List.length_pos_iff.2 hne
    have hpos' := List.length_pos_iff.2 hne'
    rw [List.length_append] at hlength
    change 4 = _ at hlength
    have hlt : before.length < 4 := by omega
    rw [hbefore] at hw
    generalize before.length = n at hw hpos hlt
    interval_cases n <;> obtain rfl := (Prod.mk.inj (Option.some.inj hw)).2 <;> exact List.cons_ne_nil _ _

theorem output_parses_lineEnd : ∃ t out, Written lineEnd t ∧ getOutputString (runJson lineEnd) = some out ∧ IsText out ∧
    IsUtf8 out ∧ parse out = some t := by
  refine output_parses writesRoot_lineEnd fun op hop => isUtf8_ascii ?_
  simp only [lineEnd, List.mem_cons, List.not_mem_nil, or_false] at hop
  rcases hop with rfl | rfl | rfl | rfl <;> simp [JsonOp.text]

/-- A tree is determined by its calls. -/
lemma Written.unique {t' : Value} (h : Written ops t) (h' : Written ops t') : t = t' := by
  obtain ⟨f, hf⟩ := h.exists_hasLayout
  obtain ⟨f', hf'⟩ := h'.exists_hasLayout
  have hout := hf.writes.getOutputString.symm.trans hf'.writes.getOutputString
  have hparse := hf.parses.parse_eq
  rw [Option.some.inj hout, hf'.parses.parse_eq] at hparse
  exact (Option.some.inj hparse).symm

end DDNet
