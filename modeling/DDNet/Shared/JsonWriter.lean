/-
The JSON writer (`CJsonStringWriter`, `engine/shared/jsonwriter.cpp`).

Whatever the state that it starts in, the calls for a value append the layout of this value (`Writes`), and the calls for
members or elements append these (`WritesItems`); each rule of this kind is about one call or one combination of calls.
-/
import DDNet.Base.StrParse
import DDNet.Lib.Json

namespace DDNet

open Lib Lib.Json

/-- `EJsonStateKind`. -/
inductive EJsonStateKind where
  | stateObject
  | stateArray
  | stateAttribute
deriving DecidableEq

/-- `CJsonWriter::SState`. -/
structure SState where
  kind : EJsonStateKind
  empty : Bool
deriving DecidableEq

/-- `CJsonStringWriter`; the top of the stack is the head of the list. -/
structure CJsonStringWriter where
  states : List SState
  indentation : ℕ
  outputString : List UInt8
deriving DecidableEq

/-- A call, `none` where an assertion fails. -/
abbrev JsonCall := StateT CJsonStringWriter Option Unit

/-- `EscapeJsonChar`. -/
def escapeJsonChar (c : UInt8) : Option UInt8 :=
  if c = quote then some quote
  else if c = backslash then some backslash
  else if c = 8 then some 98
  else if c = 10 then some 110
  else if c = 13 then some 114
  else if c = 9 then some 116
  else none

/-- A digit of `%04x`. -/
def hexDigit (n : ℕ) : UInt8 := if n < 10 then UInt8.ofNat (48 + n) else UInt8.ofNat (87 + n)

/-- What `WriteInternalEscaped` writes for a character. -/
def jsonChar (c : UInt8) : List UInt8 :=
  match escapeJsonChar c with
  | some d => [backslash, d]
  | none => if c < 32 then [backslash, 117, 48, 48, hexDigit (c.toNat / 16), hexDigit (c.toNat % 16)] else [c]

/-- What `WriteInternalEscaped` writes. -/
def jsonString (str : List UInt8) : List UInt8 := quote :: (str.flatMap jsonChar ++ [quote])

namespace CJsonStringWriter

/-- `CanWriteDatatype`. -/
def canWriteDatatype (w : CJsonStringWriter) : Bool :=
  match w.states with
  | [] => true
  | top :: _ => top.kind = .stateArray || top.kind = .stateAttribute

/-- `TopState()->m_Kind == Kind`. -/
def topIs (kind : EJsonStateKind) (w : CJsonStringWriter) : Bool :=
  match w.states with
  | [] => false
  | top :: _ => top.kind = kind

/-- `TopState()->m_Empty = false`, if there is a state. -/
def clearEmpty : List SState → List SState
  | [] => []
  | top :: states => { top with empty := false } :: states

/-- `WriteInternal`. -/
def writeInternal (str : List UInt8) (w : CJsonStringWriter) : CJsonStringWriter :=
  { w with outputString := w.outputString ++ str }

/-- `WriteIndent`. -/
def writeIndent (endElement : Bool) (w : CJsonStringWriter) : CJsonStringWriter :=
  match w.states with
  | [] => if endElement then w.writeInternal [10] else w
  | top :: _ =>
    if top.kind = .stateAttribute then
      if endElement then w.writeInternal [10] else w
    else
      w.writeInternal ((if !top.empty && !endElement then [44] else []) ++ line w.indentation)

/-- `PushState`. -/
def pushState (kind : EJsonStateKind) (w : CJsonStringWriter) : CJsonStringWriter :=
  { w with
    states := ⟨kind, true⟩ :: clearEmpty w.states
    indentation := if kind = .stateAttribute then w.indentation else w.indentation + 1 }

/-- `PopState`. -/
def popState (w : CJsonStringWriter) : CJsonStringWriter :=
  match w.states with
  | [] => w
  | top :: states =>
    { w with
      states := states
      indentation := if top.kind = .stateAttribute then w.indentation else w.indentation - 1 }

/-- `CompleteDataType`. -/
def completeDataType (w : CJsonStringWriter) : CJsonStringWriter :=
  let w := if w.topIs .stateAttribute then w.popState else w
  { w with states := clearEmpty w.states }

/-- A function that asserts something of the writer. -/
def call (assertion : CJsonStringWriter → Bool) (f : CJsonStringWriter → CJsonStringWriter) : JsonCall :=
  fun w => if assertion w then some ((), f w) else none

/-- The body of `BeginObject` and `BeginArray`. -/
def beginBlock (kind : EJsonStateKind) (left : UInt8) : JsonCall :=
  call canWriteDatatype fun w => ((w.writeIndent false).writeInternal [left]).pushState kind

/-- The body of `EndObject` and `EndArray`. -/
def endBlock (kind : EJsonStateKind) (right : UInt8) : JsonCall :=
  call (topIs kind) fun w => (w.popState.completeDataType.writeIndent true).writeInternal [right]

/-- `BeginObject`. -/
def beginObject : JsonCall := beginBlock .stateObject 123

/-- `EndObject`. -/
def endObject : JsonCall := endBlock .stateObject 125

/-- `BeginArray`. -/
def beginArray : JsonCall := beginBlock .stateArray 91

/-- `EndArray`. -/
def endArray : JsonCall := endBlock .stateArray 93

/-- `WriteAttribute`. -/
def writeAttribute (name : List UInt8) : JsonCall :=
  call (topIs .stateObject) fun w =>
    (((w.writeIndent false).writeInternal (jsonString name)).writeInternal [58, 32]).pushState .stateAttribute

/-- The body of the functions that write a value. -/
def writeValue (text : List UInt8) : JsonCall :=
  call canWriteDatatype fun w => ((w.writeIndent false).writeInternal text).completeDataType

/-- `WriteStrValue`. -/
def writeStrValue (value : List UInt8) : JsonCall := writeValue (jsonString value)

/-- `WriteIntValue`. -/
def writeIntValue (value : ℤ) : JsonCall := writeValue (integer value)

/-- The text of a truth value. -/
def boolText (value : Bool) : List UInt8 := if value then [116, 114, 117, 101] else [102, 97, 108, 115, 101]

/-- `WriteBoolValue`. -/
def writeBoolValue (value : Bool) : JsonCall := writeValue (boolText value)

/-- `WriteNullValue`. -/
def writeNullValue : JsonCall := writeValue [110, 117, 108, 108]

/-- The calls on a new writer, and `GetOutputString`. -/
def getOutputString (calls : JsonCall) : Option (List UInt8) :=
  (calls ⟨[], 0, []⟩).map fun r => (r.2.writeInternal [10]).outputString

end CJsonStringWriter

open CJsonStringWriter

/-! ### What the calls append -/

/-- The calls write a value: as the root, as the value of an attribute, or as the next element of an array. -/
structure Writes (calls : JsonCall) (f : Fragment) : Prop where
  root : ∀ out, calls ⟨[], 0, out⟩ = some ((), ⟨[], 0, out ++ f 0⟩)
  value : ∀ e e' states n out, calls ⟨⟨.stateAttribute, e⟩ :: ⟨.stateObject, e'⟩ :: states, n, out⟩ =
    some ((), ⟨⟨.stateObject, false⟩ :: states, n, out ++ f n⟩)
  element : ∀ e states n out, calls ⟨⟨.stateArray, e⟩ :: states, n, out⟩ =
    some ((), ⟨⟨.stateArray, false⟩ :: states, n, out ++ items n e [f]⟩)

/-- The calls write the next members of an object or the next elements of an array. -/
def WritesItems (kind : EJsonStateKind) (calls : JsonCall) (l : List Fragment) : Prop :=
  ∀ e states n out, calls ⟨⟨kind, e⟩ :: states, n, out⟩ =
    some ((), ⟨⟨kind, e && l.isEmpty⟩ :: states, n, out ++ items n e l⟩)

lemma items_singleton (n : ℕ) (e : Bool) (f : Fragment) :
    items n e [f] = (if e then [] else [44]) ++ (line n ++ f n) := by
  simp [items]

lemma run_seq (a b : JsonCall) (w : CJsonStringWriter) :
    (do a; b : JsonCall) w = (a w).bind fun r => b r.2 := rfl

/-- A literal. -/
lemma writes_writeValue (text : List UInt8) : Writes (writeValue text) fun _ => text where
  root _ := rfl
  value _ _ _ _ _ := rfl
  element e states n out := by
    rw [items_singleton]
    cases e <;> simp [writeValue, call, canWriteDatatype, writeIndent, writeInternal, completeDataType, topIs, clearEmpty]

/-- The start of an object or an array, in the three places of a value. -/
lemma beginBlock_root {kind : EJsonStateKind} (hkind : kind ≠ .stateAttribute) (left : UInt8) (out : List UInt8) :
    beginBlock kind left ⟨[], 0, out⟩ = some ((), ⟨[⟨kind, true⟩], 1, out ++ [left]⟩) := by
  simp [beginBlock, call, canWriteDatatype, writeIndent, writeInternal, pushState, clearEmpty, hkind]

lemma beginBlock_value {kind : EJsonStateKind} (hkind : kind ≠ .stateAttribute) (left : UInt8) (e : Bool)
    (states : List SState) (n : ℕ) (out : List UInt8) :
    beginBlock kind left ⟨⟨.stateAttribute, e⟩ :: states, n, out⟩ =
      some ((), ⟨⟨kind, true⟩ :: ⟨.stateAttribute, false⟩ :: states, n + 1, out ++ [left]⟩) := by
  simp [beginBlock, call, canWriteDatatype, writeIndent, writeInternal, pushState, clearEmpty, hkind]

lemma beginBlock_element {kind : EJsonStateKind} (hkind : kind ≠ .stateAttribute) (left : UInt8) (e : Bool)
    (states : List SState) (n : ℕ) (out : List UInt8) :
    beginBlock kind left ⟨⟨.stateArray, e⟩ :: states, n, out⟩ =
      some ((), ⟨⟨kind, true⟩ :: ⟨.stateArray, false⟩ :: states, n + 1,
        out ++ ((if e then [] else [44]) ++ (line n ++ [left]))⟩) := by
  cases e <;> simp [beginBlock, call, canWriteDatatype, writeIndent, writeInternal, pushState, clearEmpty, hkind]

/-- Members in braces, or elements in brackets, are a value. -/
lemma writes_block {kind : EJsonStateKind} (hkind : kind ≠ .stateAttribute) (left right : UInt8) {calls : JsonCall}
    {l : List Fragment} (h : WritesItems kind calls l) :
    Writes (do beginBlock kind left; calls; endBlock kind right) (block left right l) where
  root out := by
    rw [run_seq, beginBlock_root hkind, Option.bind_some, run_seq, h, Option.bind_some]
    simp [endBlock, call, topIs, popState, hkind, completeDataType, clearEmpty, writeIndent, writeInternal, block, line]
  value e e' states n out := by
    rw [run_seq, beginBlock_value hkind, Option.bind_some, run_seq, h, Option.bind_some]
    simp [endBlock, call, topIs, popState, hkind, completeDataType, clearEmpty, writeIndent, writeInternal, block]
  element e states n out := by
    rw [run_seq, beginBlock_element hkind, Option.bind_some, run_seq, h, Option.bind_some, items_singleton]
    simp [endBlock, call, topIs, popState, hkind, completeDataType, clearEmpty, writeIndent, writeInternal, block]

/-- An object. -/
lemma writes_object {calls : JsonCall} {l : List Fragment} (h : WritesItems .stateObject calls l) :
    Writes (do beginObject; calls; endObject) (object l) :=
  writes_block (by decide) 123 125 h

/-- An array. -/
lemma writes_array {calls : JsonCall} {l : List Fragment} (h : WritesItems .stateArray calls l) :
    Writes (do beginArray; calls; endArray) (array l) :=
  writes_block (by decide) 91 93 h

/-! ### Items -/

/-- An attribute with its value. -/
lemma writesItems_attribute (name : List UInt8) {calls : JsonCall} {f : Fragment} (h : Writes calls f) :
    WritesItems .stateObject (do writeAttribute name; calls) [member (jsonString name) f] := by
  intro e states n out
  have hname : writeAttribute name ⟨⟨.stateObject, e⟩ :: states, n, out⟩ =
      some ((), ⟨⟨.stateAttribute, true⟩ :: ⟨.stateObject, false⟩ :: states, n,
        out ++ ((if e then [] else [44]) ++ (line n ++ (jsonString name ++ [58, 32])))⟩) := by
    cases e <;> simp [writeAttribute, call, topIs, writeIndent, writeInternal, pushState, clearEmpty]
  rw [run_seq, hname, Option.bind_some, h.value, items_singleton]
  simp [member]

/-- An element of an array. -/
lemma writesItems_element {calls : JsonCall} {f : Fragment} (h : Writes calls f) :
    WritesItems .stateArray calls [f] := by
  intro e states n out
  rw [h.element]
  simp

lemma writesItems_nil (kind : EJsonStateKind) : WritesItems kind (pure ()) [] := by
  intro e states n out
  rw [items, List.append_nil, List.isEmpty_nil, Bool.and_true]
  rfl

/-- Items after items. -/
lemma WritesItems.append {kind : EJsonStateKind} {calls calls' : JsonCall} {l l' : List Fragment}
    (h : WritesItems kind calls l) (h' : WritesItems kind calls' l') :
    WritesItems kind (do calls; calls') (l ++ l') := by
  intro e states n out
  rw [run_seq, h, Option.bind_some, h', items_append]
  cases l <;> simp

/-- An attribute with its value, and the members after it. -/
lemma WritesItems.cons {name : List UInt8} {calls calls' : JsonCall} {f : Fragment} {l : List Fragment}
    (h : Writes calls f) (h' : WritesItems .stateObject calls' l) :
    WritesItems .stateObject (do writeAttribute name; calls; calls') (member (jsonString name) f :: l) :=
  (writesItems_attribute name h).append h'

/-- The items of a loop. -/
lemma writesItems_forM {α : Type} {kind : EJsonStateKind} (xs : List α) {calls : α → JsonCall} {l : α → List Fragment}
    (h : ∀ x, WritesItems kind (calls x) (l x)) : WritesItems kind (xs.forM calls) (xs.flatMap l) := by
  induction xs with
  | nil => exact writesItems_nil kind
  | cons x xs ih => exact (h x).append ih

/-- Items that are only there under a condition. -/
lemma writesItems_ite {kind : EJsonStateKind} {calls : JsonCall} {l : List Fragment} (p : Prop) [Decidable p]
    (h : WritesItems kind calls l) :
    WritesItems kind (if p then calls else pure ()) (if p then l else []) := by
  split_ifs
  · exact h
  · exact writesItems_nil kind

/-- What `GetOutputString` returns for a value. -/
lemma Writes.getOutputString {calls : JsonCall} {f : Fragment} (h : Writes calls f) :
    CJsonStringWriter.getOutputString calls = some (f 0 ++ [10]) := by
  rw [CJsonStringWriter.getOutputString, h.root]
  rfl

/-! ### Strings -/

lemma jsonChar_isChars (c : UInt8) {s : List UInt8} (hs : IsChars s) : IsChars (jsonChar c ++ s) := by
  rw [jsonChar]
  rcases hescape : escapeJsonChar c with _ | d
  · dsimp only
    split_ifs with hc
    · refine @IsChars.unicode [48, 48, hexDigit (c.toNat / 16), hexDigit (c.toNat % 16)] s rfl ?_ hs
      have hhex : ∀ n < 16, IsHex (hexDigit n) := by
        intro n hn
        interval_cases n <;> decide
      have hlt := c.toNat_lt
      simp only [List.forall_mem_cons, List.not_mem_nil, false_implies, implies_true, and_true]
      exact ⟨by decide, by decide, hhex _ (by omega), hhex _ (by omega)⟩
    · rw [escapeJsonChar] at hescape
      split_ifs at hescape with h1 h2
      exact IsChars.char (UInt8.not_lt.1 hc) h1 h2 hs
  · refine IsChars.escape ?_ hs
    rw [escapeJsonChar] at hescape
    split_ifs at hescape <;> obtain rfl := Option.some.inj hescape <;> decide

/-- What is written for a string is a string. -/
lemma isString_jsonString (str : List UInt8) : IsString (jsonString str) := by
  refine IsString.mk ?_
  induction str with
  | nil => exact IsChars.nil
  | cons c str ih => exact jsonChar_isChars c ih

lemma isValue_boolText (value : Bool) : IsValue (boolText value) := by
  cases value
  · exact IsValue.litFalse
  · exact IsValue.litTrue

end DDNet
