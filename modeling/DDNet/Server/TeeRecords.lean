/-
The records of a teehistorian file (`game/server/teehistorian.cpp`), and a reader of them.

A record is a sequence of fields: ints, raw bytes, and strings with their terminators.  The first int says which
record it is.  A message, a console command and an extra record tell the size of what follows; the payload of an
extra record has a format of its own.  A record is built in a packer of a fixed size, and can be read if the packer
had room for it (`TeeEntry.reads`).
-/
import Mathlib.Data.List.Basic
import DDNet.Shared.Packer

namespace DDNet

open Packing Utf8

/-! ### Fields -/

/-- A field of a record. -/
inductive TeeField where
  | int (i : BitVec 32)
  | raw (data : List UInt8)
  | string (s : List UInt8)
deriving DecidableEq

/-- What a reader has to know to read a field. -/
inductive FieldFormat where
  | int
  | raw (size : ℕ)
  | string
deriving DecidableEq

/-- A string with its terminator. -/
def readString : List UInt8 → Option (List UInt8 × List UInt8)
  | [] => none
  | b :: bytes => if b = 0 then some ([], bytes) else (readString bytes).map fun r => (b :: r.1, r.2)

def readField : FieldFormat → List UInt8 → Option (TeeField × List UInt8)
  | .int, bytes => (CVariableInt.unpack bytes).map fun r => (.int r.1, r.2)
  | .raw size, bytes => if size ≤ bytes.length then some (.raw (bytes.take size), bytes.drop size) else none
  | .string, bytes => (readString bytes).map fun r => (.string r.1, r.2)

def readFields : List FieldFormat → List UInt8 → Option (List TeeField × List UInt8)
  | [], bytes => some ([], bytes)
  | format :: formats, bytes =>
      (readField format bytes).bind fun r => (readFields formats r.2).map fun rs => (r.1 :: rs.1, rs.2)

namespace TeeOp

/-- The format of what a call packs. -/
def format : PackOp → FieldFormat
  | .int _ => .int
  | .raw data => .raw data.length
  | .string _ _ => .string

/-- The field that a call packs. -/
def packed : PackOp → TeeField
  | .int i => .int i
  | .raw data => .raw data
  | .string s limit => .string (packedString s limit)

/-- The argument of a call. -/
def argument : PackOp → TeeField
  | .int i => .int i
  | .raw data => .raw data
  | .string s _ => .string s.bytes

/-- A string is packed as it is: it is valid UTF-8, and not cut. -/
def Exact : PackOp → Prop
  | .string s limit => packedString s limit = s.bytes
  | _ => True

lemma packed_eq_argument {op : PackOp} (h : Exact op) : packed op = argument op := by
  cases op with
  | int => rfl
  | raw => rfl
  | string s limit => exact congrArg TeeField.string h

end TeeOp

open TeeOp

lemma readString_append {s : List UInt8} (hs : (0 : UInt8) ∉ s) (rest : List UInt8) :
    readString (s ++ 0 :: rest) = some (s, rest) := by
  induction s with
  | nil => rfl
  | cons b s ih =>
    have hb : b ≠ 0 := fun h => hs (h ▸ List.mem_cons_self)
    rw [List.cons_append, readString, if_neg hb, ih fun h => hs (List.mem_cons_of_mem _ h)]
    rfl

/-- What one call packs is read back. -/
lemma readField_of_add {p : CPacker} {op : PackOp} (h : (op.add p).error = false) :
    ∃ bytes, op.add p = ⟨p.buffer ++ bytes, false⟩ ∧
      ∀ rest, readField (format op) (bytes ++ rest) = some (packed op, rest) := by
  cases op with
  | int i =>
    obtain ⟨hadd, hok⟩ := addInt_spec h
    refine ⟨_, hadd, ?_⟩
    intro rest
    rw [format, readField, CVariableInt.unpack_pack hok rest]
    rfl
  | raw data =>
    obtain ⟨hadd, -⟩ := addRaw_spec h
    refine ⟨data, hadd, ?_⟩
    intro rest
    have hsize : data.length ≤ (data ++ rest).length := by
      rw [List.length_append]
      exact Nat.le_add_right _ _
    rw [format, readField, if_pos hsize, List.take_left, List.drop_left]
    rfl
  | string s limit =>
    obtain ⟨hadd, -⟩ := addString_spec h
    refine ⟨packedString s limit ++ [0], hadd, ?_⟩
    intro rest
    rw [format, readField, List.append_assoc, List.singleton_append,
      readString_append (zero_notMem_packedString s limit)]
    rfl

lemma readFields_of_foldl {p : CPacker} {ops : List PackOp} (h : (ops.foldl PackOp.add p).error = false) :
    ∃ bytes, ops.foldl PackOp.add p = ⟨p.buffer ++ bytes, false⟩ ∧
      ∀ rest, readFields (ops.map format) (bytes ++ rest) = some (ops.map packed, rest) := by
  induction ops generalizing p with
  | nil =>
    refine ⟨[], ?_, fun rest => rfl⟩
    rw [List.append_nil, List.foldl_nil, ← show p.error = false from h]
  | cons op ops ih =>
    rw [List.foldl_cons] at h
    obtain ⟨bytes, hadd, hread⟩ := readField_of_add (error_of_foldl h)
    obtain ⟨more, hrun, hreads⟩ := ih h
    refine ⟨bytes ++ more, ?_, ?_⟩
    · rw [List.foldl_cons, hrun, hadd, List.append_assoc]
    · intro rest
      rw [List.map_cons, List.map_cons, readFields, List.append_assoc, hread, Option.bind_some, hreads]
      rfl

/-- Fields, and then others. -/
lemma readFields_append {formats formats' : List FieldFormat} {fields fields' : List TeeField}
    {bytes bytes' : List UInt8} (h : ∀ rest, readFields formats (bytes ++ rest) = some (fields, rest))
    (h' : ∀ rest, readFields formats' (bytes' ++ rest) = some (fields', rest)) (rest : List UInt8) :
    readFields (formats ++ formats') (bytes ++ bytes' ++ rest) = some (fields ++ fields', rest) := by
  have hall : ∀ (formats : List FieldFormat) (bytes : List UInt8), readFields (formats ++ formats') bytes =
      (readFields formats bytes).bind fun r => (readFields formats' r.2).map fun rs => (r.1 ++ rs.1, rs.2) := by
    intro formats
    induction formats with
    | nil =>
      intro bytes
      show readFields formats' bytes = (readFields formats' bytes).map id
      rw [Option.map_id, id]
    | cons format formats ih =>
      intro bytes
      rw [List.cons_append, readFields, readFields]
      rcases readField format bytes with _ | ⟨field, more⟩
      · rfl
      · rw [Option.bind_some, Option.bind_some, ih]
        rcases readFields formats more with _ | ⟨fields, more'⟩
        · rfl
        · rw [Option.bind_some, Option.map_some, Option.bind_some, Option.map_map]
          rfl
  rw [hall, List.append_assoc, h, Option.bind_some, h']
  rfl

/-- The packer has room for what the calls pack. -/
def Fits (ops : List PackOp) : Prop :=
  (packAll ops).error = false ∧ (packAll ops).size ≤ packerBufferSize

instance (ops : List PackOp) : Decidable (Fits ops) :=
  inferInstanceAs (Decidable (_ ∧ _))

/-- What fits is read back. -/
lemma Fits.readFields {ops : List PackOp} (h : Fits ops) :
    ∃ bytes, (packAll ops).produced = some bytes ∧ bytes.length ≤ packerBufferSize ∧
      ∀ rest, readFields (ops.map format) (bytes ++ rest) = some (ops.map packed, rest) := by
  obtain ⟨bytes, hrun, hread⟩ := readFields_of_foldl h.1
  have hbuffer : (packAll ops).buffer = bytes := by
    rw [packAll, hrun]
    rfl
  refine ⟨bytes, ?_, ?_, hread⟩
  · rw [CPacker.produced, if_pos h.2, hbuffer]
  · rw [← hbuffer]
    exact h.2

/-! ### The kinds of extra records -/

/-- The extra records of `engine/shared/teehistorian_ex_chunks.h`. -/
inductive TeeExtra where
  | test
  | ddnetverOld
  | ddnetver
  | authInit
  | authLogin
  | authLogout
  | joinver6
  | joinver7
  | playerSwitch
  | saveSuccess
  | saveFailure
  | loadSuccess
  | loadFailure
  | playerTeam
  | teamPractice
  | playerReady
  | playerRejoin
  | antibot
  | playerName
  | playerFinish
  | teamFinish
deriving DecidableEq

namespace TeeExtra

/-- `CalculateUuid` of the names of the records. -/
def uuid : TeeExtra → List UInt8
  | .test => [0x6b, 0xb8, 0xba, 0x88, 0x0f, 0x0b, 0x38, 0x2e, 0x8d, 0xae, 0xdb, 0xf4, 0x05, 0x2b, 0x8b, 0x7d]
  | .ddnetverOld => [0x41, 0xb4, 0x95, 0x41, 0xf2, 0x6f, 0x32, 0x5d, 0x87, 0x15, 0x9b, 0xaf, 0x4b, 0x54, 0x4e, 0xf9]
  | .ddnetver => [0x13, 0x97, 0xb6, 0x3e, 0xee, 0x4e, 0x39, 0x19, 0xb8, 0x6a, 0xb0, 0x58, 0x88, 0x7f, 0xca, 0xf5]
  | .authInit => [0x60, 0xda, 0xba, 0x5c, 0x52, 0xc4, 0x3a, 0xeb, 0xb8, 0xba, 0xb2, 0x95, 0x3f, 0xb5, 0x5a, 0x17]
  | .authLogin => [0x37, 0xec, 0xd3, 0xb8, 0x92, 0x18, 0x3b, 0xb9, 0xa7, 0x1b, 0xa9, 0x35, 0xb8, 0x6f, 0x6a, 0x81]
  | .authLogout => [0xd4, 0xf5, 0xab, 0xe8, 0xed, 0xd2, 0x3f, 0xb9, 0xab, 0xd8, 0x1c, 0x8b, 0xb8, 0x4f, 0x4a, 0x63]
  | .joinver6 => [0x18, 0x99, 0xa3, 0x82, 0x71, 0xe3, 0x36, 0xda, 0x93, 0x7d, 0xc9, 0xde, 0x6b, 0xb9, 0x5b, 0x1d]
  | .joinver7 => [0x59, 0x23, 0x9b, 0x05, 0x05, 0x40, 0x31, 0x8d, 0xbe, 0xa4, 0x9a, 0xa1, 0xe8, 0x0e, 0x7d, 0x2b]
  | .playerSwitch => [0x5d, 0xe9, 0xb6, 0x33, 0x49, 0xcf, 0x3e, 0x99, 0x9a, 0x25, 0xd4, 0xa7, 0x8e, 0x97, 0x17, 0xd7]
  | .saveSuccess => [0x45, 0x60, 0xc7, 0x56, 0xda, 0x29, 0x30, 0x36, 0x81, 0xd4, 0x90, 0xa5, 0x0f, 0x01, 0x82, 0xcd]
  | .saveFailure => [0xb2, 0x99, 0x01, 0xd5, 0x12, 0x44, 0x3b, 0xd0, 0xbb, 0xde, 0x23, 0xd0, 0x4b, 0x1f, 0x7b, 0xa9]
  | .loadSuccess => [0xe0, 0x54, 0x08, 0xd3, 0xa3, 0x13, 0x33, 0xdf, 0x9e, 0xb3, 0xdd, 0xb9, 0x90, 0xab, 0x95, 0x4a]
  | .loadFailure => [0xef, 0x89, 0x05, 0xa2, 0xc6, 0x95, 0x35, 0x91, 0xa1, 0xcd, 0x53, 0xd2, 0x01, 0x59, 0x92, 0xdd]
  | .playerTeam => [0xa1, 0x11, 0xc0, 0x4e, 0x1e, 0xa8, 0x38, 0xe0, 0x90, 0xb1, 0xd7, 0xf9, 0x93, 0xca, 0x0d, 0xa9]
  | .teamPractice => [0x57, 0x92, 0x83, 0x4e, 0x81, 0xd1, 0x34, 0xc9, 0xa2, 0x9b, 0xb5, 0xff, 0x25, 0xda, 0xc3, 0xbc]
  | .playerReady => [0x63, 0x85, 0x87, 0xc9, 0x3f, 0x75, 0x38, 0x87, 0x91, 0x8e, 0xa3, 0xc2, 0x61, 0x4f, 0xfa, 0xa0]
  | .playerRejoin => [0xc1, 0xe9, 0x21, 0xd5, 0x96, 0xf5, 0x37, 0xbb, 0x8a, 0x45, 0x7a, 0x06, 0xf1, 0x63, 0xd2, 0x7e]
  | .antibot => [0x86, 0x6b, 0xfd, 0xac, 0xfb, 0x49, 0x3c, 0x0b, 0xa8, 0x87, 0x5f, 0xe1, 0xf3, 0xea, 0x00, 0xb8]
  | .playerName => [0xd0, 0x16, 0xf9, 0xb9, 0x41, 0x51, 0x3b, 0x87, 0x87, 0xe5, 0x3a, 0x60, 0x87, 0xeb, 0x5f, 0x26]
  | .playerFinish => [0x68, 0x94, 0x3c, 0x01, 0x23, 0x48, 0x3e, 0x01, 0x94, 0x90, 0x3f, 0x27, 0xf8, 0x26, 0x9d, 0x94]
  | .teamFinish => [0x95, 0x88, 0xb9, 0xaf, 0x3f, 0xdc, 0x37, 0x60, 0x80, 0x43, 0x82, 0xde, 0xee, 0xe3, 0x17, 0xa5]

/-- The format of the payload; the antibot writes bytes of its own. -/
def format : TeeExtra → Option (List FieldFormat)
  | .test => some []
  | .ddnetverOld => some [.int, .int]
  | .ddnetver => some [.int, .raw 16, .int, .string]
  | .authInit => some [.int, .int, .string]
  | .authLogin => some [.int, .int, .string]
  | .authLogout => some [.int]
  | .joinver6 => some [.int]
  | .joinver7 => some [.int]
  | .playerSwitch => some [.int, .int]
  | .saveSuccess => some [.int, .raw 16, .string]
  | .saveFailure => some [.int]
  | .loadSuccess => some [.int, .raw 16, .string]
  | .loadFailure => some [.int]
  | .playerTeam => some [.int, .int]
  | .teamPractice => some [.int, .int]
  | .playerReady => some [.int]
  | .playerRejoin => some [.int]
  | .antibot => none
  | .playerName => some [.int, .string]
  | .playerFinish => some [.int, .int]
  | .teamFinish => some [.int, .int]

def all : List TeeExtra :=
  [.test, .ddnetverOld, .ddnetver, .authInit, .authLogin, .authLogout, .joinver6, .joinver7, .playerSwitch,
    .saveSuccess, .saveFailure, .loadSuccess, .loadFailure, .playerTeam, .teamPractice, .playerReady, .playerRejoin,
    .antibot, .playerName, .playerFinish, .teamFinish]

def ofUuid (bytes : List UInt8) : Option TeeExtra := all.find? fun extra => extra.uuid = bytes

lemma length_uuid (extra : TeeExtra) : extra.uuid.length = 16 := by
  cases extra <;> rfl

lemma ofUuid_uuid (extra : TeeExtra) : ofUuid extra.uuid = some extra := by
  cases extra <;> decide

end TeeExtra

/-! ### Records -/

/-- The first ints of the records, with the minus sign that they are written with. -/
def teehistorianFinish : BitVec 32 := -1
def teehistorianTickSkip : BitVec 32 := -2
def teehistorianPlayerNew : BitVec 32 := -3
def teehistorianPlayerOld : BitVec 32 := -4
def teehistorianInputDiff : BitVec 32 := -5
def teehistorianInputNew : BitVec 32 := -6
def teehistorianMessage : BitVec 32 := -7
def teehistorianJoin : BitVec 32 := -8
def teehistorianDrop : BitVec 32 := -9
def teehistorianConsoleCommand : BitVec 32 := -10
def teehistorianEx : BitVec 32 := -11

/-- The fields after the first int, in a record without a size. -/
def fixedFormat (tag : BitVec 32) : Option (List FieldFormat) :=
  if 0 ≤ tag.toInt then some [.int, .int]
  else if tag = teehistorianFinish then some []
  else if tag = teehistorianTickSkip then some [.int]
  else if tag = teehistorianPlayerNew then some [.int, .int, .int]
  else if tag = teehistorianPlayerOld then some [.int]
  else if tag = teehistorianInputDiff then some (List.replicate 11 .int)
  else if tag = teehistorianInputNew then some (List.replicate 11 .int)
  else if tag = teehistorianJoin then some [.int]
  else if tag = teehistorianDrop then some [.int, .string]
  else none

/-- Fields, the last of which is an int that says what follows. -/
def readSized (formats : List FieldFormat) (more : ℕ → List FieldFormat) (bytes : List UInt8) :
    Option (List TeeField × List UInt8) :=
  (readFields formats bytes).bind fun r =>
    match r.1.getLast? with
    | some (.int n) =>
        if n.toInt < 0 then none else (readFields (more n.toNat) r.2).map fun rs => (r.1 ++ rs.1, rs.2)
    | _ => none

/-- The fields after the first int. -/
def readTail (tag : BitVec 32) (bytes : List UInt8) : Option (List TeeField × List UInt8) :=
  match fixedFormat tag with
  | some formats => readFields formats bytes
  | none =>
      if tag = teehistorianMessage then readSized [.int, .int] (fun size => [.raw size]) bytes
      else if tag = teehistorianConsoleCommand then
        readSized [.int, .int, .string, .int] (fun n => List.replicate n .string) bytes
      else if tag = teehistorianEx then readSized [.raw 16, .int] (fun size => [.raw size]) bytes
      else none

def readRecord (bytes : List UInt8) : Option (List TeeField × List UInt8) :=
  (CVariableInt.unpack bytes).bind fun r => (readTail r.1 r.2).map fun rs => (.int r.1 :: rs.1, rs.2)

/-- The records that the bytes consist of; there are at most `fuel`. -/
def readAll : ℕ → List UInt8 → Option (List (List TeeField))
  | _, [] => some []
  | 0, _ :: _ => none
  | fuel + 1, b :: bytes =>
      (readRecord (b :: bytes)).bind fun r => (readAll fuel r.2).map fun rs => r.1 :: rs

def readRecords (bytes : List UInt8) : Option (List (List TeeField)) := readAll bytes.length bytes

/-- What the calls pack is read from the bytes, whatever follows. -/
def ReadsFields (ops : List PackOp) (bytes : List UInt8) : Prop :=
  ∀ rest, readFields (ops.map format) (bytes ++ rest) = some (ops.map packed, rest)

/-- A record is read from the bytes, whatever follows. -/
def Reads (fields : List TeeField) (bytes : List UInt8) : Prop :=
  bytes ≠ [] ∧ ∀ rest, readRecord (bytes ++ rest) = some (fields, rest)

/-- What fits is read back in two parts. -/
lemma Fits.append {a b : List PackOp} (h : Fits (a ++ b)) :
    ∃ bytes bytes', (packAll (a ++ b)).produced = some (bytes ++ bytes') ∧ ReadsFields a bytes ∧
      ReadsFields b bytes' := by
  have herror := h.1
  rw [packAll, List.foldl_append] at herror
  obtain ⟨bytes, hrun, hread⟩ := readFields_of_foldl (error_of_foldl herror)
  obtain ⟨bytes', hrun', hread'⟩ := readFields_of_foldl herror
  refine ⟨bytes, bytes', ?_, hread, hread'⟩
  rw [CPacker.produced, if_pos h.2, packAll, List.foldl_append, hrun', hrun]
  rfl

/-- The first int, and what follows it. -/
lemma unpack_of_readFields {formats : List FieldFormat} {tag : BitVec 32} {fields : List TeeField}
    {bytes rest : List UInt8} (h : readFields (.int :: formats) bytes = some (.int tag :: fields, rest)) :
    ∃ bytes', CVariableInt.unpack bytes = some (tag, bytes') ∧ readFields formats bytes' = some (fields, rest) := by
  rw [readFields, readField] at h
  rcases hunpack : CVariableInt.unpack bytes with _ | ⟨i, bytes'⟩
  · rw [hunpack] at h
    exact absurd h nofun
  · rw [hunpack, Option.map_some, Option.bind_some] at h
    obtain ⟨⟨fs, rest'⟩, hrest, heq⟩ := Option.map_eq_some_iff.1 h
    simp only [Prod.mk.injEq, List.cons.injEq, TeeField.int.injEq] at heq
    obtain ⟨⟨rfl, rfl⟩, rfl⟩ := heq
    exact ⟨bytes', rfl, hrest⟩

/-- A record is the first int and what follows it. -/
lemma reads_of_tail {tag : BitVec 32} {fields : List TeeField} {bytes : List UInt8}
    (h : ∀ rest, ∃ bytes', CVariableInt.unpack (bytes ++ rest) = some (tag, bytes') ∧
      readTail tag bytes' = some (fields, rest)) : Reads (.int tag :: fields) bytes := by
  constructor
  · intro hnil
    subst hnil
    obtain ⟨bytes', hunpack, -⟩ := h []
    exact absurd hunpack nofun
  · intro rest
    obtain ⟨bytes', hunpack, htail⟩ := h rest
    rw [readRecord, hunpack, Option.bind_some, htail]
    rfl

/-- A record without a size. -/
lemma reads_fixed {tag : BitVec 32} {ops : List PackOp} (hformat : fixedFormat tag = some (ops.map format))
    (hfits : Fits (.int tag :: ops)) :
    ∃ bytes, (packAll (.int tag :: ops)).produced = some bytes ∧ Reads (.int tag :: ops.map packed) bytes := by
  obtain ⟨bytes, hproduced, -, hread⟩ := hfits.readFields
  refine ⟨bytes, hproduced, reads_of_tail ?_⟩
  intro rest
  obtain ⟨bytes', hunpack, hops⟩ := unpack_of_readFields (hread rest)
  refine ⟨bytes', hunpack, ?_⟩
  rw [readTail, hformat]
  exact hops

lemma toNat_ofNat_of_le {n : ℕ} (h : n ≤ packerBufferSize) :
    (BitVec.ofNat 32 n).toNat = n ∧ 0 ≤ (BitVec.ofNat 32 n).toInt := by
  rw [packerBufferSize] at h
  have htoNat : (BitVec.ofNat 32 n).toNat = n := by
    rw [BitVec.toNat_ofNat]
    omega
  refine ⟨htoNat, ?_⟩
  rw [BitVec.toInt_eq_toNat_of_lt (by omega)]
  exact Int.natCast_nonneg _

/-! ### What fits -/

/-- The bytes of an int, as it is packed. -/
def intSize (i : BitVec 32) : ℕ := (CVariableInt.pack i CVariableInt.maxBytesPacked).1.length

/-- The bytes that a call packs, if there is room. -/
def packedSize : PackOp → ℕ
  | .int i => intSize i
  | .raw data => data.length
  | .string s limit => (packedString s limit).length + 1

/-- An int is packed completely if there is room for it. -/
lemma pack_iff (i : BitVec 32) (dstSize : ℤ) :
    (CVariableInt.pack i dstSize).2 = true ↔ (intSize i : ℤ) ≤ dstSize := by
  obtain ⟨hok, -⟩ := CVariableInt.pack_ok i (le_refl (CVariableInt.maxBytesPacked : ℤ))
  constructor
  · intro h
    have hle := CVariableInt.pack_length_le i dstSize
    have hpos : ¬ dstSize ≤ 0 := by
      intro hneg
      rw [CVariableInt.pack, if_pos hneg] at h
      exact absurd h Bool.false_ne_true
    by_cases hmax : (CVariableInt.maxBytesPacked : ℤ) ≤ dstSize
    · exact (Int.ofNat_le.2 (CVariableInt.pack_ok i (le_refl _)).2).trans hmax
    · have hsame : CVariableInt.pack i CVariableInt.maxBytesPacked = CVariableInt.pack i dstSize :=
        CVariableInt.pack_of_ok h (by omega)
      rw [intSize, hsame]
      omega
  · intro h
    rw [CVariableInt.pack_of_ok hok h]
    exact hok

/-- What a call adds. -/
lemma size_of_add {p : CPacker} {op : PackOp} (h : (op.add p).error = false) :
    (op.add p).size = p.size + packedSize op := by
  cases op with
  | int i =>
    obtain ⟨hadd, hok⟩ := addInt_spec h
    have hsame : CVariableInt.pack i ((packerBufferSize : ℤ) - p.size) =
        CVariableInt.pack i CVariableInt.maxBytesPacked :=
      CVariableInt.pack_of_ok (CVariableInt.pack_ok i (le_refl _)).1 ((pack_iff i _).1 hok)
    show (p.addInt i).size = _
    rw [hadd, hsame, CPacker.size, List.length_append]
    rfl
  | raw data =>
    obtain ⟨hadd, -⟩ := addRaw_spec h
    show (p.addRaw data).size = _
    rw [hadd, CPacker.size, List.length_append]
    rfl
  | string s limit =>
    obtain ⟨hadd, -⟩ := addString_spec h
    show (p.addString s limit).size = _
    rw [hadd, CPacker.size, List.length_append, List.length_append]
    rfl

lemma addStringLoop_of_room {p : CPacker} {limit : ℕ} {s : List UInt8} (hp : p.error = false)
    (hroom : p.size + (encode (takeWithin limit (replaceInvalid s))).length + 1 ≤ packerBufferSize) :
    (CPacker.addStringLoop p limit s).error = false := by
  induction hn : s.length using Nat.strong_induction_on generalizing p limit s with
  | _ n ih =>
    cases s with
    | nil => rwa [addStringLoop_nil]
    | cons b s' =>
      by_cases hlimit : limit = 0
      · have hstop : CPacker.addStringLoop p limit (b :: s') = p := by
          rw [CPacker.addStringLoop, if_pos hlimit]
        rwa [hstop]
      · rw [addStringLoop_cons p hlimit]
        rw [replaceInvalid] at hroom
        split_ifs with hcut hfull
        · exact hp
        · rw [takeWithin, if_pos (Nat.not_lt.1 hcut), encode_cons, List.length_append] at hroom
          omega
        · rw [takeWithin, if_pos (Nat.not_lt.1 hcut), encode_cons, List.length_append] at hroom
          have hlt : (strUtf8Decode (b :: s')).2.length < n := hn ▸ strUtf8Decode_length b s'
          refine @ih _ hlt _ _ _ hp ?_ rfl
          rw [CPacker.size, List.length_append]
          rw [CPacker.size] at hroom
          omega

/-- A call for which there is room sets no error. -/
lemma add_of_room {p : CPacker} {op : PackOp} (hp : p.error = false)
    (hroom : p.size + packedSize op ≤ packerBufferSize) : (op.add p).error = false := by
  have hnot : ¬ p.error = true := by rw [hp]; exact Bool.false_ne_true
  cases op with
  | int i =>
    have hok : (CVariableInt.pack i ((packerBufferSize : ℤ) - p.size)).2 = true := by
      rw [pack_iff]
      rw [packedSize] at hroom
      omega
    rw [PackOp.add, CPacker.addInt, if_neg hnot]
    dsimp only
    rw [if_pos hok]
  | raw data =>
    have hfits : ¬ packerBufferSize < p.size + data.length := Nat.not_lt.2 hroom
    rw [PackOp.add, CPacker.addRaw, if_neg hnot, if_neg hfits]
    exact hp
  | string s limit =>
    rw [PackOp.add, CPacker.addString, if_neg hnot]
    exact addStringLoop_of_room hp hroom

lemma size_foldl {p : CPacker} {ops : List PackOp} (h : (ops.foldl PackOp.add p).error = false) :
    (ops.foldl PackOp.add p).size = p.size + (ops.map packedSize).sum := by
  induction ops generalizing p with
  | nil => rfl
  | cons op ops ih =>
    rw [List.foldl_cons] at h ⊢
    rw [ih h, size_of_add (error_of_foldl h), List.map_cons, List.sum_cons, Nat.add_assoc]

lemma foldl_of_room {p : CPacker} {ops : List PackOp} (hp : p.error = false)
    (hroom : p.size + (ops.map packedSize).sum ≤ packerBufferSize) : (ops.foldl PackOp.add p).error = false := by
  induction ops generalizing p with
  | nil => exact hp
  | cons op ops ih =>
    rw [List.map_cons, List.sum_cons] at hroom
    have hadd := @add_of_room p op hp (by omega)
    exact ih hadd (by rw [size_of_add hadd]; omega)

/-- What fits is what is not longer than the buffer. -/
theorem fits_iff (ops : List PackOp) : Fits ops ↔ (ops.map packedSize).sum ≤ packerBufferSize := by
  have hzero : CPacker.reset.size = 0 := rfl
  constructor
  · rintro ⟨herror, hsize⟩
    rw [packAll, size_foldl herror, hzero, Nat.zero_add] at hsize
    exact hsize
  · intro h
    have herror : (packAll ops).error = false := foldl_of_room rfl (by rwa [hzero, Nat.zero_add])
    refine ⟨herror, ?_⟩
    rwa [packAll, size_foldl herror, hzero, Nat.zero_add]

/-- A bound on the bytes of a call; there is none for a string. -/
def maxBytes : PackOp → ℕ
  | .int _ => CVariableInt.maxBytesPacked
  | .raw data => data.length
  | .string _ _ => packerBufferSize + 1

/-- A few ints and raw bytes fit. -/
lemma fits_of_maxBytes {ops : List PackOp} (hroom : (ops.map maxBytes).sum ≤ packerBufferSize) : Fits ops := by
  refine (fits_iff ops).2 (Nat.le_trans (List.sum_le_sum fun op hop => ?_) hroom)
  have hmem : maxBytes op ≤ packerBufferSize :=
    (List.single_le_sum (fun _ _ => Nat.zero_le _) _ (List.mem_map_of_mem hop)).trans hroom
  cases op with
  | int i => exact (CVariableInt.pack_ok i (le_refl _)).2
  | raw data => exact le_refl _
  | string s limit =>
    rw [maxBytes] at hmem
    omega

/-- The strings are not more than the bytes. -/
lemma length_le_of_fits {ops : List PackOp} {args : List CStr}
    (h : Fits (ops ++ args.map fun s => PackOp.string s 0)) : args.length ≤ packerBufferSize := by
  rw [fits_iff, List.map_append, List.sum_append, List.map_map] at h
  have hlength := List.length_le_sum_of_one_le
    (args.map (packedSize ∘ fun s => PackOp.string s 0)) (by
      intro n hn
      obtain ⟨s, -, rfl⟩ := List.mem_map.1 hn
      exact Nat.le_add_left 1 _)
  rw [List.length_map] at hlength
  omega

/-- The bytes of the argument of a call, with the terminator of a string. -/
def argumentSize : PackOp → ℕ
  | .int i => intSize i
  | .raw data => data.length
  | .string s _ => s.bytes.length + 1

/-- A string is valid UTF-8, and packed without a limit. -/
def Valid : PackOp → Prop
  | .string s limit => strUtf8Check s.bytes = true ∧ limit ≤ 0
  | _ => True

/-- A valid string is packed as it is, if it is not longer than the buffer. -/
lemma exact_of_valid {op : PackOp} (h : Valid op) (hroom : argumentSize op ≤ packerBufferSize) : Exact op := by
  cases op with
  | int i => trivial
  | raw data => trivial
  | string s limit =>
    have hencode := encode_replaceInvalid s.nonzero h.1
    have hlimit : CPacker.stringLimit limit = packerBufferSize := if_pos h.2
    rw [Exact, packedString, hlimit, takeWithin_of_le (by rw [hencode]; exact Nat.le_of_succ_le hroom), hencode]

lemma packedSize_of_exact {op : PackOp} (h : Exact op) : packedSize op = argumentSize op := by
  cases op with
  | int i => rfl
  | raw data => rfl
  | string s limit => exact congrArg (fun bytes => bytes.length + 1) h

/-- Valid arguments fit if the buffer is as long as they are. -/
lemma fits_of_valid {ops : List PackOp} (hvalid : ∀ op ∈ ops, Valid op)
    (hroom : (ops.map argumentSize).sum ≤ packerBufferSize) : Fits ops ∧ ∀ op ∈ ops, Exact op := by
  have hexact : ∀ op ∈ ops, Exact op := by
    intro op hop
    refine exact_of_valid (hvalid op hop) ?_
    exact (List.single_le_sum (fun _ _ => Nat.zero_le _) _ (List.mem_map_of_mem hop)).trans hroom
  have hsizes : ops.map packedSize = ops.map argumentSize :=
    List.map_congr_left fun op hop => packedSize_of_exact (hexact op hop)
  refine ⟨?_, hexact⟩
  rw [fits_iff, hsizes]
  exact hroom

/-! ### What does not fit -/

lemma addStringLoop_error {p : CPacker} {limit : ℕ} {s : List UInt8} (hs : ∀ b ∈ s, b ≠ 0) (hp : p.error = false)
    (hsize : p.size < packerBufferSize) (h : (CPacker.addStringLoop p limit s).error = true) :
    ∃ part, (0 : UInt8) ∉ part ∧ CPacker.addStringLoop p limit s = ⟨p.buffer ++ part, true⟩ ∧
      p.size + part.length < packerBufferSize := by
  induction hn : s.length using Nat.strong_induction_on generalizing p limit s with
  | _ n ih =>
    cases s with
    | nil =>
      rw [addStringLoop_nil, hp] at h
      exact absurd h Bool.false_ne_true
    | cons b s' =>
      by_cases hlimit : limit = 0
      · have hstop : CPacker.addStringLoop p limit (b :: s') = p := by
          rw [CPacker.addStringLoop, if_pos hlimit]
        rw [hstop, hp] at h
        exact absurd h Bool.false_ne_true
      · rw [addStringLoop_cons p hlimit] at h ⊢
        split_ifs at h ⊢ with hcut hfull
        · rw [hp] at h
          exact absurd h Bool.false_ne_true
        · exact ⟨[], List.not_mem_nil, by rw [List.append_nil], hsize⟩
        · have hlt : (strUtf8Decode (b :: s')).2.length < n := hn ▸ strUtf8Decode_length b s'
          have hrest : ∀ x ∈ (strUtf8Decode (b :: s')).2, x ≠ 0 := fun x hx =>
            hs x (List.mem_cons_of_mem _ ((strUtf8Decode_suffix b s').subset hx))
          rw [CPacker.size] at hfull hsize
          obtain ⟨part, hpart, hrun, hroom⟩ := ih _ hlt hrest (by exact hp) (by
            rw [CPacker.size, List.length_append]
            omega) h rfl
          refine ⟨String.utf8EncodeChar (leadChar (b :: s')) ++ part, ?_, ?_, ?_⟩
          · intro hmem
            rcases List.mem_append.1 hmem with hmem | hmem
            · exact zero_notMem_utf8EncodeChar (leadChar_ne_zero (hs b List.mem_cons_self) s') hmem
            · exact hpart hmem
          · rw [hrun, List.append_assoc]
          · rw [CPacker.size, List.length_append] at hroom
            rw [CPacker.size, List.length_append]
            omega

/-- A string that does not fit is cut, and still terminated. -/
lemma addString_of_not_fits {p : CPacker} {s : CStr} {limit : ℤ} (hp : p.error = false)
    (hsize : p.size < packerBufferSize) (h : packerBufferSize < p.size + packedSize (.string s limit)) :
    ∃ part, (0 : UInt8) ∉ part ∧ p.addString s limit = ⟨p.buffer ++ (part ++ [0]), true⟩ ∧
      p.size + part.length < packerBufferSize := by
  have hnot : ¬ p.error = true := by rw [hp]; exact Bool.false_ne_true
  have herror : (CPacker.addStringLoop p (CPacker.stringLimit limit) s.bytes).error = true := by
    by_contra hok
    have hadd : ((PackOp.string s limit).add p).error = false := by
      rw [PackOp.add, CPacker.addString, if_neg hnot]
      exact Bool.eq_false_iff.2 hok
    have hnext := size_of_add hadd
    have hle := (addString_spec (p := p) hadd).2 ?_
    · have hsame : ((PackOp.string s limit).add p).size = (p.addString s limit).size := rfl
      omega
    · intro hnil
      rw [packedSize, hnil] at h
      exact absurd h (Nat.not_lt.2 hsize)
  obtain ⟨part, hpart, hrun, hroom⟩ := addStringLoop_error s.nonzero hp hsize herror
  refine ⟨part, hpart, ?_, hroom⟩
  rw [CPacker.addString, if_neg hnot, hrun]
  simp only [List.append_assoc]

/-- After a string that does not fit, the reader has a part of it. -/
lemma readFields_of_not_fits {ops : List PackOp} {s : CStr} {limit : ℤ} (hfits : Fits ops)
    (hsize : (packAll ops).size < packerBufferSize)
    (h : packerBufferSize < (packAll ops).size + packedSize (.string s limit)) :
    ∃ part bytes, packAll (ops ++ [PackOp.string s limit]) = ⟨bytes, true⟩ ∧ bytes.length ≤ packerBufferSize ∧
      part.length < packerBufferSize ∧ ∀ rest,
        readFields ((ops ++ [PackOp.string s limit]).map format) (bytes ++ rest) =
          some (ops.map packed ++ [.string part], rest) := by
  obtain ⟨bytes, hproduced, -, hread⟩ := hfits.readFields
  have hbuffer : (packAll ops).buffer = bytes := by
    rw [CPacker.produced, if_pos hfits.2] at hproduced
    exact Option.some.inj hproduced
  obtain ⟨part, hpart, hadd, hroom⟩ := addString_of_not_fits hfits.1 hsize h
  refine ⟨part, bytes ++ (part ++ [0]), ?_, ?_, by omega, ?_⟩
  · rw [packAll_append, List.foldl_cons, List.foldl_nil, PackOp.add, hadd, hbuffer]
  · rw [CPacker.size, hbuffer] at hroom
    rw [List.length_append, List.length_append, List.length_singleton]
    omega
  · intro rest
    rw [List.map_append]
    refine readFields_append hread ?_ rest
    intro rest
    show readFields [.string] _ = _
    rw [List.append_assoc, List.singleton_append, readFields, readField, readString_append hpart]
    rfl

/-! ### Records with a size -/

/-- What fits is written and read. -/
def ReadsBack (ops : List PackOp) : Prop :=
  Fits ops → ∃ bytes, (packAll ops).produced = some bytes ∧ Reads (ops.map packed) bytes

lemma readsBack_fixed {tag : BitVec 32} {ops : List PackOp} (hformat : fixedFormat tag = some (ops.map format)) :
    ReadsBack (.int tag :: ops) :=
  reads_fixed hformat

/-- A record whose last int says what follows. -/
lemma reads_sized {tag n : BitVec 32} {formats : List FieldFormat} {more : ℕ → List FieldFormat}
    {fields fields' : List TeeField} {bytes bytes' : List UInt8}
    (htail : ∀ bytes, readTail tag bytes = readSized formats more bytes)
    (hread : ∀ rest, readFields (.int :: formats) (bytes ++ rest) = some (.int tag :: fields, rest))
    (hlast : fields.getLast? = some (.int n)) (hn : 0 ≤ n.toInt)
    (hmore : ∀ rest, readFields (more n.toNat) (bytes' ++ rest) = some (fields', rest)) :
    Reads (.int tag :: (fields ++ fields')) (bytes ++ bytes') := by
  refine reads_of_tail ?_
  intro rest
  rw [List.append_assoc]
  obtain ⟨bytes'', hunpack, hfields⟩ := unpack_of_readFields (hread (bytes' ++ rest))
  refine ⟨bytes'', hunpack, ?_⟩
  rw [htail, readSized, hfields, Option.bind_some]
  dsimp only
  rw [hlast]
  dsimp only
  rw [if_neg (Int.not_lt.2 hn), hmore]
  rfl

/-- The record is packed up to the int, and then what the int says. -/
lemma readsBack_sized {tag n : BitVec 32} {ops ops' : List PackOp} {more : ℕ → List FieldFormat}
    (hn : Fits (.int tag :: ops ++ .int n :: ops') → 0 ≤ n.toInt ∧ more n.toNat = ops'.map format)
    (htail : ∀ bytes, readTail tag bytes = readSized ((ops ++ [PackOp.int n]).map format) more bytes) :
    ReadsBack (.int tag :: ops ++ .int n :: ops') := by
  intro hfits
  have happend : PackOp.int tag :: ops ++ .int n :: ops' = (.int tag :: (ops ++ [.int n])) ++ ops' := by simp
  obtain ⟨hpos, hmore⟩ := hn hfits
  rw [happend] at hfits ⊢
  obtain ⟨bytes, bytes', hproduced, hread, hread'⟩ := hfits.append
  refine ⟨_, hproduced, ?_⟩
  rw [List.map_append]
  refine reads_sized htail hread ?_ hpos ?_
  · rw [List.map_append, List.getLast?_append]
    rfl
  · rw [hmore]
    exact hread'

/-! ### What is written -/

/-- A record as it is written: packed, or as the payload of an extra record.  The antibot does not pack its
payload. -/
inductive TeeEntry where
  | plain (ops : List PackOp)
  | extra (kind : TeeExtra) (ops : List PackOp)
  | antibot (data : List UInt8)

/-- A record as it is decoded. -/
inductive TeeRecord where
  | plain (fields : List TeeField)
  | extra (kind : TeeExtra) (fields : List TeeField)
deriving DecidableEq

/-- What `WriteExtra` writes after the tick. -/
def extraBytes (kind : TeeExtra) (data : List UInt8) : Option (List UInt8) :=
  (packAll [.int teehistorianEx, .raw kind.uuid, .int (BitVec.ofNat 32 data.length)]).produced.map (· ++ data)

/-- The payload of an extra record. -/
def decodeExtra (kind : TeeExtra) (data : List UInt8) : Option TeeRecord :=
  match kind.format with
  | none => some (.extra kind [.raw data])
  | some formats =>
      (readFields formats data).bind fun r => if r.2 = [] then some (.extra kind r.1) else none

def decodeRecord : List TeeField → Option TeeRecord
  | [.int tag, .raw uuid, .int size, .raw data] =>
      if tag = teehistorianEx then (TeeExtra.ofUuid uuid).bind fun kind => decodeExtra kind data
      else some (.plain [.int tag, .raw uuid, .int size, .raw data])
  | fields => some (.plain fields)

namespace TeeEntry

def bytes : TeeEntry → Option (List UInt8)
  | .plain ops => (packAll ops).produced
  | .extra kind ops => (packAll ops).produced.bind (extraBytes kind)
  | .antibot data => extraBytes .antibot data

/-- The fields of the record. -/
def fields : TeeEntry → List TeeField
  | .plain ops => ops.map packed
  | .extra kind ops =>
      [.int teehistorianEx, .raw kind.uuid, .int (BitVec.ofNat 32 (packAll ops).size), .raw (packAll ops).buffer]
  | .antibot data =>
      [.int teehistorianEx, .raw TeeExtra.antibot.uuid, .int (BitVec.ofNat 32 data.length), .raw data]

/-- The record with the arguments that it was recorded with. -/
def record : TeeEntry → TeeRecord
  | .plain ops => .plain (ops.map argument)
  | .extra kind ops => .extra kind (ops.map argument)
  | .antibot data => .extra .antibot [.raw data]

/-- The packer has room for the record; the size of a payload is an int. -/
def Fits : TeeEntry → Prop
  | .plain ops => DDNet.Fits ops
  | .extra _ ops => DDNet.Fits ops
  | .antibot data => data.length < 2 ^ 31

/-- The strings of the record are packed as they are. -/
def Exact : TeeEntry → Prop
  | .plain ops => ∀ op ∈ ops, TeeOp.Exact op
  | .extra _ ops => ∀ op ∈ ops, TeeOp.Exact op
  | .antibot _ => True

/-- The packer is as long as the record; the size of what the antibot writes is an int. -/
def Short : TeeEntry → Prop
  | .plain ops => (ops.map packedSize).sum ≤ packerBufferSize
  | .extra _ ops => (ops.map packedSize).sum ≤ packerBufferSize
  | .antibot data => data.length < 2 ^ 31

/-- The arguments are valid, and the packer is as long as they are. -/
def ValidShort : TeeEntry → Prop
  | .plain ops => (∀ op ∈ ops, Valid op) ∧ (ops.map argumentSize).sum ≤ packerBufferSize
  | .extra _ ops => (∀ op ∈ ops, Valid op) ∧ (ops.map argumentSize).sum ≤ packerBufferSize
  | .antibot data => data.length < 2 ^ 31

/-- The record has the format of its kind. -/
def Wellformed : TeeEntry → Prop
  | .plain ops => (∃ tag rest, ops = .int tag :: rest ∧ tag ≠ teehistorianEx) ∧ ReadsBack ops
  | .extra kind ops => kind.format = some (ops.map format)
  | .antibot _ => True

lemma fits_of_short {entry : TeeEntry} (h : entry.Short) : entry.Fits := by
  cases entry with
  | plain ops => exact (fits_iff ops).2 h
  | extra kind ops => exact (fits_iff ops).2 h
  | antibot data => exact h

lemma short_of_validShort {entry : TeeEntry} (h : entry.ValidShort) : entry.Short := by
  cases entry with
  | plain ops => exact (fits_iff ops).1 (fits_of_valid h.1 h.2).1
  | extra kind ops => exact (fits_iff ops).1 (fits_of_valid h.1 h.2).1
  | antibot data => exact h

lemma fits_of_validShort {entry : TeeEntry} (h : entry.ValidShort) : entry.Fits ∧ entry.Exact := by
  cases entry with
  | plain ops => exact fits_of_valid h.1 h.2
  | extra kind ops => exact fits_of_valid h.1 h.2
  | antibot data => exact ⟨h, trivial⟩

end TeeEntry

lemma map_packed_of_exact {ops : List PackOp} (h : ∀ op ∈ ops, Exact op) : ops.map packed = ops.map argument :=
  List.map_congr_left fun op hop => packed_eq_argument (h op hop)

lemma decodeRecord_plain {tag : BitVec 32} {fields : List TeeField} (h : tag ≠ teehistorianEx) :
    decodeRecord (.int tag :: fields) = some (.plain (.int tag :: fields)) := by
  rw [decodeRecord.eq_def]
  split
  · next heq =>
    obtain ⟨htag, -⟩ := List.cons.inj heq
    obtain rfl := TeeField.int.inj htag
    rw [if_neg h, heq]
  · rfl

/-- An extra record is read back. -/
lemma reads_extra (kind : TeeExtra) {data : List UInt8} (hsize : data.length < 2 ^ 31) :
    ∃ bytes, extraBytes kind data = some bytes ∧
      Reads [.int teehistorianEx, .raw kind.uuid, .int (BitVec.ofNat 32 data.length), .raw data] bytes := by
  have hfits : Fits [.int teehistorianEx, .raw kind.uuid, .int (BitVec.ofNat 32 data.length)] := by
    refine fits_of_maxBytes ?_
    simp [maxBytes, TeeExtra.length_uuid, CVariableInt.maxBytesPacked, packerBufferSize]
  have htoNat : (BitVec.ofNat 32 data.length).toNat = data.length := by
    rw [BitVec.toNat_ofNat]
    omega
  have hpos : 0 ≤ (BitVec.ofNat 32 data.length).toInt := by
    rw [BitVec.toInt_eq_toNat_of_lt (by omega)]
    exact Int.natCast_nonneg _
  obtain ⟨bytes, hproduced, -, hread⟩ := hfits.readFields
  have hformat : [PackOp.int teehistorianEx, .raw kind.uuid, .int (BitVec.ofNat 32 data.length)].map format =
      [.int, .raw 16, .int] := by
    simp [format, TeeExtra.length_uuid]
  rw [hformat] at hread
  have hdata : ∀ rest, readFields [.raw (BitVec.ofNat 32 data.length).toNat] (data ++ rest) =
      some ([.raw data], rest) := by
    intro rest
    rw [htoNat]
    simp [readFields, readField]
  have htail : ∀ bytes, readTail teehistorianEx bytes = readSized [.raw 16, .int] (fun size => [.raw size]) bytes :=
    fun _ => rfl
  refine ⟨bytes ++ data, ?_, reads_sized htail hread rfl hpos hdata⟩
  rw [extraBytes, hproduced]
  rfl

/-- An extra record is read, with what was packed of its payload. -/
lemma TeeEntry.reads_of_size {kind : TeeExtra} {ops : List PackOp} (h : (packAll ops).size ≤ packerBufferSize) :
    ∃ bytes, (TeeEntry.extra kind ops).bytes = some bytes ∧ Reads (TeeEntry.extra kind ops).fields bytes := by
  have hsize : (packAll ops).buffer.length < 2 ^ 31 := Nat.lt_of_le_of_lt h (by rw [packerBufferSize]; omega)
  obtain ⟨bytes, hbytes, hreads⟩ := reads_extra kind hsize
  refine ⟨bytes, ?_, hreads⟩
  rw [TeeEntry.bytes, CPacker.produced, if_pos h]
  exact hbytes

/-- A record that fits is written and read. -/
lemma TeeEntry.reads {entry : TeeEntry} (hwell : entry.Wellformed) (hfits : entry.Fits) :
    ∃ bytes, entry.bytes = some bytes ∧ Reads entry.fields bytes := by
  cases entry with
  | plain ops => exact hwell.2 hfits
  | extra kind ops => exact TeeEntry.reads_of_size hfits.2
  | antibot data => exact reads_extra .antibot hfits

/-- A record whose strings are packed as they are is decoded as it was recorded. -/
lemma TeeEntry.decodes {entry : TeeEntry} (hwell : entry.Wellformed) (hfits : entry.Fits) (hexact : entry.Exact) :
    decodeRecord entry.fields = some entry.record := by
  cases entry with
  | plain ops =>
    obtain ⟨⟨tag, rest, rfl, hne⟩, -⟩ := hwell
    rw [TeeEntry.fields, map_packed_of_exact hexact]
    exact decodeRecord_plain hne
  | extra kind ops =>
    obtain ⟨data, hproduced, -, hread⟩ := Fits.readFields hfits
    have hdata : (packAll ops).buffer = data := by
      rw [CPacker.produced, if_pos hfits.2] at hproduced
      exact Option.some.inj hproduced
    have hpayload := hread []
    rw [List.append_nil, map_packed_of_exact hexact] at hpayload
    rw [TeeEntry.fields, decodeRecord, if_pos rfl, TeeExtra.ofUuid_uuid, Option.bind_some, decodeExtra,
      show kind.format = _ from hwell, hdata]
    dsimp only
    rw [hpayload]
    rfl
  | antibot data =>
    rw [TeeEntry.fields, decodeRecord, if_pos rfl, TeeExtra.ofUuid_uuid]
    rfl

/-! ### Files -/

/-- The bytes of the records. -/
def fileBytes : List TeeEntry → Option (List UInt8)
  | [] => some []
  | entry :: entries => entry.bytes.bind fun bytes => (fileBytes entries).map (bytes ++ ·)

/-- A record in front of others. -/
lemma readAll_append {fields : List TeeField} {bytes : List UInt8} (h : Reads fields bytes) (fuel : ℕ)
    (rest : List UInt8) : readAll (fuel + 1) (bytes ++ rest) = (readAll fuel rest).map (fields :: ·) := by
  obtain ⟨b, bs, rfl⟩ := List.exists_cons_of_ne_nil h.1
  have hrecord := h.2 rest
  rw [List.cons_append] at hrecord ⊢
  rw [readAll, hrecord, Option.bind_some]

lemma readAll_flatMap {records : List (List TeeField × List UInt8)} (h : ∀ r ∈ records, Reads r.1 r.2) {fuel : ℕ}
    (hfuel : records.length ≤ fuel) : readAll fuel (records.flatMap Prod.snd) = some (records.map Prod.fst) := by
  induction records generalizing fuel with
  | nil => cases fuel <;> rfl
  | cons r records ih =>
    obtain ⟨fuel, rfl⟩ := Nat.exists_eq_add_of_le' (Nat.le_trans (Nat.le_add_left 1 _) hfuel)
    rw [List.flatMap_cons, readAll_append (h r List.mem_cons_self),
      ih (fun r hr => h r (List.mem_cons_of_mem _ hr)) (Nat.le_of_succ_le_succ hfuel)]
    rfl

/-- Records are read one by one. -/
lemma readRecords_flatMap {records : List (List TeeField × List UInt8)} (h : ∀ r ∈ records, Reads r.1 r.2) :
    readRecords (records.flatMap Prod.snd) = some (records.map Prod.fst) := by
  refine readAll_flatMap h ?_
  rw [List.length_flatMap, ← List.length_map (fun r : List TeeField × List UInt8 => r.2.length)]
  refine List.length_le_sum_of_one_le _ ?_
  intro n hn
  obtain ⟨r, hr, rfl⟩ := List.mem_map.1 hn
  exact List.length_pos_of_ne_nil (h r hr).1

/-- What is written is read, record by record. -/
theorem readRecords_fileBytes {entries : List TeeEntry}
    (h : ∀ entry ∈ entries, ∃ bytes, entry.bytes = some bytes ∧ Reads entry.fields bytes) :
    ∃ bytes, fileBytes entries = some bytes ∧ readRecords bytes = some (entries.map TeeEntry.fields) := by
  have hrecords : ∃ records : List (List TeeField × List UInt8), (∀ r ∈ records, Reads r.1 r.2) ∧
      fileBytes entries = some (records.flatMap Prod.snd) ∧ records.map Prod.fst = entries.map TeeEntry.fields := by
    induction entries with
    | nil => exact ⟨[], fun r hr => absurd hr List.not_mem_nil, rfl, rfl⟩
    | cons entry entries ih =>
      obtain ⟨bytes, hbytes, hreads⟩ := h entry List.mem_cons_self
      obtain ⟨records, hall, hfile, hfields⟩ := ih fun e he => h e (List.mem_cons_of_mem _ he)
      refine ⟨(entry.fields, bytes) :: records, ?_, ?_, ?_⟩
      · intro r hr
        rcases List.mem_cons.1 hr with rfl | hr
        · exact hreads
        · exact hall r hr
      · rw [fileBytes, hbytes, Option.bind_some, hfile]
        rfl
      · rw [List.map_cons, List.map_cons, hfields]
  obtain ⟨records, hall, hfile, hfields⟩ := hrecords
  refine ⟨_, hfile, ?_⟩
  rw [readRecords_flatMap hall, hfields]

end DDNet
