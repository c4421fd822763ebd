/-
`CPacker` and `CUnpacker` of `engine/shared/packer.cpp`.

The packer is modelled by the bytes from `m_aBuffer` up to `m_pCurrent` and its sticky
error flag, the unpacker by the bytes from `m_pCurrent` up to `m_pEnd` and its flag.  The
packer's own writes decide whether the bytes lie in `m_aBuffer` at all: `Size()` may exceed
the buffer, since `AddString` stores its terminator without looking at the end.

The main result is `packer_roundTrips_iff`: what was packed without an error is read back exactly
if and only if no string that packs to nothing was added to a buffer that was exactly full.
-/
import DDNet.Base.Utf8
import DDNet.Shared.VariableInt

namespace DDNet

open Utf8

/-- The size of the packer's buffer. -/
def packerBufferSize : ℕ := 1024 * 2

/-- `CPacker`: the bytes stored so far, from `m_aBuffer` up to `m_pCurrent`, and the error
flag. -/
structure CPacker where
  /-- The bytes stored so far. -/
  buffer : List UInt8
  /-- `m_Error`. -/
  error : Bool
deriving DecidableEq

namespace CPacker

/-- `CPacker::Reset`. -/
def reset : CPacker := ⟨[], false⟩

/-- `CPacker::Size`. -/
def size (p : CPacker) : ℕ := p.buffer.length

/-- The `Size()` bytes at `Data()`.  They exist only if all of them lie in `m_aBuffer`. -/
def produced (p : CPacker) : Option (List UInt8) :=
  if p.size ≤ packerBufferSize then some p.buffer else none

/-- `CPacker::AddInt`. -/
def addInt (p : CPacker) (i : BitVec 32) : CPacker :=
  if p.error then p
  else
    let r := CVariableInt.pack i ((packerBufferSize : ℤ) - p.size)
    if r.2 then ⟨p.buffer ++ r.1, false⟩ else { p with error := true }

/-- The loop of `CPacker::AddString` on the rest of the string, with `limit` bytes left. -/
def addStringLoop (p : CPacker) (limit : ℕ) (s : List UInt8) : CPacker :=
  match s with
  | [] => p
  | b :: s' =>
      if limit = 0 then p
      else
        let r := strUtf8Decode (b :: s')
        let codepoint := if r.1 = -1 then 0xFFFD else r.1.toNat
        let length := (strUtf8Encode codepoint).length
        if limit < length then p
        -- space for the terminator has to remain
        else if packerBufferSize < p.size + length + 1 then { p with error := true }
        else addStringLoop { p with buffer := p.buffer ++ strUtf8Encode codepoint }
          (limit - length) r.2
termination_by s.length
decreasing_by exact strUtf8Decode_length b s'

/-- The limit that `AddString` works with. -/
def stringLimit (limit : ℤ) : ℕ := if limit ≤ 0 then packerBufferSize else limit.toNat

/-- `CPacker::AddString`.  The terminator is stored at `m_pCurrent`, wherever that is. -/
def addString (p : CPacker) (s : CStr) (limit : ℤ) : CPacker :=
  if p.error then p
  else
    let q := addStringLoop p (stringLimit limit) s.bytes
    { q with buffer := q.buffer ++ [0] }

/-- `CPacker::AddRaw`. -/
def addRaw (p : CPacker) (data : List UInt8) : CPacker :=
  if p.error then p
  else if packerBufferSize < p.size + data.length then { p with error := true }
  else { p with buffer := p.buffer ++ data }

end CPacker

/-- `CUnpacker`: the bytes from `m_pCurrent` up to `m_pEnd`, and the error flag. -/
structure CUnpacker where
  /-- The bytes that are left. -/
  rest : List UInt8
  /-- `m_Error`. -/
  error : Bool
deriving DecidableEq

namespace CUnpacker

/-- `CUnpacker::Reset`. -/
def reset (data : List UInt8) : CUnpacker := ⟨data, false⟩

/-- `CUnpacker::GetInt`. -/
def getInt (u : CUnpacker) : BitVec 32 × CUnpacker :=
  if u.error then (0, u)
  else
    match CVariableInt.unpack u.rest with
    | none => (0, { u with error := true })
    | some (i, rest) => (i, { u with rest := rest })

/-- The sanitize types. -/
def sanitize : ℕ := 1

@[inherit_doc sanitize] def sanitizeCC : ℕ := 2

@[inherit_doc sanitize] def skipStartWhitespaces : ℕ := 4

/-- `CUnpacker::GetString`: the string in front of the next zero byte. -/
def getString (u : CUnpacker) (sanitizeType : ℕ) : List UInt8 × CUnpacker :=
  if u.error then ([], u)
  else
    let ptr := u.rest.takeWhile (· ≠ 0)
    match u.rest.dropWhile (· ≠ 0) with
    -- nothing left, or no terminator before the end
    | [] => ([], ⟨[], true⟩)
    | _ :: rest =>
        if strUtf8Check ptr = false then ([], ⟨rest, true⟩)
        else
          let clean :=
            if sanitizeType &&& sanitize ≠ 0 then strSanitize ptr
            else if sanitizeType &&& sanitizeCC ≠ 0 then strSanitizeCC ptr
            else ptr
          (if sanitizeType &&& skipStartWhitespaces ≠ 0 then strUtf8SkipWhitespaces clean
            else clean, ⟨rest, false⟩)

/-- `CUnpacker::GetRaw`. -/
def getRaw (u : CUnpacker) (size : ℤ) : Option (List UInt8) × CUnpacker :=
  if u.error then (none, u)
  else if size < 0 ∨ (u.rest.length : ℤ) < size then (none, { u with error := true })
  else (some (u.rest.take size.toNat), { u with rest := u.rest.drop size.toNat })

end CUnpacker

/-! ### Sequences of calls -/

namespace Packing

/-- A call that adds something to a packer. -/
inductive PackOp where
  | int (i : BitVec 32)
  | raw (data : List UInt8)
  | string (s : CStr) (limit : ℤ)

/-- What a call to the unpacker returns. -/
inductive Unpacked where
  | int (i : BitVec 32)
  | raw (data : Option (List UInt8))
  | string (s : List UInt8)
deriving DecidableEq

/-- The longest prefix of a text whose encoding has at most `limit` bytes. -/
def takeWithin : ℕ → List Char → List Char
  | _, [] => []
  | limit, c :: cs =>
      if (String.utf8EncodeChar c).length ≤ limit then
        c :: takeWithin (limit - (String.utf8EncodeChar c).length) cs
      else []

/-- The string that `AddString` is to pack: invalid sequences are replaced, and the text is
cut between two characters where the limit applies. -/
def packedString (s : CStr) (limit : ℤ) : List UInt8 :=
  encode (takeWithin (CPacker.stringLimit limit) (replaceInvalid s.bytes))

namespace PackOp

/-- The call on the packer. -/
def add (p : CPacker) : PackOp → CPacker
  | int i => p.addInt i
  | raw data => p.addRaw data
  | string s limit => p.addString s limit

/-- The matching call on the unpacker. -/
def get (u : CUnpacker) : PackOp → Unpacked × CUnpacker
  | int _ => (.int u.getInt.1, u.getInt.2)
  | raw data => (.raw (u.getRaw data.length).1, (u.getRaw data.length).2)
  | string _ _ => (.string (u.getString 0).1, (u.getString 0).2)

/-- What the matching call has to return. -/
def value : PackOp → Unpacked
  | int i => .int i
  | raw data => .raw (some data)
  | string s limit => .string (packedString s limit)

end PackOp

/-- The packer after a sequence of calls. -/
def packAll (ops : List PackOp) : CPacker := ops.foldl PackOp.add CPacker.reset

/-- The results of the matching calls, and the unpacker after them. -/
def unpackAll (u : CUnpacker) : List PackOp → List Unpacked × CUnpacker
  | [] => ([], u)
  | op :: ops =>
      let r := op.get u
      let rs := unpackAll r.2 ops
      (r.1 :: rs.1, rs.2)

/-- The produced bytes are read back without an error, completely, and as they were
packed. -/
def RoundTrips (ops : List PackOp) : Prop :=
  ∃ data, (packAll ops).produced = some data ∧
    unpackAll (CUnpacker.reset data) ops = (ops.map PackOp.value, ⟨[], false⟩)

/-- No string that packs to nothing is added when the buffer is exactly full. -/
def TerminatorFits (ops : List PackOp) : Prop :=
  ∀ pre s limit post, ops = pre ++ PackOp.string s limit :: post →
    (packAll pre).size = packerBufferSize → packedString s limit ≠ []

/-! ### One call -/

lemma takeWithin_zero (cs : List Char) : takeWithin 0 cs = [] := by
  cases cs with
  | nil => rfl
  | cons c cs =>
    have hpos : 0 < (String.utf8EncodeChar c).length :=
      List.length_pos_iff.2 (utf8EncodeChar_ne_nil c)
    rw [takeWithin, if_neg (by omega)]

lemma addStringLoop_nil (p : CPacker) (limit : ℕ) : CPacker.addStringLoop p limit [] = p := by
  rw [CPacker.addStringLoop]

/-- One round of the loop of `AddString`, in terms of the character it packs. -/
lemma addStringLoop_cons (p : CPacker) {limit : ℕ} (hlimit : limit ≠ 0) (b : UInt8)
    (s : List UInt8) :
    CPacker.addStringLoop p limit (b :: s) =
      if limit < (String.utf8EncodeChar (leadChar (b :: s))).length then p
      else if packerBufferSize < p.size + (String.utf8EncodeChar (leadChar (b :: s))).length + 1 then
        { p with error := true }
      else CPacker.addStringLoop
        { p with buffer := p.buffer ++ String.utf8EncodeChar (leadChar (b :: s)) }
        (limit - (String.utf8EncodeChar (leadChar (b :: s))).length) (strUtf8Decode (b :: s)).2 := by
  rw [CPacker.addStringLoop, if_neg hlimit]
  simp only [strUtf8Encode_lead]

/-- The loop of `AddString`, if it sets no error, appends the text that fits the limit; and
if it appends anything, room for the terminator is left. -/
lemma addStringLoop_spec {p : CPacker} {limit : ℕ} {s : List UInt8}
    (h : (CPacker.addStringLoop p limit s).error = false) :
    CPacker.addStringLoop p limit s =
        ⟨p.buffer ++ encode (takeWithin limit (replaceInvalid s)), false⟩ ∧
      (encode (takeWithin limit (replaceInvalid s)) ≠ [] →
        (CPacker.addStringLoop p limit s).size + 1 ≤ packerBufferSize) := by
  induction hn : s.length using Nat.strong_induction_on generalizing p limit s with
  | _ n ih =>
    cases s with
    | nil =>
      rw [addStringLoop_nil] at h ⊢
      obtain ⟨buffer, error⟩ := p
      simp only at h
      simp [takeWithin, h]
    | cons b s' =>
      by_cases hlimit : limit = 0
      · subst hlimit
        have hstop : CPacker.addStringLoop p 0 (b :: s') = p := by
          rw [CPacker.addStringLoop, if_pos rfl]
        rw [hstop] at h ⊢
        obtain ⟨buffer, error⟩ := p
        simp only at h
        simp [takeWithin_zero, h]
      · rw [addStringLoop_cons p hlimit] at h ⊢
        rw [replaceInvalid]
        set c := leadChar (b :: s') with hc
        by_cases hcut : limit < (String.utf8EncodeChar c).length
        · rw [if_pos hcut] at h ⊢
          obtain ⟨buffer, error⟩ := p
          simp only at h
          rw [takeWithin, if_neg (by omega)]
          simp [h]
        · rw [if_neg hcut] at h ⊢
          by_cases hroom : packerBufferSize < p.size + (String.utf8EncodeChar c).length + 1
          · rw [if_pos hroom] at h
            exact absurd h (by simp)
          · rw [if_neg hroom] at h ⊢
            have hlt : (strUtf8Decode (b :: s')).2.length < n := hn ▸ strUtf8Decode_length b s'
            obtain ⟨hrun, hspace⟩ := ih _ hlt h rfl
            rw [takeWithin, if_pos (by omega)]
            refine ⟨by rw [hrun]; simp, fun _ => ?_⟩
            by_cases hmore : encode (takeWithin (limit - (String.utf8EncodeChar c).length)
                (replaceInvalid (strUtf8Decode (b :: s')).2)) = []
            · rw [hrun, hmore]
              simp only [CPacker.size, List.append_nil, List.length_append] at hroom ⊢
              omega
            · exact hspace hmore

lemma takeWithin_isPrefix (limit : ℕ) (cs : List Char) : takeWithin limit cs <+: cs := by
  induction cs generalizing limit with
  | nil => simp [takeWithin]
  | cons c cs ih =>
    rw [takeWithin]
    split
    · exact List.cons_prefix_cons.2 ⟨rfl, ih _⟩
    · exact List.nil_prefix

/-- A text that fits the limit is not cut. -/
lemma takeWithin_of_le {limit : ℕ} {cs : List Char} (h : (encode cs).length ≤ limit) :
    takeWithin limit cs = cs := by
  induction cs generalizing limit with
  | nil => rfl
  | cons c cs ih =>
    rw [encode_cons, List.length_append] at h
    rw [takeWithin, if_pos (by omega), ih (by omega)]

/-- What is packed of valid UTF-8: the text itself, cut between two characters if it is
longer than the limit. -/
lemma packedString_of_encode {s : CStr} {cs : List Char} (hs : s.bytes = encode cs) (limit : ℤ) :
    packedString s limit = encode (takeWithin (CPacker.stringLimit limit) cs) := by
  rw [packedString, hs, replaceInvalid_encode]

lemma zero_notMem_packedString (s : CStr) (limit : ℤ) : (0 : UInt8) ∉ packedString s limit :=
  zero_notMem_encode fun c hc =>
    replaceInvalid_ne_zero s.nonzero c ((takeWithin_isPrefix _ _).subset hc)

lemma strUtf8Check_packedString (s : CStr) (limit : ℤ) :
    strUtf8Check (packedString s limit) = true := strUtf8Check_encode _

/-- `AddString` without an error: the packed string and its terminator are appended, and
only the terminator of an empty string can lie outside the buffer. -/
lemma addString_spec {p : CPacker} {s : CStr} {limit : ℤ} (h : (p.addString s limit).error = false) :
    p.addString s limit = ⟨p.buffer ++ (packedString s limit ++ [0]), false⟩ ∧
      (packedString s limit ≠ [] → (p.addString s limit).size ≤ packerBufferSize) := by
  have hp : p.error = false := by
    by_contra hp
    rw [CPacker.addString, if_pos (by simpa using hp)] at h
    exact hp h
  rw [CPacker.addString, if_neg (by simp [hp])] at h ⊢
  obtain ⟨hrun, hroom⟩ := addStringLoop_spec h
  refine ⟨by rw [hrun, packedString]; simp, fun hne => ?_⟩
  simpa [CPacker.size] using hroom hne

lemma addInt_spec {p : CPacker} {i : BitVec 32} (h : (p.addInt i).error = false) :
    p.addInt i = ⟨p.buffer ++ (CVariableInt.pack i ((packerBufferSize : ℤ) - p.size)).1, false⟩ ∧
      (CVariableInt.pack i ((packerBufferSize : ℤ) - p.size)).2 = true := by
  unfold CPacker.addInt at h ⊢
  by_cases hp : p.error = true
  · rw [if_pos hp] at h
    exact absurd h (by simp [hp])
  · rw [if_neg hp] at h ⊢
    by_cases hok : (CVariableInt.pack i ((packerBufferSize : ℤ) - p.size)).2 = true
    · exact ⟨by simp [hok], hok⟩
    · simp [hok] at h

lemma addRaw_spec {p : CPacker} {data : List UInt8} (h : (p.addRaw data).error = false) :
    p.addRaw data = ⟨p.buffer ++ data, false⟩ ∧ p.size + data.length ≤ packerBufferSize := by
  unfold CPacker.addRaw at h ⊢
  by_cases hp : p.error = true
  · rw [if_pos hp] at h
    exact absurd h (by simp [hp])
  · rw [if_neg hp] at h ⊢
    by_cases hroom : packerBufferSize < p.size + data.length
    · rw [if_pos hroom] at h
      exact absurd h (by simp)
    · rw [if_neg hroom]
      exact ⟨by simpa using hp, by omega⟩

/-- The error flag is sticky. -/
lemma add_of_error {p : CPacker} (hp : p.error = true) (op : PackOp) : op.add p = p := by
  cases op <;> simp [PackOp.add, CPacker.addInt, CPacker.addRaw, CPacker.addString, hp]

lemma getString_append {s : List UInt8} (rest : List UInt8) (hs : (0 : UInt8) ∉ s) (hcheck : strUtf8Check s = true) :
    CUnpacker.getString ⟨s ++ (0 :: rest), false⟩ 0 = (s, ⟨rest, false⟩) := by
  have hall : ∀ b ∈ s, (decide (b ≠ 0)) = true := fun b hb => by
    simpa using fun h : b = 0 => hs (h ▸ hb)
  have htake : (s ++ (0 :: rest)).takeWhile (· ≠ 0) = s := by
    rw [List.takeWhile_append_of_pos hall]
    simp
  have hdrop : (s ++ (0 :: rest)).dropWhile (· ≠ 0) = 0 :: rest := by
    rw [List.dropWhile_append_of_pos hall]
    simp
  simp only [CUnpacker.getString, htake, hdrop, hcheck]
  simp

/-- One call without an error appends bytes that the matching call reads back. -/
lemma get_of_add {p : CPacker} {op : PackOp} (h : (op.add p).error = false) :
    ∃ bytes, op.add p = ⟨p.buffer ++ bytes, false⟩ ∧
      ∀ rest, op.get ⟨bytes ++ rest, false⟩ = (op.value, ⟨rest, false⟩) := by
  cases op with
  | int i =>
    obtain ⟨hadd, hok⟩ := addInt_spec h
    refine ⟨_, hadd, fun rest => ?_⟩
    simp only [PackOp.get, PackOp.value, CUnpacker.getInt]
    rw [CVariableInt.unpack_pack hok rest]
    simp
  | raw data =>
    obtain ⟨hadd, -⟩ := addRaw_spec h
    refine ⟨data, hadd, fun rest => ?_⟩
    have hsize : ¬ ((data.length : ℤ) < 0 ∨ ((data ++ rest).length : ℤ) < data.length) := by
      simp only [List.length_append]
      omega
    simp only [PackOp.get, PackOp.value, CUnpacker.getRaw, if_neg hsize]
    simp
  | string s limit =>
    obtain ⟨hadd, -⟩ := addString_spec h
    refine ⟨packedString s limit ++ [0], hadd, fun rest => ?_⟩
    have hget := getString_append rest (zero_notMem_packedString s limit)
      (strUtf8Check_packedString s limit)
    simp only [PackOp.get, PackOp.value, List.append_assoc, List.cons_append, List.nil_append]
    rw [hget]

/-! ### Whole sequences -/

lemma packAll_append (pre post : List PackOp) :
    packAll (pre ++ post) = post.foldl PackOp.add (packAll pre) := by
  rw [packAll, packAll, List.foldl_append]

lemma foldl_add_of_error {p : CPacker} (hp : p.error = true) (ops : List PackOp) :
    ops.foldl PackOp.add p = p := by
  induction ops with
  | nil => rfl
  | cons op ops ih => rw [List.foldl_cons, add_of_error hp, ih]

/-- If no error is left at the end, there was none before. -/
lemma error_of_foldl {p : CPacker} {ops : List PackOp}
    (h : (ops.foldl PackOp.add p).error = false) : p.error = false := by
  by_contra hp
  rw [foldl_add_of_error (by simpa using hp)] at h
  exact hp h

/-- The bytes that a sequence of calls appends are read back by the matching calls. -/
lemma unpackAll_foldl {p : CPacker} {ops : List PackOp}
    (h : (ops.foldl PackOp.add p).error = false) :
    ∃ bytes, ops.foldl PackOp.add p = ⟨p.buffer ++ bytes, false⟩ ∧
      ∀ rest, unpackAll ⟨bytes ++ rest, false⟩ ops = (ops.map PackOp.value, ⟨rest, false⟩) := by
  induction ops generalizing p with
  | nil =>
    refine ⟨[], ?_, fun rest => rfl⟩
    obtain ⟨buffer, error⟩ := p
    simpa using h
  | cons op ops ih =>
    rw [List.foldl_cons] at h
    obtain ⟨bytes, hadd, hget⟩ := get_of_add (error_of_foldl h)
    obtain ⟨more, hrun, hread⟩ := ih h
    refine ⟨bytes ++ more, ?_, fun rest => ?_⟩
    · rw [List.foldl_cons, hrun, hadd]
      simp
    · simp only [unpackAll, List.append_assoc, hget, hread, List.map_cons]

/-- Without an error the sequence round-trips as soon as its bytes lie in the buffer. -/
lemma roundTrips_iff_size {ops : List PackOp} (h : (packAll ops).error = false) :
    RoundTrips ops ↔ (packAll ops).size ≤ packerBufferSize := by
  obtain ⟨bytes, hrun, hread⟩ := unpackAll_foldl (p := CPacker.reset) h
  constructor
  · rintro ⟨data, hdata, -⟩
    by_contra hsize
    rw [CPacker.produced, if_neg hsize] at hdata
    exact absurd hdata (by simp)
  · intro hsize
    refine ⟨(packAll ops).buffer, by rw [CPacker.produced, if_pos hsize], ?_⟩
    have hbytes : (packAll ops).buffer = bytes ++ [] := by
      rw [packAll, hrun]
      simp [CPacker.reset]
    rw [hbytes]
    exact hread []

lemma size_le_foldl {p : CPacker} {ops : List PackOp}
    (h : (ops.foldl PackOp.add p).error = false) : p.size ≤ (ops.foldl PackOp.add p).size := by
  obtain ⟨bytes, hrun, -⟩ := unpackAll_foldl h
  rw [hrun]
  simp [CPacker.size]

/-- One call keeps the bytes in the buffer, unless it stores the terminator of an empty
string behind a full buffer. -/
lemma size_add_le {p : CPacker} {op : PackOp} (h : (op.add p).error = false)
    (hsize : p.size ≤ packerBufferSize)
    (hfits : ∀ s limit, op = .string s limit → p.size = packerBufferSize → packedString s limit ≠ []) :
    (op.add p).size ≤ packerBufferSize := by
  cases op with
  | int i =>
    obtain ⟨hadd, hok⟩ := addInt_spec h
    have hlen := CVariableInt.pack_length_le i ((packerBufferSize : ℤ) - p.size)
    change (p.addInt i).size ≤ _
    rw [hadd]
    simp only [CPacker.size, List.length_append] at hsize hlen ⊢
    omega
  | raw data =>
    obtain ⟨hadd, hroom⟩ := addRaw_spec h
    change (p.addRaw data).size ≤ _
    rw [hadd]
    simpa [CPacker.size] using hroom
  | string s limit =>
    obtain ⟨hadd, hroom⟩ := addString_spec h
    by_cases hempty : packedString s limit = []
    · have hlt : p.size < packerBufferSize :=
        lt_of_le_of_ne hsize fun heq => hfits s limit rfl heq hempty
      change (p.addString s limit).size ≤ _
      rw [hadd, hempty]
      simpa [CPacker.size] using hlt
    · exact hroom hempty

lemma terminatorFits_of_append {ops : List PackOp} {op : PackOp} (h : TerminatorFits (ops ++ [op])) :
    TerminatorFits ops := by
  intro pre s limit post hops
  exact h pre s limit (post ++ [op]) (by rw [hops]; simp)

/-- The bytes stay in the buffer exactly if every terminator does. -/
lemma size_le_iff {ops : List PackOp} (h : (packAll ops).error = false) :
    (packAll ops).size ≤ packerBufferSize ↔ TerminatorFits ops := by
  constructor
  · rintro hsize pre s limit post rfl hfull hempty
    rw [packAll_append, List.foldl_cons] at h hsize
    obtain ⟨hadd, -⟩ := addString_spec (error_of_foldl h)
    have hmono := size_le_foldl h
    have hover : (PackOp.add (packAll pre) (.string s limit)).size = packerBufferSize + 1 := by
      change ((packAll pre).addString s limit).size = _
      rw [hadd, hempty, ← hfull]
      simp [CPacker.size]
    omega
  · induction ops using List.reverseRecOn with
    | nil => exact fun _ => Nat.zero_le _
    | append_singleton ops op ih =>
      intro hfits
      rw [packAll_append, List.foldl_cons, List.foldl_nil] at h ⊢
      have hprev : (packAll ops).error = false := @error_of_foldl _ [op] h
      refine size_add_le h (ih hprev (terminatorFits_of_append hfits)) ?_
      rintro s limit rfl
      exact hfits ops s limit [] rfl

/-- **Packer round trip.**  For every sequence of calls that leaves no error, the matching
calls read the produced bytes back without an error, completely and unchanged, exactly if
no string that packs to nothing was added to a full buffer.  Valid UTF-8 is packed as it
is, cut between two characters where the limit applies. -/
theorem packer_roundTrips_iff {ops : List PackOp} (h : (packAll ops).error = false) :
    (RoundTrips ops ↔ TerminatorFits ops) ∧
      ∀ (s : CStr) (limit : ℤ) (cs : List Char), s.bytes = encode cs →
        packedString s limit = encode (takeWithin (CPacker.stringLimit limit) cs) :=
  ⟨(roundTrips_iff_size h).trans (size_le_iff h), fun _ limit _ hs => packedString_of_encode hs limit⟩

/-- A message of an int, a two-byte block and a string. -/
theorem packer_roundTrips_iff_message :
    (packAll [.int 70, .raw [1, 0], .string ⟨[104, 105], by simp⟩ 0]).error = false ∧
      (RoundTrips [.int 70, .raw [1, 0], .string ⟨[104, 105], by simp⟩ 0] ↔
        TerminatorFits [.int 70, .raw [1, 0], .string ⟨[104, 105], by simp⟩ 0]) := by
  have h : (packAll [.int 70, .raw [1, 0], .string ⟨[104, 105], by simp⟩ 0]).error = false := by
    have hint : CPacker.addInt CPacker.reset 70 = ⟨[134, 1], false⟩ := by decide +kernel
    have hraw : CPacker.addRaw ⟨[134, 1], false⟩ [1, 0] = ⟨[134, 1, 1, 0], false⟩ := by decide
    simp only [packAll, List.foldl_cons, List.foldl_nil, PackOp.add, hint, hraw]
    decide +kernel
  exact ⟨h, (packer_roundTrips_iff h).1⟩

/-- The full buffer: `AddString` of an empty string reports no error, but its terminator is
the 2049th byte. -/
theorem not_packer_roundTrips_full_buffer :
    (packAll [.raw (List.replicate packerBufferSize 0), .string ⟨[], by simp⟩ 0]).error = false ∧
      ¬ RoundTrips [.raw (List.replicate packerBufferSize 0), .string ⟨[], by simp⟩ 0] := by
  have hraw : CPacker.addRaw CPacker.reset (List.replicate packerBufferSize 0) =
      ⟨List.replicate packerBufferSize 0, false⟩ := by
    simp [CPacker.addRaw, CPacker.reset, CPacker.size]
  have hstr : CPacker.addString ⟨List.replicate packerBufferSize 0, false⟩ ⟨[], by simp⟩ 0 =
      ⟨List.replicate packerBufferSize 0 ++ [0], false⟩ := by
    simp [CPacker.addString, addStringLoop_nil]
  have hall : packAll [.raw (List.replicate packerBufferSize 0), .string ⟨[], by simp⟩ 0] =
      ⟨List.replicate packerBufferSize 0 ++ [0], false⟩ := by
    simp only [packAll, List.foldl_cons, List.foldl_nil, PackOp.add, hraw, hstr]
  refine ⟨by rw [hall], fun hround => ?_⟩
  have hsize := (roundTrips_iff_size (by rw [hall])).1 hround
  rw [hall] at hsize
  simp [CPacker.size] at hsize

end Packing

end DDNet
