/-
The memory of a `CPacker`.

`Shared/Packer.lean` describes a packer by the bytes it has packed.  Here the bytes are stored one range after the other
into a memory that goes on in front of `m_aBuffer` and behind it, and every range that is stored is recorded.  As long as
all of them lie inside the buffer, the bytes up to `m_pCurrent` are those of the other description (`view_exec`).

The main result is `calls_safe_iff`.
-/
import DDNet.Shared.Packer
import DDNet.Shared.IntArray

namespace DDNet

open Utf8 Packing

/-- `CPacker` with its memory; addresses count from `m_aBuffer` on.  `written` is the record of the ranges stored. -/
structure PackerMem where
  mem : ℤ → UInt8
  pCurrent : ℤ
  error : Bool
  written : List (ℤ × ℕ)

namespace PackerMem

variable {p q : PackerMem}

/-- `n` bytes are stored at `m_pCurrent`. -/
def store (p : PackerMem) (bytes : ℕ → UInt8) (n : ℕ) : PackerMem :=
  { p with
    mem := fun a => if p.pCurrent ≤ a ∧ a < p.pCurrent + n then bytes (a - p.pCurrent).toNat else p.mem a
    written := (p.pCurrent, n) :: p.written }

/-- A list of bytes is stored at `m_pCurrent`. -/
def storeList (p : PackerMem) (bytes : List UInt8) : PackerMem := p.store (fun k => bytes.getD k 0) bytes.length

/-- `m_pCurrent` moves on. -/
def advance (p : PackerMem) (n : ℤ) : PackerMem := { p with pCurrent := p.pCurrent + n }

/-- `m_Error = true`. -/
def fail (p : PackerMem) : PackerMem := { p with error := true }

/-- `Size`. -/
def size (p : PackerMem) : ℤ := p.pCurrent

/-- `Reset`. -/
def reset (p : PackerMem) : PackerMem := { p with pCurrent := 0, error := false }

/-- `AddInt`.  `Pack` also stores the bytes of an int that does not fit, as far as they do. -/
def addInt (p : PackerMem) (i : BitVec 32) : PackerMem :=
  if p.error then p
  else
    let r := CVariableInt.pack i (packerBufferSize - p.pCurrent)
    if r.2 then (p.storeList r.1).advance r.1.length else (p.storeList r.1).fail

/-- The loop of `AddString` on the rest of the string, with `limit` bytes left. -/
def addStringLoop (p : PackerMem) (limit : ℕ) (s : List UInt8) : PackerMem :=
  match s with
  | [] => p
  | b :: s' =>
      if limit = 0 then p
      else
        let r := strUtf8Decode (b :: s')
        let codepoint := if r.1 = -1 then 0xFFFD else r.1.toNat
        let length := (strUtf8Encode codepoint).length
        if limit < length then p
        else if packerBufferSize - p.pCurrent < length + 1 then p.fail
        else addStringLoop ((p.storeList (strUtf8Encode codepoint)).advance length) (limit - length) r.2
termination_by s.length
decreasing_by exact strUtf8Decode_length b s'

/-- `AddString`. -/
def addString (p : PackerMem) (s : CStr) (limit : ℤ) : PackerMem :=
  if p.error then p
  else ((p.addStringLoop (CPacker.stringLimit limit) s.bytes).storeList [0]).advance 1

/-- The number of bytes that `mem_copy` copies: its argument is a `size_t`. -/
def sizeT (size : BitVec 32) : ℕ := (size.toInt % 2 ^ 64).toNat

/-- `AddRaw`. -/
def addRaw (p : PackerMem) (pData : ℕ → UInt8) (size : BitVec 32) : PackerMem :=
  if p.error then p
  else if packerBufferSize < p.pCurrent + size.toInt then p.fail
  else (p.store pData (sizeT size)).advance size.toInt

/-- A call to the packer. -/
inductive Call where
  | reset
  | int (i : BitVec 32)
  | string (s : CStr) (limit : ℤ)
  | raw (pData : ℕ → UInt8) (size : BitVec 32)

def Call.exec (p : PackerMem) : Call → PackerMem
  | reset => p.reset
  | int i => p.addInt i
  | string s limit => p.addString s limit
  | raw pData size => p.addRaw pData size

/-- The packer after a first `Reset` and some calls; `mem` is what the memory happened to hold. -/
def run (mem : ℤ → UInt8) (calls : List Call) : PackerMem := calls.foldl Call.exec ⟨mem, 0, false, []⟩

/-! ### What is to be shown -/

/-- All bytes of the range lie inside `m_aBuffer`. -/
def Inside (r : ℤ × ℕ) : Prop := ∀ k < r.2, 0 ≤ r.1 + k ∧ r.1 + k < packerBufferSize

/-- There is room for what the call adds. -/
def Call.Fits (p : PackerMem) : Call → Prop
  | reset => True
  | int i => p.size + CVariableInt.intBytes i ≤ packerBufferSize
  | string s limit => p.size + (packedString s limit).length + 1 ≤ packerBufferSize
  | raw _ size => p.size + size.toInt ≤ packerBufferSize

/-- The call stores inside the buffer and leaves a size between zero and that of the buffer; the error flag is set if
there is no room, and keeps all further calls from adding anything; and the bytes counted so far are kept. -/
structure Meets (p : PackerMem) (c : Call) : Prop where
  inside : ∀ r ∈ (c.exec p).written, Inside r
  size_nonneg : 0 ≤ (c.exec p).size
  size_le : (c.exec p).size ≤ packerBufferSize
  error : ¬ c.Fits p → (c.exec p).error = true
  sticky : p.error = true → c ≠ .reset → c.exec p = p
  keeps : c ≠ .reset → ∀ a, 0 ≤ a → a < p.size → (c.exec p).mem a = p.mem a

/-- A string is added to a full buffer, or a negative number of bytes. -/
def Call.Overruns (p : PackerMem) : Call → Prop
  | reset => False
  | int _ => False
  | string _ _ => p.error = false ∧ p.size = packerBufferSize
  | raw _ size => p.error = false ∧ size.toInt < 0

/-! ### Stores -/

/-- The bytes in front of `m_pCurrent` are kept, which does not move back. -/
structure Keeps (p q : PackerMem) : Prop where
  le : p.pCurrent ≤ q.pCurrent
  mem : ∀ a < p.pCurrent, q.mem a = p.mem a

lemma Keeps.refl (p : PackerMem) : p.Keeps p := ⟨le_refl _, fun _ _ => rfl⟩

lemma Keeps.trans {r : PackerMem} (h : p.Keeps q) (h' : q.Keeps r) : p.Keeps r :=
  ⟨h.le.trans h'.le, fun a ha => (h'.mem a (lt_of_lt_of_le ha h.le)).trans (h.mem a ha)⟩

lemma keeps_store (p : PackerMem) (bytes : ℕ → UInt8) (n m : ℕ) : p.Keeps ((p.store bytes n).advance m) :=
  ⟨le_add_of_nonneg_right (Int.natCast_nonneg m), fun _ ha => if_neg fun h => absurd h.1 (not_le.mpr ha)⟩

lemma keeps_fail (p : PackerMem) (bytes : ℕ → UInt8) (n : ℕ) : p.Keeps (p.store bytes n).fail :=
  ⟨le_refl _, fun _ ha => if_neg fun h => absurd h.1 (not_le.mpr ha)⟩

/-- Everything so far lies inside the buffer. -/
structure InBuffer (p : PackerMem) : Prop where
  nonneg : 0 ≤ p.pCurrent
  le : p.pCurrent ≤ packerBufferSize
  inside : ∀ r ∈ p.written, Inside r

namespace InBuffer

lemma store (h : p.InBuffer) (bytes : ℕ → UInt8) {n : ℕ} (hn : p.pCurrent + n ≤ packerBufferSize) :
    (p.store bytes n).InBuffer := by
  refine ⟨h.nonneg, h.le, ?_⟩
  rintro r (_ | ⟨_, hr⟩)
  · intro k hk
    have hnonneg := h.nonneg
    change 0 ≤ p.pCurrent + k ∧ p.pCurrent + k < packerBufferSize
    change k < n at hk
    omega
  · exact h.inside r hr

lemma advance (h : p.InBuffer) {n : ℕ} (hn : p.pCurrent + n ≤ packerBufferSize) : (p.advance n).InBuffer :=
  ⟨add_nonneg h.nonneg (Int.natCast_nonneg n), hn, h.inside⟩

end InBuffer

/-! ### The bytes packed -/

/-- The packer as the list of its bytes. -/
def view (p : PackerMem) : CPacker := ⟨(List.range p.pCurrent.toNat).map fun k : ℕ => p.mem k, p.error⟩

@[simp] lemma view_error (p : PackerMem) : p.view.error = p.error := rfl

@[simp] lemma view_size (p : PackerMem) : p.view.size = p.pCurrent.toNat := by simp [view, CPacker.size]

@[simp] lemma view_fail (p : PackerMem) : p.fail.view = { p.view with error := true } := rfl

lemma view_store (p : PackerMem) (bytes : ℕ → UInt8) (n : ℕ) : (p.store bytes n).view = p.view := by
  have hbefore : (List.range p.pCurrent.toNat).map (fun k : ℕ => (p.store bytes n).mem k) = p.view.buffer :=
    List.map_congr_left fun k hk => if_neg fun hwithin => by
      have := List.mem_range.mp hk
      omega
  exact congrArg (fun bytes => CPacker.mk bytes p.error) hbefore

lemma view_advance (h : 0 ≤ p.pCurrent) (bytes : ℕ → UInt8) (n : ℕ) :
    ((p.store bytes n).advance n).view =
      ⟨p.view.buffer ++ (List.range n).map bytes, p.error⟩ := by
  have hlength : (p.pCurrent + n).toNat = p.pCurrent.toNat + n := by omega
  have hbefore : (List.range p.pCurrent.toNat).map (fun k : ℕ => (p.store bytes n).mem k) = p.view.buffer :=
    congrArg CPacker.buffer (view_store p bytes n)
  have hstored : (List.range n).map (fun k : ℕ => (p.store bytes n).mem ((p.pCurrent.toNat + k : ℕ) : ℤ)) =
      (List.range n).map bytes := by
    refine List.map_congr_left fun k hk => ?_
    have hplace : (((p.pCurrent.toNat + k : ℕ) : ℤ) - p.pCurrent).toNat = k := by omega
    have hlt := List.mem_range.mp hk
    have hwithin : p.pCurrent ≤ ((p.pCurrent.toNat + k : ℕ) : ℤ) ∧
        ((p.pCurrent.toNat + k : ℕ) : ℤ) < p.pCurrent + n := by omega
    exact (if_pos hwithin).trans (congrArg bytes hplace)
  have hall : ((p.store bytes n).advance n).view.buffer = p.view.buffer ++ (List.range n).map bytes := by
    change (List.range (p.pCurrent + n).toNat).map (fun k : ℕ => (p.store bytes n).mem k) = _
    rw [hlength, List.range_add, List.map_append, List.map_map, hbefore]
    exact congrArg (p.view.buffer ++ ·) hstored
  exact congrArg (fun bytes => CPacker.mk bytes p.error) hall

lemma view_storeList (h : 0 ≤ p.pCurrent) (bytes : List UInt8) :
    ((p.storeList bytes).advance bytes.length).view = ⟨p.view.buffer ++ bytes, p.error⟩ := by
  have hbytes : (List.range bytes.length).map (fun k => bytes.getD k 0) = bytes :=
    List.ext_getElem (by simp) fun k hk hk' => by
      rw [List.getElem_map, List.getElem_range, List.getD_eq_getElem _ _ hk']
  rw [storeList, view_advance h, hbytes]

/-- The loop of `AddString`, with room for the terminator at its start. -/
lemma addStringLoop_spec (limit : ℕ) (s : List UInt8) (h : p.InBuffer) (hroom : p.pCurrent < packerBufferSize) :
    (p.addStringLoop limit s).view = p.view.addStringLoop limit s ∧ (p.addStringLoop limit s).InBuffer ∧
      (p.addStringLoop limit s).pCurrent < packerBufferSize ∧ p.Keeps (p.addStringLoop limit s) := by
  induction hn : s.length using Nat.strong_induction_on generalizing p limit s with
  | _ n ih =>
    cases s with
    | nil =>
      rw [addStringLoop, CPacker.addStringLoop]
      exact ⟨rfl, h, hroom, .refl p⟩
    | cons b s' =>
      rw [addStringLoop, CPacker.addStringLoop]
      by_cases hlimit : limit = 0
      · rw [if_pos hlimit, if_pos hlimit]
        exact ⟨rfl, h, hroom, .refl p⟩
      · rw [if_neg hlimit, if_neg hlimit]
        simp only [view_size]
        generalize strUtf8Encode (if (strUtf8Decode (b :: s')).1 = -1 then 0xFFFD
          else (strUtf8Decode (b :: s')).1.toNat) = bytes
        by_cases hcut : limit < bytes.length
        · rw [if_pos hcut, if_pos hcut]
          exact ⟨rfl, h, hroom, .refl p⟩
        · have hnonneg := h.nonneg
          rw [if_neg hcut, if_neg hcut]
          by_cases hfull : packerBufferSize - p.pCurrent < bytes.length + 1
          · rw [if_pos hfull, if_pos (by omega)]
            exact ⟨rfl, ⟨h.nonneg, h.le, h.inside⟩, hroom, ⟨le_refl _, fun _ _ => rfl⟩⟩
          · rw [if_neg hfull, if_neg (by omega)]
            have hlt : (strUtf8Decode (b :: s')).2.length < n := hn ▸ strUtf8Decode_length b s'
            have hin : ((p.storeList bytes).advance bytes.length).InBuffer :=
              InBuffer.advance (h.store _ (by omega)) (by change p.pCurrent + bytes.length ≤ _; omega)
            have hroom' : ((p.storeList bytes).advance bytes.length).pCurrent < packerBufferSize := by
              change p.pCurrent + bytes.length < _
              omega
            obtain ⟨hview, hin', hroom'', hkeeps⟩ := ih _ hlt (limit - bytes.length) _ hin hroom' rfl
            rw [hview, view_storeList h.nonneg]
            exact ⟨rfl, hin', hroom'', (keeps_store p _ _ _).trans hkeeps⟩

/-- `AddString` unless the buffer is full. -/
lemma addString_spec (s : CStr) (limit : ℤ) (h : p.InBuffer) (hroom : p.error = false → p.pCurrent ≠ packerBufferSize) :
    (p.addString s limit).view = p.view.addString s limit ∧ (p.addString s limit).InBuffer ∧
      p.Keeps (p.addString s limit) := by
  unfold addString CPacker.addString
  by_cases herror : p.error = true
  · rw [if_pos herror, if_pos (by exact herror)]
    exact ⟨rfl, h, .refl p⟩
  · rw [if_neg herror, if_neg (by exact herror)]
    obtain ⟨hview, hin, hlt, hkeeps⟩ := addStringLoop_spec (CPacker.stringLimit limit) s.bytes h
      (lt_of_le_of_ne h.le (hroom (Bool.not_eq_true _ ▸ herror)))
    have hone : (p.addStringLoop (CPacker.stringLimit limit) s.bytes).pCurrent + (1 : ℕ) ≤ packerBufferSize := by
      push_cast
      omega
    refine ⟨?_, InBuffer.advance (hin.store _ hone) hone, hkeeps.trans (keeps_store _ _ 1 1)⟩
    rw [← hview]
    exact view_storeList hin.nonneg [0]

lemma addInt_spec (i : BitVec 32) (h : p.InBuffer) :
    (p.addInt i).view = p.view.addInt i ∧ (p.addInt i).InBuffer ∧ p.Keeps (p.addInt i) := by
  have hsize : ((p.view.size : ℕ) : ℤ) = p.pCurrent := by rw [view_size, Int.toNat_of_nonneg h.nonneg]
  have hle := h.le
  have hlength := CVariableInt.pack_length_le i (packerBufferSize - p.pCurrent)
  unfold addInt CPacker.addInt
  rw [view_error, hsize]
  by_cases herror : p.error = true
  · rw [if_pos herror, if_pos herror]
    exact ⟨rfl, h, .refl p⟩
  · rw [if_neg herror, if_neg herror]
    simp only
    have hroom : p.pCurrent + (CVariableInt.pack i (packerBufferSize - p.pCurrent)).1.length ≤ packerBufferSize := by
      omega
    by_cases hok : (CVariableInt.pack i (packerBufferSize - p.pCurrent)).2 = true
    · have hsame : p.error = false := Bool.not_eq_true _ ▸ herror
      rw [if_pos hok, if_pos hok, view_storeList h.nonneg, hsame]
      exact ⟨rfl, InBuffer.advance (h.store _ hroom) hroom, keeps_store p _ _ _⟩
    · rw [if_neg hok, if_neg hok, view_fail, storeList, view_store]
      have hin := h.store (fun k => (CVariableInt.pack i (packerBufferSize - p.pCurrent)).1.getD k 0) hroom
      exact ⟨rfl, ⟨hin.nonneg, hin.le, hin.inside⟩, keeps_fail p _ _⟩

lemma sizeT_of_nonneg {size : BitVec 32} (h : 0 ≤ size.toInt) : ((sizeT size : ℕ) : ℤ) = size.toInt := by
  have hlt : size.toInt < 2 ^ 31 := BitVec.toInt_lt
  rw [sizeT, Int.emod_eq_of_lt h (by omega), Int.toNat_of_nonneg h]

/-- A negative size turns into more bytes than there are addresses. -/
lemma le_sizeT_of_neg {size : BitVec 32} (h : size.toInt < 0) : 2 ^ 63 ≤ sizeT size := by
  have hge : -2 ^ 31 ≤ size.toInt := BitVec.le_toInt size
  have hmod : size.toInt % 2 ^ 64 = size.toInt + 2 ^ 64 := by omega
  rw [sizeT, hmod]
  omega

/-- `AddRaw` of a nonnegative number of bytes. -/
lemma addRaw_spec (pData : ℕ → UInt8) {size : BitVec 32} (h : p.InBuffer) (hsize : p.error = false → 0 ≤ size.toInt) :
    (p.addRaw pData size).view = p.view.addRaw ((List.range size.toInt.toNat).map pData) ∧
      (p.addRaw pData size).InBuffer ∧ p.Keeps (p.addRaw pData size) := by
  have hnonneg := h.nonneg
  unfold addRaw CPacker.addRaw
  rw [view_error, view_size, List.length_map, List.length_range]
  by_cases herror : p.error = true
  · rw [if_pos herror, if_pos herror]
    exact ⟨rfl, h, .refl p⟩
  · rw [if_neg herror, if_neg herror]
    have hpos := hsize (Bool.not_eq_true _ ▸ herror)
    by_cases hfull : packerBufferSize < p.pCurrent + size.toInt
    · rw [if_pos hfull, if_pos (by omega), view_fail]
      exact ⟨rfl, ⟨h.nonneg, h.le, h.inside⟩, ⟨le_refl _, fun _ _ => rfl⟩⟩
    · have hn : ((sizeT size : ℕ) : ℤ) = size.toInt := sizeT_of_nonneg hpos
      have htoNat : size.toInt.toNat = sizeT size := by omega
      have hroom : p.pCurrent + sizeT size ≤ packerBufferSize := by omega
      rw [if_neg hfull, if_neg (by omega), htoNat, ← hn, view_advance h.nonneg]
      exact ⟨rfl, InBuffer.advance (h.store _ hroom) hroom, keeps_store p _ _ _⟩

/-! ### One call -/

/-- The list version of a call. -/
def Call.add (p : CPacker) : Call → CPacker
  | reset => .reset
  | int i => p.addInt i
  | string s limit => p.addString s limit
  | raw pData size => p.addRaw ((List.range size.toInt.toNat).map pData)

/-- Inside the buffer the packer is the one of the list version. -/
theorem view_exec (c : Call) (h : p.InBuffer) (hc : ¬ c.Overruns p) : (c.exec p).view = c.add p.view := by
  cases c with
  | reset => rfl
  | int i => exact (addInt_spec i h).1
  | string s limit => exact (addString_spec s limit h fun herror hfull => hc ⟨herror, hfull⟩).1
  | raw pData size => exact (addRaw_spec pData h fun herror => not_lt.mp fun hneg => hc ⟨herror, hneg⟩).1

/-- A call that does not overrun the buffer leaves everything inside of it, and keeps what is there. -/
lemma exec_spec (c : Call) (h : p.InBuffer) (hc : ¬ c.Overruns p) :
    (c.exec p).InBuffer ∧ (c ≠ .reset → p.Keeps (c.exec p)) := by
  cases c with
  | reset => exact ⟨⟨le_refl _, Int.natCast_nonneg _, h.inside⟩, fun hne => absurd rfl hne⟩
  | int i =>
    obtain ⟨-, hin, hkeeps⟩ := addInt_spec i h
    exact ⟨hin, fun _ => hkeeps⟩
  | string s limit =>
    obtain ⟨-, hin, hkeeps⟩ := addString_spec s limit h fun herror hfull => hc ⟨herror, hfull⟩
    exact ⟨hin, fun _ => hkeeps⟩
  | raw pData size =>
    obtain ⟨-, hin, hkeeps⟩ := addRaw_spec pData h fun herror => not_lt.mp fun hneg => hc ⟨herror, hneg⟩
    exact ⟨hin, fun _ => hkeeps⟩

/-- A call for which there is no room sets the error flag. -/
lemma error_of_not_fits {c : Call} (h : p.InBuffer) (hc : ¬ c.Overruns p) (hfits : ¬ c.Fits p) :
    (c.exec p).error = true := by
  have hnonneg := h.nonneg
  by_contra herror
  have hadd : (c.add p.view).error = false := by
    rw [← view_exec c h hc]
    exact Bool.not_eq_true _ ▸ herror
  cases c with
  | reset => exact hfits trivial
  | int i =>
    obtain ⟨-, hok⟩ := Packing.addInt_spec hadd
    have hgt : packerBufferSize - (p.view.size : ℤ) < (CVariableInt.packed i).length := by
      rw [CVariableInt.length_packed, view_size, Int.toNat_of_nonneg hnonneg]
      change ¬ p.pCurrent + CVariableInt.intBytes i ≤ packerBufferSize at hfits
      omega
    rw [CVariableInt.pack_of_gt hgt] at hok
    exact Bool.false_ne_true hok
  | string s limit =>
    obtain ⟨hbytes, hroom⟩ := Packing.addString_spec hadd
    have hp : p.error = false := @Packing.error_of_foldl p.view [.string s limit] hadd
    have hne : p.pCurrent ≠ packerBufferSize := fun hfull => hc ⟨hp, hfull⟩
    have hle := h.le
    apply hfits
    change p.pCurrent + (packedString s limit).length + 1 ≤ packerBufferSize
    by_cases hempty : packedString s limit = []
    · rw [hempty]
      simp only [List.length_nil]
      omega
    · have hsize := hroom hempty
      rw [hbytes] at hsize
      have hlength : p.view.buffer.length = p.pCurrent.toNat := view_size p
      simp only [CPacker.size, List.length_append, List.length_singleton, hlength] at hsize
      omega
  | raw pData size =>
    obtain ⟨-, hroom⟩ := Packing.addRaw_spec hadd
    rw [view_size, List.length_map, List.length_range] at hroom
    apply hfits
    change p.pCurrent + size.toInt ≤ packerBufferSize
    omega

lemma exec_of_error (herror : p.error = true) {c : Call} (hc : c ≠ .reset) : c.exec p = p := by
  cases c with
  | reset => exact absurd rfl hc
  | int i => exact if_pos herror
  | string s limit => exact if_pos herror
  | raw pData size => exact if_pos herror

lemma meets_of_not_overruns {c : Call} (h : p.InBuffer) (hc : ¬ c.Overruns p) : Meets p c where
  inside := (exec_spec c h hc).1.inside
  size_nonneg := (exec_spec c h hc).1.nonneg
  size_le := (exec_spec c h hc).1.le
  error := error_of_not_fits h hc
  sticky herror hne := exec_of_error herror hne
  keeps hne a _ ha := ((exec_spec c h hc).2 hne).mem a ha

/-- On a full buffer the loop of `AddString` adds nothing, whether it fails or not. -/
lemma addStringLoop_full (limit : ℕ) (s : List UInt8) (h : p.pCurrent = packerBufferSize) :
    (p.addStringLoop limit s).pCurrent = packerBufferSize := by
  cases s with
  | nil => rwa [addStringLoop]
  | cons b s' =>
    rw [addStringLoop]
    split_ifs with hlimit
    · exact h
    · simp only
      generalize strUtf8Encode (if (strUtf8Decode (b :: s')).1 = -1 then 0xFFFD
        else (strUtf8Decode (b :: s')).1.toNat) = bytes
      split_ifs with hcut hfull
      · exact h
      · exact h
      · omega

/-- A call that overruns the buffer stores a byte outside of it. -/
lemma not_meets_of_overruns {c : Call} (h : p.InBuffer) (hc : c.Overruns p) : ¬ Meets p c := by
  intro hmeets
  have hinside := hmeets.inside
  cases c with
  | reset => exact hc
  | int i => exact hc
  | string s limit =>
    obtain ⟨herror, hfull⟩ := hc
    have hloop : (p.addStringLoop (CPacker.stringLimit limit) s.bytes).pCurrent = packerBufferSize :=
      addStringLoop_full _ _ hfull
    have hexec : Call.exec p (.string s limit) =
        ((p.addStringLoop (CPacker.stringLimit limit) s.bytes).storeList [0]).advance 1 :=
      if_neg (by simp [herror])
    rw [hexec] at hinside
    have hterminator := hinside _ List.mem_cons_self 0 Nat.one_pos
    rw [hloop] at hterminator
    simp at hterminator
  | raw pData size =>
    obtain ⟨herror, hneg⟩ := hc
    have hle := h.le
    have hexec : Call.exec p (.raw pData size) = (p.store pData (sizeT size)).advance size.toInt := by
      change p.addRaw pData size = _
      rw [addRaw, if_neg (by simp [herror]), if_neg (by omega)]
    rw [hexec] at hinside
    have hmany := le_sizeT_of_neg hneg
    have hnonneg := h.nonneg
    have hfar := (hinside _ List.mem_cons_self packerBufferSize (by
      change packerBufferSize < sizeT size
      rw [packerBufferSize]
      omega)).2
    change p.pCurrent + packerBufferSize < packerBufferSize at hfar
    omega

/-! ### Sequences of calls -/

lemma run_append (mem : ℤ → UInt8) (calls : List Call) (c : Call) : run mem (calls ++ [c]) = c.exec (run mem calls) := by
  simp [run]

/-- As long as all calls meet the demands, everything lies inside the buffer. -/
lemma inBuffer_run (mem : ℤ → UInt8) {calls : List Call}
    (h : ∀ pre c post, calls = pre ++ c :: post → Meets (run mem pre) c) : (run mem calls).InBuffer := by
  induction calls using List.reverseRecOn with
  | nil => exact ⟨le_refl _, Int.natCast_nonneg _, fun r hr => nomatch hr⟩
  | append_singleton calls c ih =>
    have hlast := h calls c [] rfl
    rw [run_append]
    exact ⟨hlast.size_nonneg, hlast.size_le, hlast.inside⟩

/-- **Packer memory.**  In every sequence of calls after a first `Reset`, every call stores inside the buffer, leaves a
size between zero and that of the buffer, sets the error flag when there is no room, and keeps the bytes counted so far
if and only if no string is added to a full buffer and no negative number of bytes to any. -/
theorem calls_safe_iff (mem : ℤ → UInt8) (calls : List Call) :
    (∀ pre c post, calls = pre ++ c :: post → Meets (run mem pre) c) ↔
      ∀ pre c post, calls = pre ++ c :: post → ¬ c.Overruns (run mem pre) := by
  constructor
  · rintro h pre c post rfl hc
    have hin : (run mem pre).InBuffer := inBuffer_run mem fun pre' c' post' hpre =>
      h pre' c' (post' ++ c :: post) (by rw [hpre]; simp)
    exact not_meets_of_overruns hin hc (h pre c post rfl)
  · intro h pre
    induction pre using List.reverseRecOn with
    | nil =>
      intro c post hcalls
      exact meets_of_not_overruns (inBuffer_run mem fun pre' c' post' hpre => by simp at hpre) (h [] c post hcalls)
    | append_singleton pre d ih =>
      intro c post hcalls
      have hprev := ih d (c :: post) (by rw [hcalls]; simp)
      have hin : (run mem (pre ++ [d])).InBuffer := by
        rw [run_append]
        exact ⟨hprev.size_nonneg, hprev.size_le, hprev.inside⟩
      exact meets_of_not_overruns hin (h _ c post hcalls)

/-- A full buffer and an empty string: its terminator is the 2049th byte. -/
theorem not_calls_safe_full_buffer :
    ¬ ∀ pre c post, [Call.raw (fun _ => 0) 2048, .string ⟨[], by simp⟩ 0] = pre ++ c :: post →
      Meets (run (fun _ => 0) pre) c := by
  intro h
  have hin : (run (fun _ => 0) [Call.raw (fun _ => 0) 2048]).InBuffer := by
    refine inBuffer_run _ fun pre c post hpre => h pre c (post ++ [.string ⟨[], by simp⟩ 0]) ?_
    rw [← List.cons_append, ← List.append_assoc, ← hpre]
    rfl
  have hfull : Call.Overruns (run (fun _ => 0) [Call.raw (fun _ => 0) 2048]) (.string ⟨[], by simp⟩ 0) := ⟨rfl, rfl⟩
  exact not_meets_of_overruns hin hfull (h [Call.raw (fun _ => 0) 2048] _ [] rfl)

end PackerMem

end DDNet
