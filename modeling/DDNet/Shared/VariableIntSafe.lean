/-
The accesses of `CVariableInt::Unpack` and `CVariableInt::Decompress`.

The source is read from a memory that goes on behind its end, so a read too far is not ruled out beforehand: every read
and every write is recorded with its place, and a shift whose result is no `int` ends the run as undefined.  On these
runs the two functions agree with the ones on lists of bytes, which carries the round trip over.

The main result is `codec`.
-/
import DDNet.Shared.IntArray

namespace DDNet

namespace CVariableInt

/-- An access to memory: a byte of the source, by its offset, or an int of the destination, by its index. -/
inductive Access where
  | read (offset : ℕ)
  | write (index : ℕ)
deriving DecidableEq

/-- How `Unpack` and its loop end: with a null pointer, undefined, or with a value and a pointer into the source. -/
inductive Unpacked (α : Type) where
  | fail
  | undefined
  | done (value : α) (pSrc : ℕ)
deriving DecidableEq

/-- How `Decompress` ends: with `-1`, undefined, never, or with the ints it has written. -/
inductive Decompressed where
  | fail
  | undefined
  | endless
  | done (ints : List (BitVec 32))
deriving DecidableEq

/-- `<<` on a nonnegative `int`, which is undefined when the result is no `int`. -/
def shiftLeft (x s : ℕ) : Option ℕ := if x * 2 ^ s < 2 ^ 31 then some (x <<< s) else none

/-- The loop of `Unpack`, with `pSrc` at the byte last read and `srcSize` bytes behind it. -/
def unpackLoopAt (mem : ℕ → UInt8) (pInOut : ℕ) : List (ℕ × ℕ) → ℕ → ℕ → ℤ → List Access × Unpacked ℕ
  | [], pSrc, value, _ => ([], .done value pSrc)
  | (mask, shift) :: ms, pSrc, value, srcSize =>
      if (mem pSrc).toNat &&& 0x80 = 0 then ([.read pSrc], .done value pSrc)
      else if srcSize ≤ 0 then ([.read pSrc], .fail)
      else
        match shiftLeft ((mem (pSrc + 1)).toNat &&& mask) shift with
        | none => ([.read pSrc, .read (pSrc + 1)], .undefined)
        | some bits =>
            let r := unpackLoopAt mem pInOut ms (pSrc + 1) (value ||| bits) (srcSize - 1)
            (.read pSrc :: .read (pSrc + 1) :: .write pInOut :: r.1, r.2)

/-- `Unpack`. -/
def unpackAt (mem : ℕ → UInt8) (pSrc pInOut : ℕ) (srcSize : ℤ) : List Access × Unpacked (BitVec 32) :=
  if srcSize ≤ 0 then ([], .fail)
  else
    let sign := ((mem pSrc).toNat >>> 6) &&& 1
    let r := unpackLoopAt mem pInOut masksShifts pSrc ((mem pSrc).toNat &&& 0x3F) (srcSize - 1)
    match r.2 with
    | .fail => (.read pSrc :: .write pInOut :: r.1, .fail)
    | .undefined => (.read pSrc :: .write pInOut :: r.1, .undefined)
    | .done value pSrc' =>
        (.read pSrc :: .write pInOut :: r.1 ++ [.write pInOut],
          .done (BitVec.ofNat 32 value ^^^ -(BitVec.ofNat 32 sign)) (pSrc' + 1))

/-- An int in front of the ints that are decompressed after it. -/
def Decompressed.cons (i : BitVec 32) : Decompressed → Decompressed
  | done ints => done (i :: ints)
  | d => d

/-- The loop of `Decompress`. -/
def decompressLoopAt (mem : ℕ → UInt8) (pSrcEnd : ℤ) (pDstEnd : ℕ) : ℕ → ℕ → ℕ → List Access × Decompressed
  | rounds, pSrc, pDst =>
      if ¬ (pSrc : ℤ) < pSrcEnd then ([], .done [])
      else
        match rounds with
        | 0 => ([], .endless)
        | rounds + 1 =>
            if pDstEnd ≤ pDst then ([], .fail)
            else
              let r := unpackAt mem pSrc pDst (pSrcEnd - pSrc)
              match r.2 with
              | .fail => (r.1, .fail)
              | .undefined => (r.1, .undefined)
              | .done i pSrc' =>
                  let rs := decompressLoopAt mem pSrcEnd pDstEnd rounds pSrc' (pDst + 1)
                  (r.1 ++ rs.1, rs.2.cons i)

/-- `Decompress` into an array of `room` ints. -/
def decompressAt (mem : ℕ → UInt8) (srcSize : ℤ) (room : ℕ) : List Access × Decompressed :=
  decompressLoopAt mem srcSize room srcSize.toNat 0 0

/-! ### Safe accesses -/

/-- The access reads a byte of the source from `first` on and before `last`, or writes an int of the destination. -/
def Access.Within (first last : ℕ) (ints : ℕ → Prop) : Access → Prop
  | read offset => first ≤ offset ∧ offset < last
  | write index => ints index

lemma Access.Within.mono {first last first' last' : ℕ} {ints ints' : ℕ → Prop} {a : Access}
    (h : a.Within first last ints) (hfirst : first' ≤ first) (hlast : last ≤ last') (hints : ∀ k, ints k → ints' k) :
    a.Within first' last' ints' := by
  cases a with
  | read offset => exact ⟨le_trans hfirst h.1, lt_of_lt_of_le h.2 hlast⟩
  | write index => exact hints index h

/-- `n` bytes of the memory. -/
def bytesAt (mem : ℕ → UInt8) (first n : ℕ) : List UInt8 := (List.range' first n).map mem

@[simp] lemma bytesAt_zero (mem : ℕ → UInt8) (first : ℕ) : bytesAt mem first 0 = [] := rfl

lemma bytesAt_succ (mem : ℕ → UInt8) (first n : ℕ) :
    bytesAt mem first (n + 1) = mem first :: bytesAt mem (first + 1) n := by
  simp [bytesAt, List.range'_succ]

@[simp] lemma length_bytesAt (mem : ℕ → UInt8) (first n : ℕ) : (bytesAt mem first n).length = n := by
  simp [bytesAt]

/-- The masks leave no bit that the shift would push out of an `int`. -/
def Fitting (ms : List (ℕ × ℕ)) : Prop := ∀ m ∈ ms, m.1 * 2 ^ m.2 < 2 ^ 31

lemma fitting_masksShifts : Fitting masksShifts := by
  simp only [Fitting, masksShifts, List.forall_mem_cons]
  norm_num

lemma shiftLeft_mask {mask shift : ℕ} (h : mask * 2 ^ shift < 2 ^ 31) (x : ℕ) :
    shiftLeft (x &&& mask) shift = some ((x &&& mask) <<< shift) :=
  if_pos (lt_of_le_of_lt (Nat.mul_le_mul_right _ Nat.and_le_right) h)

/-- What a run of `Unpack` or of its loop has to be like when the list version leaves `found` of the `n` bytes at
`first`: the same value, and a pointer `back` before the bytes that are left. -/
def Agrees {α : Type} (mem : ℕ → UInt8) (first n back : ℕ) (found : Option (α × List UInt8)) (end_ : Unpacked α) : Prop :=
  match found with
  | none => end_ = .fail
  | some (value, rest) =>
      ∃ k ≤ n, rest = bytesAt mem (first + k) (n - k) ∧ ∃ pSrc, pSrc + back = first + k ∧ end_ = .done value pSrc

lemma unpackLoopAt_spec (mem : ℕ → UInt8) (pInOut : ℕ) {ms : List (ℕ × ℕ)} (hms : Fitting ms) :
    ∀ (pSrc value n : ℕ), Agrees mem (pSrc + 1) n 1 (unpackLoop (mem pSrc) value ms (bytesAt mem (pSrc + 1) n))
        (unpackLoopAt mem pInOut ms pSrc value n).2 ∧
      ∀ a ∈ (unpackLoopAt mem pInOut ms pSrc value n).1, a.Within pSrc (pSrc + 1 + n) (· = pInOut) := by
  induction ms with
  | nil =>
    intro pSrc value n
    rw [unpackLoop, unpackLoopAt]
    exact ⟨⟨0, Nat.zero_le n, rfl, pSrc, rfl, rfl⟩, fun a ha => absurd ha List.not_mem_nil⟩
  | cons m ms ih =>
    obtain ⟨mask, shift⟩ := m
    intro pSrc value n
    have hhere : Access.Within pSrc (pSrc + 1 + n) (· = pInOut) (.read pSrc) := ⟨le_refl _, by omega⟩
    by_cases hlast : (mem pSrc).toNat &&& 0x80 = 0
    · rw [unpackLoop_last hlast, unpackLoopAt, if_pos hlast]
      refine ⟨⟨0, Nat.zero_le n, rfl, pSrc, rfl, rfl⟩, fun a ha => ?_⟩
      rw [List.mem_singleton] at ha
      rwa [ha]
    · cases n with
      | zero =>
        rw [bytesAt_zero, unpackLoop, if_neg hlast, unpackLoopAt, if_neg hlast, if_pos (le_of_eq Nat.cast_zero)]
        refine ⟨rfl, fun a ha => ?_⟩
        rw [List.mem_singleton] at ha
        rwa [ha]
      | succ n =>
        have hshift := shiftLeft_mask (hms (mask, shift) List.mem_cons_self) (mem (pSrc + 1)).toNat
        have hsize : ((n + 1 : ℕ) : ℤ) - 1 = n := by push_cast; omega
        rw [bytesAt_succ, unpackLoop_more hlast, unpackLoopAt, if_neg hlast, if_neg (by push_cast; omega), hshift]
        simp only [hsize]
        obtain ⟨hagrees, hwithin⟩ := ih (fun m hm => hms m (List.mem_cons_of_mem _ hm)) (pSrc + 1)
          (value ||| (((mem (pSrc + 1)).toNat &&& mask) <<< shift)) n
        constructor
        · revert hagrees
          cases unpackLoop (mem (pSrc + 1)) (value ||| (((mem (pSrc + 1)).toNat &&& mask) <<< shift)) ms
              (bytesAt mem (pSrc + 1 + 1) n) with
          | none => exact id
          | some found =>
            rintro ⟨k, hk, hrest, pSrc', hpSrc', hend⟩
            refine ⟨k + 1, by omega, ?_, pSrc', by omega, hend⟩
            rw [hrest]
            congr 1 <;> omega
        · simp only [List.forall_mem_cons]
          exact ⟨hhere, ⟨by omega, by omega⟩, rfl,
            fun a ha => (hwithin a ha).mono (by omega) (by omega) fun _ => id⟩

lemma unpackLoop_length_le {ms : List (ℕ × ℕ)} {src rest : List UInt8} {cur : UInt8} {value found : ℕ}
    (h : unpackLoop cur value ms src = some (found, rest)) : rest.length ≤ src.length := by
  induction ms generalizing cur value src with
  | nil =>
    rw [unpackLoop] at h
    rw [(Prod.mk.inj (Option.some.inj h)).2]
  | cons m ms ih =>
    obtain ⟨mask, shift⟩ := m
    by_cases hlast : cur.toNat &&& 0x80 = 0
    · rw [unpackLoop_last hlast] at h
      rw [(Prod.mk.inj (Option.some.inj h)).2]
    · cases src with
      | nil =>
        rw [unpackLoop, if_neg hlast] at h
        cases h
      | cons b src =>
        rw [unpackLoop_more hlast] at h
        exact Nat.le_succ_of_le (ih h)

/-- `Unpack` takes at least a byte. -/
lemma unpack_shorter {src rest : List UInt8} {i : BitVec 32} (h : unpack src = some (i, rest)) :
    rest.length < src.length := by
  cases src with
  | nil => cases h
  | cons b src =>
    rw [unpack] at h
    cases hloop : unpackLoop b (b.toNat &&& 0x3F) masksShifts src with
    | none =>
      rw [hloop] at h
      cases h
    | some found =>
      rw [hloop] at h
      rw [← (Prod.mk.inj (Option.some.inj h)).2]
      exact Nat.lt_succ_of_le (unpackLoop_length_le hloop)

/-- `Unpack` on the memory: it does what it does on the list of the bytes it may read, and reads no others. -/
lemma unpackAt_spec (mem : ℕ → UInt8) (pSrc pInOut : ℕ) (srcSize : ℤ) :
    Agrees mem pSrc srcSize.toNat 0 (unpack (bytesAt mem pSrc srcSize.toNat)) (unpackAt mem pSrc pInOut srcSize).2 ∧
      ∀ a ∈ (unpackAt mem pSrc pInOut srcSize).1, a.Within pSrc (pSrc + srcSize.toNat) (· = pInOut) := by
  by_cases hempty : srcSize ≤ 0
  · rw [unpackAt, if_pos hempty, Int.toNat_of_nonpos hempty, bytesAt_zero]
    exact ⟨rfl, fun a ha => nomatch ha⟩
  · obtain ⟨n, rfl⟩ : ∃ n : ℕ, srcSize = n + 1 := ⟨(srcSize - 1).toNat, by omega⟩
    have hn : ((n : ℤ) + 1).toNat = n + 1 := by omega
    have hfirst : Access.Within pSrc (pSrc + (n + 1)) (· = pInOut) (.read pSrc) := ⟨le_refl _, by omega⟩
    obtain ⟨hagrees, hwithin⟩ := unpackLoopAt_spec mem pInOut fitting_masksShifts pSrc ((mem pSrc).toNat &&& 0x3F) n
    have hlog : ∀ a ∈ (unpackLoopAt mem pInOut masksShifts pSrc ((mem pSrc).toNat &&& 0x3F) n).1,
        a.Within pSrc (pSrc + (n + 1)) (· = pInOut) :=
      fun a ha => (hwithin a ha).mono (le_refl _) (by omega) fun _ => id
    rw [unpackAt, if_neg hempty, hn, bytesAt_succ, unpack, add_sub_cancel_right]
    revert hagrees
    cases unpackLoop (mem pSrc) ((mem pSrc).toNat &&& 0x3F) masksShifts (bytesAt mem (pSrc + 1) n) with
    | none =>
      intro hend
      change (unpackLoopAt mem pInOut masksShifts pSrc ((mem pSrc).toNat &&& 0x3F) n).2 = .fail at hend
      simp only [hend, List.forall_mem_cons]
      exact ⟨rfl, hfirst, rfl, hlog⟩
    | some found =>
      rintro ⟨k, hk, hrest, pSrc', hpSrc', hend⟩
      simp only [hend]
      refine ⟨⟨k + 1, by omega, ?_, pSrc' + 1, by omega, rfl⟩, ?_⟩
      · rw [hrest]
        congr 1 <;> omega
      · simp only [List.cons_append, List.forall_mem_cons, List.mem_append, List.mem_singleton]
        refine ⟨hfirst, rfl, ?_⟩
        rintro a (ha | rfl)
        · exact hlog a ha
        · rfl

/-- How `Decompress` ends, by what it yields on a list of bytes. -/
def Decompressed.ofOption : Option (List (BitVec 32)) → Decompressed
  | none => fail
  | some ints => done ints

lemma decompressLoopAt_end (mem : ℕ → UInt8) {pSrcEnd : ℤ} (pDstEnd rounds : ℕ) {pSrc : ℕ} (pDst : ℕ)
    (h : ¬ (pSrc : ℤ) < pSrcEnd) : decompressLoopAt mem pSrcEnd pDstEnd rounds pSrc pDst = ([], .done []) := by
  cases rounds <;> simp [decompressLoopAt, h]

lemma decompressLoopAt_succ (mem : ℕ → UInt8) {pSrcEnd : ℤ} (pDstEnd rounds : ℕ) {pSrc : ℕ} (pDst : ℕ)
    (h : (pSrc : ℤ) < pSrcEnd) :
    decompressLoopAt mem pSrcEnd pDstEnd (rounds + 1) pSrc pDst =
      if pDstEnd ≤ pDst then ([], .fail)
      else
        match unpackAt mem pSrc pDst (pSrcEnd - pSrc) with
        | (log, .fail) => (log, .fail)
        | (log, .undefined) => (log, .undefined)
        | (log, .done i pSrc') =>
            (log ++ (decompressLoopAt mem pSrcEnd pDstEnd rounds pSrc' (pDst + 1)).1,
              (decompressLoopAt mem pSrcEnd pDstEnd rounds pSrc' (pDst + 1)).2.cons i) := by
  rw [decompressLoopAt, if_neg (not_not.mpr h)]
  simp only
  split_ifs with hfull
  · rfl
  · obtain ⟨log, end_⟩ := unpackAt mem pSrc pDst (pSrcEnd - pSrc)
    cases end_ <;> rfl

lemma decompressLoopAt_spec (mem : ℕ → UInt8) (pSrcEnd : ℤ) (pDstEnd : ℕ) {rounds : ℕ} :
    ∀ {pSrc pDst : ℕ}, (pSrcEnd - pSrc).toNat ≤ rounds → pDst ≤ pDstEnd →
      (decompressLoopAt mem pSrcEnd pDstEnd rounds pSrc pDst).2 =
          .ofOption (decompressLoop rounds (bytesAt mem pSrc (pSrcEnd - pSrc).toNat) (pDstEnd - pDst)) ∧
        ∀ a ∈ (decompressLoopAt mem pSrcEnd pDstEnd rounds pSrc pDst).1,
          a.Within pSrc pSrcEnd.toNat fun k => pDst ≤ k ∧ k < pDstEnd := by
  induction rounds with
  | zero =>
    intro pSrc pDst hrounds _
    rw [decompressLoopAt_end mem _ _ _ (by omega), Nat.le_zero.mp hrounds, bytesAt_zero]
    exact ⟨rfl, fun a ha => absurd ha List.not_mem_nil⟩
  | succ rounds ih =>
    intro pSrc pDst hrounds hpDst
    by_cases hend : (pSrc : ℤ) < pSrcEnd
    · obtain ⟨n, hn⟩ : ∃ n : ℕ, (pSrcEnd - pSrc).toNat = n + 1 := ⟨(pSrcEnd - pSrc).toNat - 1, by omega⟩
      rw [decompressLoopAt_succ mem _ _ _ hend]
      by_cases hfull : pDstEnd ≤ pDst
      · rw [if_pos hfull, Nat.sub_eq_zero_of_le hfull, hn, bytesAt_succ, decompressLoop]
        exact ⟨rfl, fun a ha => absurd ha List.not_mem_nil⟩
      · obtain ⟨room, hroom⟩ : ∃ room, pDstEnd - pDst = room + 1 := ⟨pDstEnd - pDst - 1, by omega⟩
        obtain ⟨hagrees, hwithin⟩ := unpackAt_spec mem pSrc pDst (pSrcEnd - pSrc)
        rw [if_neg hfull, hroom, hn, bytesAt_succ, decompressLoop, ← bytesAt_succ]
        rw [hn] at hagrees hwithin
        generalize unpackAt mem pSrc pDst (pSrcEnd - pSrc) = run at hagrees hwithin ⊢
        obtain ⟨log, end_⟩ := run
        have hlog : ∀ a ∈ log, a.Within pSrc pSrcEnd.toNat fun k => pDst ≤ k ∧ k < pDstEnd :=
          fun a ha => (hwithin a ha).mono (le_refl _) (by omega) fun k hk => by omega
        cases hunpack : unpack (bytesAt mem pSrc (n + 1)) with
        | none =>
          rw [hunpack] at hagrees
          obtain rfl : end_ = .fail := hagrees
          exact ⟨rfl, hlog⟩
        | some found =>
          obtain ⟨i, rest⟩ := found
          rw [hunpack] at hagrees
          obtain ⟨k, hk, rfl, _, rfl, rfl⟩ := hagrees
          have hshorter := unpack_shorter hunpack
          simp only [length_bytesAt] at hshorter
          obtain ⟨hrun, hrunWithin⟩ := @ih (pSrc + k) (pDst + 1) (by omega) (by omega)
          have hleft : (pSrcEnd - (pSrc + k : ℕ)).toNat = n + 1 - k := by omega
          have hroom' : pDstEnd - (pDst + 1) = room := by omega
          rw [hleft, hroom'] at hrun
          refine ⟨?_, ?_⟩
          · simp only [hrun]
            cases decompressLoop rounds (bytesAt mem (pSrc + k) (n + 1 - k)) room <;> rfl
          · rintro a ha
            rcases List.mem_append.mp ha with ha | ha
            · exact hlog a ha
            · exact (hrunWithin a ha).mono (by omega) (le_refl _) fun j hj => by omega
    · have hzero : (pSrcEnd - pSrc).toNat = 0 := by omega
      rw [decompressLoopAt_end mem _ _ _ hend, hzero, bytesAt_zero]
      exact ⟨rfl, fun a ha => absurd ha List.not_mem_nil⟩

/-- `Decompress` on the memory: it does what it does on the list of the bytes of the source. -/
lemma decompressAt_spec (mem : ℕ → UInt8) (srcSize : ℤ) (room : ℕ) :
    (decompressAt mem srcSize room).2 = .ofOption (decompress (bytesAt mem 0 srcSize.toNat) room) ∧
      ∀ a ∈ (decompressAt mem srcSize room).1, a.Within 0 srcSize.toNat (· < room) := by
  have hsize : (srcSize - (0 : ℕ)).toNat = srcSize.toNat := by simp
  obtain ⟨hrun, hwithin⟩ := @decompressLoopAt_spec mem srcSize room srcSize.toNat 0 0 (by simp) (Nat.zero_le _)
  rw [hsize] at hrun
  refine ⟨?_, fun a ha => (hwithin a ha).mono (le_refl _) (le_refl _) fun k hk => hk.2⟩
  rw [decompress, length_bytesAt]
  exact hrun

/-! ### The codec -/

/-- A destination of negative size has no room, as an empty one. -/
lemma compress_none_iff (src : List (BitVec 32)) (dstSize : ℤ) :
    compress src dstSize = none ↔ max 0 dstSize < (src.map intBytes).sum := by
  rw [← length_packedInts]
  by_cases hneg : dstSize < 0
  · rw [max_eq_left hneg.le]
    cases src with
    | nil => simp [compress, packedInts]
    | cons i src =>
      have hpos := length_le_packedInts (i :: src)
      rw [List.length_cons] at hpos
      rw [compress, pack_of_gt (lt_of_lt_of_le hneg (Nat.cast_nonneg _))]
      simp only [Bool.false_eq_true, if_false, true_iff]
      omega
  · rw [compress_eq src (not_lt.mp hneg), max_eq_right (not_lt.mp hneg)]
    split_ifs with h
    · simp [h]
    · simpa using h

lemma eq_of_compress {src : List (BitVec 32)} {dstSize : ℤ} {out : List UInt8} (h : compress src dstSize = some out) :
    out = packedInts src := by
  induction src generalizing dstSize out with
  | nil => exact (Option.some.inj h).symm
  | cons i src ih =>
    rw [compress] at h
    by_cases hok : (pack i dstSize).2 = true
    · simp only [if_pos hok, Option.map_eq_some_iff] at h
      obtain ⟨rest, hrest, rfl⟩ := h
      have hroom : ¬ dstSize < (packed i).length := fun hgt => by
        rw [pack_of_gt hgt] at hok
        exact Bool.false_ne_true hok
      rw [ih hrest, pack_of_le (not_lt.mp hroom)]
      rfl
    · simp only [if_neg hok] at h
      cases h

lemma length_packedInts_le (src : List (BitVec 32)) : (packedInts src).length ≤ maxBytesPacked * src.length := by
  induction src with
  | nil => exact Nat.zero_le _
  | cons i src ih =>
    have hle := length_packed_le i
    have hall : packedInts (i :: src) = packed i ++ packedInts src := rfl
    rw [hall, List.length_append, List.length_cons]
    rw [maxBytesPacked] at ih ⊢
    omega

/-- **Variable-length integers.**  `Compress` uses at most five bytes for an int, and fails if and only if the
destination is shorter than the ints are when packed.  `Decompress` reads its output back.  Whatever the memory holds
and whatever the size of the source, `Unpack` and `Decompress` read bytes of the source only, write ints of the
destination only and do nothing undefined. -/
theorem codec (src : List (BitVec 32)) (dstSize : ℤ) (mem : ℕ → UInt8) (srcSize : ℤ) (pSrc pInOut room : ℕ) :
    ((∀ out, compress src dstSize = some out → out.length ≤ maxBytesPacked * src.length) ∧
        (compress src dstSize = none ↔ max 0 dstSize < (src.map intBytes).sum)) ∧
      (∀ out, compress src dstSize = some out → bytesAt mem 0 out.length = out → src.length ≤ room →
        (decompressAt mem out.length room).2 = .done src) ∧
      ((unpackAt mem pSrc pInOut srcSize).2 ≠ .undefined ∧
        ∀ a ∈ (unpackAt mem pSrc pInOut srcSize).1, a.Within pSrc (pSrc + srcSize.toNat) (· = pInOut)) ∧
      (decompressAt mem srcSize room).2 ≠ .undefined ∧ (decompressAt mem srcSize room).2 ≠ .endless ∧
        ∀ a ∈ (decompressAt mem srcSize room).1, a.Within 0 srcSize.toNat (· < room) := by
  obtain ⟨hunpack, hunpackWithin⟩ := unpackAt_spec mem pSrc pInOut srcSize
  obtain ⟨hrun, hrunWithin⟩ := decompressAt_spec mem srcSize room
  refine ⟨⟨fun out hout => ?_, compress_none_iff src dstSize⟩, fun out hout hmem hroom => ?_,
    ⟨?_, hunpackWithin⟩, ?_, ?_, hrunWithin⟩
  · rw [eq_of_compress hout]
    exact length_packedInts_le src
  · rw [(decompressAt_spec mem out.length room).1, Int.toNat_natCast, hmem, eq_of_compress hout,
      decompress_packedInts hroom]
    rfl
  · revert hunpack
    cases unpack (bytesAt mem pSrc srcSize.toNat) with
    | none =>
      intro hend
      rw [show (unpackAt mem pSrc pInOut srcSize).2 = .fail from hend]
      exact nofun
    | some found =>
      rintro ⟨_, _, _, _, _, hend⟩
      rw [hend]
      exact nofun
  · rw [hrun]
    cases decompress (bytesAt mem 0 srcSize.toNat) room <;> exact nofun
  · rw [hrun]
    cases decompress (bytesAt mem 0 srcSize.toNat) room <;> exact nofun

/-- Two ints in three bytes, of which a `Decompress` that is told of one only fails in time. -/
theorem codec_twoInts :
    (decompressAt (fun k => [0x9f, 0x0f, 0x40].getD k 0) 3 2).2 = .done [991, -1] ∧
      ∀ a ∈ (decompressAt (fun k => [0x9f, 0x0f, 0x40].getD k 0) 1 2).1, a.Within 0 1 (· < 2) := by
  have hout : compress [991, -1] 3 = some [0x9f, 0x0f, 0x40] := by decide
  exact ⟨(codec [991, -1] 3 (fun k => [0x9f, 0x0f, 0x40].getD k 0) 3 0 0 2).2.1 _ hout (by decide) (by decide),
    (codec [991, -1] 3 (fun k => [0x9f, 0x0f, 0x40].getD k 0) 1 0 0 2).2.2.2.2.2⟩

end CVariableInt

end DDNet
