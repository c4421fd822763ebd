/-
Words of 32 bits in a sequence of bytes, with the lowest byte first, and tables of them.

A word is read at a position (`wordAt`), which fails if the sequence ends before.  What was stored is read back:
a single word (`wordAt_append`), and every word of a table (`wordAt_table`).
-/
import Mathlib.Data.BitVec
import Mathlib.Data.List.Basic
import Mathlib.Data.List.TakeDrop
import Mathlib.Tactic.Ring

namespace DDNet.Lib

/-! ### Bytes of a word -/

/-- The bytes of a word, the lowest one first. -/
def wordBytes (w : BitVec 32) : List UInt8 :=
  [UInt8.ofNat w.toNat, UInt8.ofNat (w.toNat / 2 ^ 8), UInt8.ofNat (w.toNat / 2 ^ 16), UInt8.ofNat (w.toNat / 2 ^ 24)]

/-- The word of four bytes, the lowest one first. -/
def wordOfBytes (b₀ b₁ b₂ b₃ : UInt8) : BitVec 32 :=
  BitVec.ofNat 32 (b₀.toNat + b₁.toNat * 2 ^ 8 + b₂.toNat * 2 ^ 16 + b₃.toNat * 2 ^ 24)

lemma length_wordBytes (w : BitVec 32) : (wordBytes w).length = 4 := rfl

lemma wordOfBytes_wordBytes (w : BitVec 32) :
    wordOfBytes (UInt8.ofNat w.toNat) (UInt8.ofNat (w.toNat / 2 ^ 8)) (UInt8.ofNat (w.toNat / 2 ^ 16))
      (UInt8.ofNat (w.toNat / 2 ^ 24)) = w := by
  have hlt := w.isLt
  refine BitVec.eq_of_toNat_eq ?_
  rw [wordOfBytes, BitVec.toNat_ofNat]
  simp only [UInt8.toNat_ofNat']
  omega

/-- The bytes of the word of four bytes. -/
lemma wordBytes_wordOfBytes (b₀ b₁ b₂ b₃ : UInt8) : wordBytes (wordOfBytes b₀ b₁ b₂ b₃) = [b₀, b₁, b₂, b₃] := by
  have h₀ := b₀.toNat_lt
  have h₁ := b₁.toNat_lt
  have h₂ := b₂.toNat_lt
  have h₃ := b₃.toNat_lt
  have hword : (wordOfBytes b₀ b₁ b₂ b₃).toNat =
      b₀.toNat + b₁.toNat * 2 ^ 8 + b₂.toNat * 2 ^ 16 + b₃.toNat * 2 ^ 24 := by
    rw [wordOfBytes, BitVec.toNat_ofNat]
    omega
  rw [wordBytes, hword]
  simp only [List.cons.injEq, and_true]
  refine ⟨?_, ?_, ?_, ?_⟩ <;>
  · refine UInt8.toNat_inj.1 ?_
    rw [UInt8.toNat_ofNat']
    omega

/-! ### Words at a position -/

/-- The word in front. -/
def readWord : List UInt8 → Option (BitVec 32)
  | b₀ :: b₁ :: b₂ :: b₃ :: _ => some (wordOfBytes b₀ b₁ b₂ b₃)
  | _ => none

/-- The word at a position. -/
def wordAt (bytes : List UInt8) (pos : ℕ) : Option (BitVec 32) := readWord (bytes.drop pos)

lemma readWord_append (w : BitVec 32) (rest : List UInt8) : readWord (wordBytes w ++ rest) = some w :=
  congrArg some (wordOfBytes_wordBytes w)

lemma readWord_isSome (bytes : List UInt8) : (readWord bytes).isSome = true ↔ 4 ≤ bytes.length := by
  rcases bytes with _ | ⟨b₀, _ | ⟨b₁, _ | ⟨b₂, _ | ⟨b₃, rest⟩⟩⟩⟩ <;> simp [readWord]

lemma wordAt_isSome (bytes : List UInt8) (pos : ℕ) : (wordAt bytes pos).isSome = true ↔ pos + 4 ≤ bytes.length := by
  rw [wordAt, readWord_isSome, List.length_drop]
  omega

lemma exists_wordAt {bytes : List UInt8} {pos : ℕ} (h : pos + 4 ≤ bytes.length) : ∃ w, wordAt bytes pos = some w :=
  Option.isSome_iff_exists.1 ((wordAt_isSome bytes pos).2 h)

lemma le_of_wordAt {bytes : List UInt8} {pos : ℕ} {w : BitVec 32} (h : wordAt bytes pos = some w) :
    pos + 4 ≤ bytes.length :=
  (wordAt_isSome bytes pos).1 (by rw [h]; rfl)

/-- A word behind other bytes. -/
lemma wordAt_append (bytes : List UInt8) (w : BitVec 32) (rest : List UInt8) :
    wordAt (bytes ++ (wordBytes w ++ rest)) bytes.length = some w := by
  rw [wordAt, List.drop_left]
  exact readWord_append w rest

/-- Other bytes in front move a word. -/
lemma wordAt_append_right (bytes rest : List UInt8) (pos : ℕ) :
    wordAt (bytes ++ rest) (bytes.length + pos) = wordAt rest pos := by
  rw [wordAt, wordAt, ← List.drop_drop, List.drop_left]

/-! ### Tables -/

/-- The bytes of a table. -/
def tableBytes (ws : List (BitVec 32)) : List UInt8 := ws.flatMap wordBytes

@[simp] lemma tableBytes_nil : tableBytes [] = [] := rfl

@[simp] lemma tableBytes_cons (w : BitVec 32) (ws : List (BitVec 32)) :
    tableBytes (w :: ws) = wordBytes w ++ tableBytes ws := rfl

lemma tableBytes_append (ws ws' : List (BitVec 32)) : tableBytes (ws ++ ws') = tableBytes ws ++ tableBytes ws' :=
  List.flatMap_append

lemma length_tableBytes (ws : List (BitVec 32)) : (tableBytes ws).length = 4 * ws.length := by
  induction ws with
  | nil => rfl
  | cons w ws ih =>
    rw [tableBytes_cons, List.length_append, length_wordBytes, ih, List.length_cons]
    ring

/-- Every word of a table is read back. -/
lemma wordAt_table (ws : List (BitVec 32)) (rest : List UInt8) {i : ℕ} (h : i < ws.length) :
    wordAt (tableBytes ws ++ rest) (4 * i) = some ws[i] := by
  induction ws generalizing i with
  | nil => exact absurd h (Nat.not_lt_zero _)
  | cons w ws ih =>
    rw [tableBytes_cons, List.append_assoc]
    cases i with
    | zero => exact readWord_append w _
    | succ i =>
      have hmove : 4 * (i + 1) = (wordBytes w).length + 4 * i := by
        rw [length_wordBytes]
        ring
      rw [hmove, wordAt_append_right, ih (Nat.lt_of_succ_lt_succ h)]
      rfl

end DDNet.Lib
