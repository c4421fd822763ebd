/-
Buffers in memory: writing to a position, moving bytes inside of a buffer, and the C string in a buffer.
-/
import Mathlib.Data.List.TakeDrop
import Mathlib.Data.List.TakeWhile
import Mathlib.Tactic.Linarith

namespace DDNet

/-- Write some bytes to a position of a buffer; `none` if they are not all inside it. -/
def writeBytes (buffer : List UInt8) (pos : ℕ) (bytes : List UInt8) : Option (List UInt8) :=
  if pos + bytes.length ≤ buffer.length then
    some (buffer.take pos ++ (bytes ++ buffer.drop (pos + bytes.length)))
  else none

/-- `mem_move` inside of a buffer, of `size` bytes from `src` to `dst`; `none` if they are not all inside it. -/
def moveBytes (buffer : List UInt8) (dst src size : ℕ) : Option (List UInt8) :=
  if src + size ≤ buffer.length then writeBytes buffer dst ((buffer.drop src).take size) else none

/-- The C string at the start of a buffer. -/
def cstrOf (buffer : List UInt8) : List UInt8 := buffer.takeWhile (· ≠ 0)

variable {written tail bytes : List UInt8}

lemma writeBytes_append (hle : bytes.length ≤ tail.length) :
    writeBytes (written ++ tail) written.length bytes = some (written ++ (bytes ++ tail.drop bytes.length)) := by
  rw [writeBytes, if_pos (by rw [List.length_append]; omega), List.take_left', List.drop_append]
  · simp
  · rfl

/-- Bytes of a buffer are replaced by as many bytes. -/
lemma writeBytes_replace {old : List UInt8} (hlength : bytes.length = old.length) :
    writeBytes (written ++ (old ++ tail)) written.length bytes = some (written ++ (bytes ++ tail)) := by
  rw [writeBytes_append (by rw [List.length_append]; omega), hlength, List.drop_left]

lemma writeBytes_zero (w : List UInt8) (last : UInt8) (tail : List UInt8) :
    writeBytes (w ++ last :: tail) w.length [0] = some (w ++ 0 :: tail) :=
  @writeBytes_replace w tail [0] [last] rfl

lemma length_writeBytes {buffer buffer' : List UInt8} {pos : ℕ} (h : writeBytes buffer pos bytes = some buffer') :
    buffer'.length = buffer.length := by
  rw [writeBytes] at h
  split_ifs at h with hle
  obtain rfl := Option.some.inj h
  rw [List.length_append, List.length_append, List.length_take, List.length_drop]
  omega

lemma cstrOf_append {s t : List UInt8} (h : 0 ∉ s) : cstrOf (s ++ 0 :: t) = s := by
  have hne : ∀ c ∈ s, decide (c ≠ 0) = true := fun c hc => decide_eq_true (ne_of_mem_of_not_mem hc h)
  rw [cstrOf, List.takeWhile_append_of_pos hne, List.takeWhile_cons_of_neg (by decide), List.append_nil]

end DDNet
