/-
C strings of `base/system.cpp`: whitespace, prefixes, escapes and numbers.
-/
import DDNet.Base.Str

namespace DDNet

/-- `"` -/
def quote : UInt8 := 34

/-- `\` -/
def backslash : UInt8 := 92

/-- A blank. -/
def space : UInt8 := 32

/-- `;` -/
def semicolon : UInt8 := 59

/-- `#` -/
def hash : UInt8 := 35

/-- `str_isspace`. -/
def strIsSpace (c : UInt8) : Bool := c == space || c == 10 || c == 13 || c == 9

/-- `str_skip_whitespaces`. -/
def strSkipWhitespaces (str : List UInt8) : List UInt8 := str.dropWhile strIsSpace

/-- `str_skip_to_whitespace`. -/
def strSkipToWhitespace (str : List UInt8) : List UInt8 := str.dropWhile fun c => !strIsSpace c

/-- The characters that `str_skip_to_whitespace` skips. -/
def strToken (str : List UInt8) : List UInt8 := str.takeWhile fun c => !strIsSpace c

/-- `str_startswith`: what follows the prefix. -/
def strStartswith (str pre : List UInt8) : Option (List UInt8) :=
  if pre <+: str then some (str.drop pre.length) else none

/-! ### Escapes -/

/-- The character with the backslash that `str_escape` puts before it. -/
def escapeChar (c : UInt8) : List UInt8 := if c = quote ∨ c = backslash then [backslash, c] else [c]

/-- The text with a backslash before every double quote and every backslash. -/
def escape (src : List UInt8) : List UInt8 := src.flatMap escapeChar

/-- `str_escape` into a buffer of `size` bytes. -/
def strEscape (size : ℕ) : List UInt8 → List UInt8
  | [] => []
  | c :: src =>
    if 1 < size then
      if c = quote ∨ c = backslash then
        if 2 < size then backslash :: c :: strEscape (size - 2) src else []
      else
        c :: strEscape (size - 1) src
    else
      []

/-- A text that fits the buffer is escaped as a whole. -/
lemma strEscape_of_length {src : List UInt8} {size : ℕ} (h : (escape src).length < size) :
    strEscape size src = escape src := by
  induction src generalizing size with
  | nil => rfl
  | cons c src ih =>
    rw [escape, List.flatMap_cons, ← escape, List.length_append] at h
    rw [strEscape, escape, List.flatMap_cons, ← escape]
    by_cases hc : c = quote ∨ c = backslash
    · rw [escapeChar, if_pos hc] at h ⊢
      have hlen : 2 + (escape src).length < size := h
      rw [if_pos (by omega), if_pos hc, if_pos (by omega), ih (by omega)]
      rfl
    · rw [escapeChar, if_neg hc] at h ⊢
      have hlen : 1 + (escape src).length < size := h
      rw [if_pos (by omega), if_neg hc, ih (by omega)]
      rfl

/-! ### Numbers -/

/-- The value of the digits that the text starts with, and what follows them. -/
def digits : ℤ → List UInt8 → ℤ × List UInt8
  | value, [] => (value, [])
  | value, c :: rest =>
    if 48 ≤ c ∧ c ≤ 57 then digits (10 * value + ((c.toNat : ℤ) - 48)) rest else (value, c :: rest)

/-- What `strtol` skips. -/
def cIsSpace (c : UInt8) : Bool := strIsSpace c || c == 11 || c == 12

/-- `strtol` with the base 10, and where it stops; the bounds are those of a `long` of 64 bits. -/
def strtol (str : List UInt8) : ℤ × List UInt8 :=
  let text := str.dropWhile cIsSpace
  let negative := text.head? == some 45
  let number := if negative ∨ text.head? = some 43 then text.tail else text
  if number.head?.any fun c => 48 ≤ c && c ≤ 57 then
    let (value, rest) := digits 0 number
    (max (-2 ^ 63) (min (2 ^ 63 - 1) (if negative then -value else value)), rest)
  else
    (0, str)

/-- The conversion of a `long` to an `int`. -/
def toInt32 (value : ℤ) : ℤ := (value + 2 ^ 31) % 2 ^ 32 - 2 ^ 31

/-- `str_toint` with one argument. -/
def strToint (str : List UInt8) : ℤ := toInt32 (strtol str).1

/-- `str_toint` with two arguments: the number that is the whole text. -/
def strTointWhole (str : List UInt8) : Option ℤ :=
  if (strtol str).2 = [] then some (strToint str) else none

end DDNet
