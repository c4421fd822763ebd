/-
The edit distance of texts (`str_utf32_dist_buffer` and `str_utf8_dist_buffer`, `base/system.cpp`).

The table of the distances of the parts in front of both texts is computed row by row.  Only two rows are kept, one for
the even and one for the odd positions of the longer text, at the start of a buffer that is given; behind the decoded
texts if those are in the same buffer (`strUtf8DistBuffer_spec`).
-/
import DDNet.Base.Utf8
import DDNet.Lib.EditDistance

namespace DDNet

open Lib Utf8

/-- `min3`. -/
def min3 (a b c : ℤ) : ℤ :=
  let min := a
  let min := if b < min then b else min
  if c < min then c else min

/-- The arguments of `str_utf32_dist_buffer`: where the texts and the buffer are in memory, and their lengths. -/
structure DistArgs where
  a : ℕ
  aLen : ℕ
  b : ℕ
  bLen : ℕ
  buf : ℕ
  bufLen : ℕ

namespace DistArgs

variable (s : DistArgs)

/-- The index of `B(i, j)` in the buffer. -/
def cell (i j : ℕ) : ℕ := j % 2 * (s.aLen + 1) + i

/-- Read `B(i, j)`; `none` if it is not in the buffer. -/
def read (mem : List ℤ) (i j : ℕ) : Option ℤ := if s.cell i j < s.bufLen then mem[s.buf + s.cell i j]? else none

/-- Write `B(i, j)`; `none` if it is not in the buffer. -/
def write (mem : List ℤ) (i j : ℕ) (value : ℤ) : Option (List ℤ) :=
  if s.cell i j < s.bufLen ∧ s.buf + s.cell i j < mem.length then some (mem.set (s.buf + s.cell i j) value) else none

/-- The loop over the first row, from `i` on. -/
def firstRow : ℕ → ℕ → List ℤ → Option (List ℤ)
  | 0, _, mem => some mem
  | more + 1, i, mem => (s.write mem i 0 i).bind (firstRow more (i + 1))

/-- The loop over the row of `j`, from `i` on. -/
def row (j : ℕ) : ℕ → ℕ → List ℤ → Option (List ℤ)
  | 0, _, mem => some mem
  | more + 1, i, mem =>
    (mem[s.a + (i - 1)]?).bind fun x => (mem[s.b + (j - 1)]?).bind fun y =>
    (s.read mem (i - 1) j).bind fun left => (s.read mem i (j - 1)).bind fun up =>
    (s.read mem (i - 1) (j - 1)).bind fun diagonal =>
      let subst := if x ≠ y then 1 else 0
      (s.write mem i j (min3 (left + 1) (up + 1) (diagonal + subst))).bind (row j more (i + 1))

/-- The loop over the rows, from the one of `j` on. -/
def rows : ℕ → ℕ → List ℤ → Option (List ℤ)
  | 0, _, mem => some mem
  | more + 1, j, mem => (s.write mem 0 j j).bind fun mem => (s.row j s.aLen 1 mem).bind (rows more (j + 1))

/-- The shorter text is made the first one. -/
def swap : DistArgs := if s.aLen > s.bLen then { s with a := s.b, aLen := s.bLen, b := s.a, bLen := s.aLen } else s

end DistArgs

/-- `str_utf32_dist_buffer`: the distance and the memory; `none` if the assertion fails, or if an access is not in the
buffer or in memory. -/
def strUtf32DistBuffer (s : DistArgs) (mem : List ℤ) : Option (ℤ × List ℤ) :=
  if s.bufLen ≥ (s.aLen + 1) + (s.bLen + 1) then
    let s := s.swap
    (s.firstRow (s.aLen + 1) 0 mem).bind fun mem => (s.rows s.bLen 1 mem).bind fun mem =>
      (s.read mem s.aLen s.bLen).map fun distance => (distance, mem)
  else none

/-- `str_to_utf32_unchecked`: the length, and the memory with the code points and a zero from `out` on. -/
def strToUtf32Unchecked (str : List UInt8) (out : ℕ) (mem : List ℤ) : Option (ℕ × List ℤ) :=
  match str with
  | [] => if out < mem.length then some (0, mem.set out 0) else none
  | b :: str =>
    let decoded := strUtf8Decode (b :: str)
    if out < mem.length then
      let mem := mem.set out decoded.1
      if decoded.1 = 0 then some (0, mem)
      else (strToUtf32Unchecked decoded.2 (out + 1) mem).map fun (outLen, mem) => (outLen + 1, mem)
    else none
termination_by str.length
decreasing_by exact strUtf8Decode_length b str

/-- `str_utf8_dist_buffer` with a buffer: the distance and the buffer; `none` if an assertion fails, or if an access is
not in the buffer. -/
def strUtf8DistBuffer (aUtf8 bUtf8 : List UInt8) (buf : List ℤ) : Option (ℤ × List ℤ) :=
  if buf.length ≥ 2 * (aUtf8.length + 1 + bUtf8.length + 1) then
    let (aUtf8, bUtf8) := if aUtf8.length > bUtf8.length then (bUtf8, aUtf8) else (aUtf8, bUtf8)
    (strToUtf32Unchecked aUtf8 0 buf).bind fun (aLen, mem) =>
    (strToUtf32Unchecked bUtf8 aLen mem).bind fun (bLen, mem) =>
      strUtf32DistBuffer
        { a := 0, aLen := aLen, b := aLen, bLen := bLen, buf := aLen + bLen, bufLen := buf.length - bLen - aLen } mem
  else none

/-- The code points of a string, -1 for what is no valid sequence. -/
def codePoints (str : List UInt8) : List ℤ :=
  match str with
  | [] => []
  | b :: str =>
    let decoded := strUtf8Decode (b :: str)
    if decoded.1 = 0 then [] else decoded.1 :: codePoints decoded.2
termination_by str.length
decreasing_by exact strUtf8Decode_length b str

/-! ### Reading and writing the rows -/

namespace DistArgs

variable {s : DistArgs} {mem mem' : List ℤ} {i j k : ℕ} {value : ℤ} {a b : List ℤ}

/-- The memory from a position on holds some numbers. -/
def Holds (mem : List ℤ) (pos : ℕ) (xs : List ℤ) : Prop := ∀ i < xs.length, mem[pos + i]? = xs[i]?

/-- The memory is the same but for the buffer. -/
structure Frame (s : DistArgs) (mem mem' : List ℤ) : Prop where
  length : mem'.length = mem.length
  outside : ∀ pos, pos < s.buf ∨ s.buf + s.bufLen ≤ pos → mem'[pos]? = mem[pos]?

lemma Frame.refl (s : DistArgs) (mem : List ℤ) : s.Frame mem mem := ⟨rfl, fun _ _ => rfl⟩

lemma Frame.trans {mem'' : List ℤ} (h : s.Frame mem mem') (h' : s.Frame mem' mem'') : s.Frame mem mem'' :=
  ⟨h'.length.trans h.length, fun pos hpos => (h'.outside pos hpos).trans (h.outside pos hpos)⟩

/-- Numbers outside of the buffer are still there. -/
lemma Frame.holds {pos : ℕ} {xs : List ℤ} (h : s.Frame mem mem')
    (hout : pos + xs.length ≤ s.buf ∨ s.buf + s.bufLen ≤ pos) (hxs : Holds mem pos xs) : Holds mem' pos xs := by
  intro i hi
  rw [h.outside (pos + i) (by omega)]
  exact hxs i hi

lemma write_spec (hcell : s.cell i j < s.bufLen) (hmem : s.buf + s.bufLen ≤ mem.length) (value : ℤ) :
    ∃ mem', s.write mem i j value = some mem' ∧ s.Frame mem mem' ∧ s.read mem' i j = some value ∧
      ∀ i' j', s.cell i' j' ≠ s.cell i j → s.read mem' i' j' = s.read mem i' j' := by
  refine ⟨mem.set (s.buf + s.cell i j) value, ?_, ?_, ?_, ?_⟩
  · rw [write, if_pos ⟨hcell, by omega⟩]
  · refine ⟨List.length_set, fun pos hpos => ?_⟩
    rw [List.getElem?_set_ne (by omega)]
  · rw [read, if_pos hcell, List.getElem?_set_self (by omega)]
  · intro i' j' hne
    rw [read, read, List.getElem?_set_ne (by omega)]

/-- Cells of one row are different, and so are those of rows one after the other. -/
lemma cell_ne_of_lt {i' : ℕ} (j : ℕ) (h : i' < i) : s.cell i' j ≠ s.cell i j := by
  rw [cell, cell]
  omega

lemma cell_ne_row {i' : ℕ} (hi' : i' ≤ s.aLen) (hi : i ≤ s.aLen) (j : ℕ) : s.cell i' j ≠ s.cell i (j + 1) := by
  rw [cell, cell]
  rcases Nat.mod_two_eq_zero_or_one j with h | h
  · rw [h, show (j + 1) % 2 = 1 by omega]
    omega
  · rw [h, show (j + 1) % 2 = 0 by omega]
    omega

lemma cell_lt (hbuf : 2 * (s.aLen + 1) ≤ s.bufLen) (hi : i ≤ s.aLen) (j : ℕ) : s.cell i j < s.bufLen := by
  rw [cell]
  rcases Nat.mod_two_eq_zero_or_one j with h | h
  · rw [h]
    omega
  · rw [h]
    omega

/-! ### The table -/

/-- What the table is to hold: the distance of the parts in front of both texts. -/
def prefixDistance (a b : List ℤ) (i j : ℕ) : ℤ := editDistance (a.take i).reverse (b.take j).reverse

lemma prefixDistance_zero_left (a : List ℤ) (hj : j ≤ b.length) : prefixDistance a b 0 j = j := by
  rw [prefixDistance, List.take_zero, List.reverse_nil, editDistance_nil_left, List.length_reverse, List.length_take,
    Nat.min_eq_left hj]

lemma prefixDistance_zero_right (b : List ℤ) (hi : i ≤ a.length) : prefixDistance a b i 0 = i := by
  rw [prefixDistance, List.take_zero, List.reverse_nil, editDistance_nil_right, List.length_reverse, List.length_take,
    Nat.min_eq_left hi]

lemma prefixDistance_length (a b : List ℤ) : prefixDistance a b a.length b.length = editDistance a b := by
  rw [prefixDistance, List.take_length, List.take_length, editDistance_reverse]

lemma min3_natCast (x y z : ℕ) : min3 x y z = ((min x (min y z) : ℕ) : ℤ) := by
  simp only [min3]
  split_ifs <;> omega

/-- A cell of the table from the three cells before it. -/
lemma prefixDistance_succ (hi : i < a.length) (hj : j < b.length) :
    prefixDistance a b (i + 1) (j + 1) =
      min3 (prefixDistance a b i (j + 1) + 1) (prefixDistance a b (i + 1) j + 1)
        (prefixDistance a b i j + if a[i] ≠ b[j] then 1 else 0) := by
  have htake : ∀ {xs : List ℤ} {n : ℕ} (hn : n < xs.length),
      (xs.take (n + 1)).reverse = xs[n] :: (xs.take n).reverse := by
    intro xs n hn
    rw [← List.take_concat_get' xs n hn, List.reverse_append, List.reverse_singleton, List.singleton_append]
  simp only [prefixDistance, htake hi, htake hj]
  rw [editDistance_cons, ite_not]
  split_ifs
  · exact (min3_natCast _ _ _).symm
  · exact (min3_natCast _ _ _).symm

/-- The texts and the buffer are in memory, and the buffer is apart from the texts. -/
structure Placed (s : DistArgs) (mem a b : List ℤ) : Prop where
  aLen : s.aLen = a.length
  bLen : s.bLen = b.length
  inside : s.buf + s.bufLen ≤ mem.length
  holdsA : Holds mem s.a a
  holdsB : Holds mem s.b b
  apartA : s.a + a.length ≤ s.buf ∨ s.buf + s.bufLen ≤ s.a
  apartB : s.b + b.length ≤ s.buf ∨ s.buf + s.bufLen ≤ s.b

/-- The buffer is large enough for two rows. -/
structure Setup (s : DistArgs) (mem a b : List ℤ) : Prop extends Placed s mem a b where
  room : 2 * (s.aLen + 1) ≤ s.bufLen

lemma Setup.frame (h : s.Setup mem a b) (hframe : s.Frame mem mem') : s.Setup mem' a b where
  aLen := h.aLen
  bLen := h.bLen
  inside := hframe.length ▸ h.inside
  holdsA := hframe.holds h.apartA h.holdsA
  holdsB := hframe.holds h.apartB h.holdsB
  apartA := h.apartA
  apartB := h.apartB
  room := h.room

/-- A cell is written, and the cells of its row before it and those of the row before are as they were. -/
lemma Setup.write (h : s.Setup mem a b) (hi : i ≤ s.aLen) (j : ℕ) (value : ℤ) :
    ∃ mem', s.write mem i j value = some mem' ∧ s.Frame mem mem' ∧ s.read mem' i j = some value ∧
      (∀ k < i, s.read mem' k j = s.read mem k j) ∧
      ∀ j', j = j' + 1 → ∀ k ≤ s.aLen, s.read mem' k j' = s.read mem k j' := by
  obtain ⟨mem', hwrite, hframe, hread, hother⟩ := write_spec (cell_lt h.room hi j) h.inside value
  refine ⟨mem', hwrite, hframe, hread, fun k hk => hother k j (cell_ne_of_lt j hk), ?_⟩
  rintro j' rfl k hk
  exact hother k j' (cell_ne_row hk hi j')

lemma firstRow_spec (h : s.Setup mem a b) {more : ℕ} (hmore : i + more = s.aLen + 1)
    (hdone : ∀ k < i, s.read mem k 0 = some (k : ℤ)) :
    ∃ mem', s.firstRow more i mem = some mem' ∧ s.Frame mem mem' ∧ ∀ k ≤ s.aLen, s.read mem' k 0 = some (k : ℤ) := by
  induction more generalizing i mem with
  | zero => exact ⟨mem, rfl, .refl s mem, fun k hk => hdone k (by omega)⟩
  | succ more ih =>
    obtain ⟨mem₁, hwrite, hframe, hread, hbefore, -⟩ := h.write (i := i) (by omega) 0 i
    obtain ⟨mem₂, hrest, hframe', hall⟩ := ih (h.frame hframe) (i := i + 1) (by omega) fun k hk => by
      rcases Nat.lt_succ_iff_lt_or_eq.1 hk with hlt | rfl
      · rw [hbefore k hlt]
        exact hdone k hlt
      · exact hread
    exact ⟨mem₂, by rw [firstRow, hwrite, Option.bind_some, hrest], hframe.trans hframe', hall⟩

lemma row_spec (h : s.Setup mem a b) (hj : j < b.length) {more : ℕ} (hi : 1 ≤ i) (hmore : i + more = s.aLen + 1)
    (hprev : ∀ k ≤ s.aLen, s.read mem k j = some (prefixDistance a b k j))
    (hdone : ∀ k < i, s.read mem k (j + 1) = some (prefixDistance a b k (j + 1))) :
    ∃ mem', s.row (j + 1) more i mem = some mem' ∧ s.Frame mem mem' ∧
      ∀ k ≤ s.aLen, s.read mem' k (j + 1) = some (prefixDistance a b k (j + 1)) := by
  induction more generalizing i mem with
  | zero => exact ⟨mem, rfl, .refl s mem, fun k hk => hdone k (by omega)⟩
  | succ more ih =>
    obtain ⟨i, rfl⟩ := Nat.exists_eq_add_of_le' hi
    have hia : i < a.length := by
      rw [← h.aLen]
      omega
    have hx : mem[s.a + (i + 1 - 1)]? = some a[i] := (h.holdsA i hia).trans (List.getElem?_eq_getElem hia)
    have hy : mem[s.b + (j + 1 - 1)]? = some b[j] := (h.holdsB j hj).trans (List.getElem?_eq_getElem hj)
    obtain ⟨mem₁, hwrite, hframe, hread, hbefore, hrow⟩ :=
      h.write (i := i + 1) (by omega) (j + 1) (prefixDistance a b (i + 1) (j + 1))
    obtain ⟨mem₂, hrest, hframe', hall⟩ := ih (h.frame hframe) (i := i + 1 + 1) (by omega) (by omega)
      (fun k hk => (hrow j rfl k hk).trans (hprev k hk)) fun k hk => by
        rcases Nat.lt_succ_iff_lt_or_eq.1 hk with hlt | rfl
        · rw [hbefore k hlt]
          exact hdone k hlt
        · exact hread
    refine ⟨mem₂, ?_, hframe.trans hframe', hall⟩
    rw [row, hx, Option.bind_some, hy, Option.bind_some, Nat.add_sub_cancel, Nat.add_sub_cancel,
      hdone i (Nat.lt_succ_self i), Option.bind_some, hprev (i + 1) (by omega), Option.bind_some, hprev i (by omega),
      Option.bind_some]
    dsimp only
    rw [← prefixDistance_succ hia hj, hwrite, Option.bind_some, hrest]

lemma rows_spec (h : s.Setup mem a b) {more : ℕ} (hmore : j + more = s.bLen)
    (hdone : ∀ k ≤ s.aLen, s.read mem k j = some (prefixDistance a b k j)) :
    ∃ mem', s.rows more (j + 1) mem = some mem' ∧ s.Frame mem mem' ∧
      ∀ k ≤ s.aLen, s.read mem' k s.bLen = some (prefixDistance a b k s.bLen) := by
  induction more generalizing j mem with
  | zero =>
    obtain rfl : j = s.bLen := hmore
    exact ⟨mem, rfl, .refl s mem, hdone⟩
  | succ more ih =>
    have hj : j < b.length := by
      rw [← h.bLen]
      omega
    obtain ⟨mem₁, hwrite, hframe, hread, -, hrow⟩ := h.write (Nat.zero_le _) (j + 1) (j + 1 : ℕ)
    obtain ⟨mem₂, hrest, hframe', hall⟩ := row_spec (h.frame hframe) hj le_rfl (Nat.add_comm 1 _)
      (fun k hk => (hrow j rfl k hk).trans (hdone k hk)) fun k hk => by
        obtain rfl : k = 0 := by omega
        rw [hread, prefixDistance_zero_left a hj]
    obtain ⟨mem₃, hrows, hframe'', hlast⟩ := ih ((h.frame hframe).frame hframe') (j := j + 1) (by omega) hall
    exact ⟨mem₃, by rw [rows, hwrite, Option.bind_some, hrest, Option.bind_some, hrows],
      (hframe.trans hframe').trans hframe'', hlast⟩

/-- The table for texts of which the first one is not longer. -/
lemma table_spec (h : s.Setup mem a b) :
    ∃ mem', ((s.firstRow (s.aLen + 1) 0 mem).bind fun mem => (s.rows s.bLen 1 mem).bind fun mem =>
        (s.read mem s.aLen s.bLen).map fun distance => (distance, mem)) = some ((editDistance a b : ℤ), mem') ∧
      s.Frame mem mem' := by
  obtain ⟨mem₁, hfirst, hframe, hrow⟩ := firstRow_spec h (Nat.zero_add _) fun k hk => absurd hk (Nat.not_lt_zero k)
  obtain ⟨mem₂, hrows, hframe', hlast⟩ := rows_spec (h.frame hframe) (j := 0) (Nat.zero_add _) fun k hk => by
    rw [hrow k hk, prefixDistance_zero_right b (h.aLen ▸ hk)]
  have hread := hlast s.aLen le_rfl
  rw [h.aLen, h.bLen, prefixDistance_length, ← h.aLen, ← h.bLen] at hread
  exact ⟨mem₂, by rw [hfirst, Option.bind_some, hrows, Option.bind_some, hread, Option.map_some], hframe.trans hframe'⟩

end DistArgs

/-- The distance of two texts, in a buffer of the size that is asserted. -/
theorem strUtf32DistBuffer_spec {s : DistArgs} {mem a b : List ℤ} (h : s.Placed mem a b)
    (hbuf : (a.length + 1) + (b.length + 1) ≤ s.bufLen) :
    ∃ mem', strUtf32DistBuffer s mem = some ((editDistance a b : ℤ), mem') ∧ s.Frame mem mem' := by
  have hassert : s.bufLen ≥ (s.aLen + 1) + (s.bLen + 1) := by
    rw [h.aLen, h.bLen]
    exact hbuf
  rw [strUtf32DistBuffer, if_pos hassert, DistArgs.swap]
  dsimp only
  by_cases hlonger : s.aLen > s.bLen
  · rw [if_pos hlonger, editDistance_comm]
    obtain ⟨mem', htable, hframe⟩ := @DistArgs.table_spec { s with a := s.b, aLen := s.bLen, b := s.a, bLen := s.aLen }
      mem b a ⟨⟨h.bLen, h.aLen, h.inside, h.holdsB, h.holdsA, h.apartB, h.apartA⟩, by dsimp only; omega⟩
    exact ⟨mem', htable, hframe.length, hframe.outside⟩
  · rw [if_neg hlonger]
    exact DistArgs.table_spec ⟨h, by omega⟩

/-! ### Decoded texts -/

lemma length_codePoints_le (str : List UInt8) : (codePoints str).length ≤ str.length := by
  fun_induction codePoints str with
  | case1 => exact le_rfl
  | case2 => exact Nat.zero_le _
  | case3 b str decoded _ ih => exact Nat.succ_le_succ (ih.trans (strUtf8Decode_suffix b str).length_le)

lemma strToUtf32Unchecked_spec (str : List UInt8) {front tail : List ℤ}
    (htail : (codePoints str).length < tail.length) :
    ∃ rest, strToUtf32Unchecked str front.length (front ++ tail) =
        some ((codePoints str).length, front ++ codePoints str ++ rest) ∧
      (codePoints str).length + rest.length = tail.length := by
  have hset : ∀ (front : List ℤ) (x y : ℤ) (tail : List ℤ),
      (front ++ x :: tail).set front.length y = front ++ y :: tail := by
    intro front x y tail
    rw [List.set_append_right _ _ le_rfl, Nat.sub_self, List.set_cons_zero]
  fun_induction codePoints str generalizing front tail with
  | case1 =>
    obtain ⟨x, tail, rfl⟩ := List.exists_cons_of_length_pos htail
    refine ⟨0 :: tail, ?_, Nat.zero_add _⟩
    rw [strToUtf32Unchecked, if_pos (by simp), hset, List.append_nil, List.length_nil]
  | case2 b str decoded =>
    rename_i hzero
    obtain ⟨x, tail, rfl⟩ := List.exists_cons_of_length_pos htail
    refine ⟨0 :: tail, ?_, Nat.zero_add _⟩
    rw [strToUtf32Unchecked]
    dsimp only
    rw [if_pos (by simp), if_pos hzero, hset, List.append_nil, List.length_nil]
    exact congrArg (fun code => some (0, front ++ code :: tail)) hzero
  | case3 b str decoded =>
    rename_i hne ih
    obtain ⟨x, tail, rfl⟩ := List.exists_cons_of_length_pos (Nat.zero_lt_of_lt htail)
    obtain ⟨rest, hrest, hlength⟩ := @ih (front ++ [decoded.1]) tail (Nat.lt_of_succ_lt_succ htail)
    refine ⟨rest, ?_, ?_⟩
    · rw [List.length_append, List.length_singleton, List.append_assoc, List.singleton_append] at hrest
      rw [strToUtf32Unchecked]
      dsimp only
      rw [if_pos (by simp), if_neg hne, hset, hrest, Option.map_some, List.length_cons, List.append_assoc front,
        List.singleton_append]
    · rw [List.length_cons, List.length_cons]
      omega

/-- The distance of two decoded strings, in a buffer of the size that is asserted. -/
theorem strUtf8DistBuffer_spec (aUtf8 bUtf8 : List UInt8) {buf : List ℤ}
    (hbuf : 2 * (aUtf8.length + 1 + bUtf8.length + 1) ≤ buf.length) :
    ∃ mem', strUtf8DistBuffer aUtf8 bUtf8 buf =
      some ((editDistance (codePoints aUtf8) (codePoints bUtf8) : ℤ), mem') := by
  have hall : ∀ aUtf8 bUtf8 : List UInt8, 2 * (aUtf8.length + 1 + bUtf8.length + 1) ≤ buf.length →
      ∃ mem', ((strToUtf32Unchecked aUtf8 0 buf).bind fun (aLen, mem) =>
        (strToUtf32Unchecked bUtf8 aLen mem).bind fun (bLen, mem) =>
          strUtf32DistBuffer
            { a := 0, aLen := aLen, b := aLen, bLen := bLen, buf := aLen + bLen,
              bufLen := buf.length - bLen - aLen } mem) =
        some ((editDistance (codePoints aUtf8) (codePoints bUtf8) : ℤ), mem') := by
    intro aUtf8 bUtf8 hbuf
    have ha := length_codePoints_le aUtf8
    have hb := length_codePoints_le bUtf8
    obtain ⟨rest, hfirst, hlength⟩ := @strToUtf32Unchecked_spec aUtf8 [] buf (by omega)
    rw [List.nil_append, List.nil_append, List.length_nil] at hfirst
    obtain ⟨rest', hsecond, hlength'⟩ := @strToUtf32Unchecked_spec bUtf8 (codePoints aUtf8) rest (by omega)
    have htotal : (codePoints aUtf8 ++ codePoints bUtf8 ++ rest').length = buf.length := by
      rw [List.length_append, List.length_append]
      omega
    obtain ⟨mem', hdist, -⟩ := @strUtf32DistBuffer_spec
      { a := 0, aLen := (codePoints aUtf8).length, b := (codePoints aUtf8).length, bLen := (codePoints bUtf8).length,
        buf := (codePoints aUtf8).length + (codePoints bUtf8).length,
        bufLen := buf.length - (codePoints bUtf8).length - (codePoints aUtf8).length }
      (codePoints aUtf8 ++ codePoints bUtf8 ++ rest') (codePoints aUtf8) (codePoints bUtf8)
      { aLen := rfl
        bLen := rfl
        inside := by dsimp only; omega
        holdsA := fun i hi => by
          dsimp only
          rw [Nat.zero_add, List.append_assoc, List.getElem?_append_left hi]
        holdsB := fun i hi => by
          rw [List.append_assoc, List.getElem?_append_right (Nat.le_add_right _ _), Nat.add_sub_cancel_left,
            List.getElem?_append_left hi]
        apartA := .inl (by dsimp only; omega)
        apartB := .inl le_rfl } (by dsimp only; omega)
    exact ⟨mem', by rw [hfirst, Option.bind_some]; dsimp only; rw [hsecond, Option.bind_some]; exact hdist⟩
  rw [strUtf8DistBuffer, if_pos hbuf]
  by_cases hlonger : aUtf8.length > bUtf8.length
  · rw [if_pos hlonger, editDistance_comm]
    exact hall bUtf8 aUtf8 (by omega)
  · rw [if_neg hlonger]
    exact hall aUtf8 bUtf8 hbuf

/-- Both functions compute the Levenshtein distance, the least number of edits, and no access is outside of a buffer of
the size that they assert.  The distance is symmetric and satisfies the triangle inequality. -/
theorem dist_isLeast :
    (∀ (s : DistArgs) (mem a b : List ℤ), s.Placed mem a b → (a.length + 1) + (b.length + 1) ≤ s.bufLen →
      ∃ mem', strUtf32DistBuffer s mem = some ((editDistance a b : ℤ), mem') ∧ s.Frame mem mem') ∧
    (∀ (aUtf8 bUtf8 : List UInt8) (buf : List ℤ), 2 * (aUtf8.length + 1 + bUtf8.length + 1) ≤ buf.length →
      ∃ mem', strUtf8DistBuffer aUtf8 bUtf8 buf =
        some ((editDistance (codePoints aUtf8) (codePoints bUtf8) : ℤ), mem')) ∧
    (∀ a b : List ℤ, IsLeast {n | Edits n a b} (editDistance a b)) ∧
    (∀ a b : List ℤ, editDistance a b = editDistance b a) ∧
    (∀ a b c : List ℤ, editDistance a c ≤ editDistance a b + editDistance b c) :=
  ⟨fun _ _ _ _ hplaced hbuf => strUtf32DistBuffer_spec hplaced hbuf,
    fun aUtf8 bUtf8 _ hbuf => strUtf8DistBuffer_spec aUtf8 bUtf8 hbuf, isLeast_editDistance, editDistance_comm,
    editDistance_triangle⟩

/-- The texts `b` and `bb` in front of a buffer of five numbers, and the strings in a buffer of ten. -/
theorem dist_sample :
    (∃ mem', strUtf32DistBuffer ⟨0, 1, 1, 2, 3, 5⟩ [98, 98, 98, 0, 0, 0, 0, 0] =
      some ((editDistance [(98 : ℤ)] [98, 98] : ℤ), mem') ∧
        (⟨0, 1, 1, 2, 3, 5⟩ : DistArgs).Frame [98, 98, 98, 0, 0, 0, 0, 0] mem') ∧
    ∃ mem', strUtf8DistBuffer [98] [98, 98] (List.replicate 10 0) =
      some ((editDistance (codePoints [98]) (codePoints [98, 98]) : ℤ), mem') :=
  ⟨dist_isLeast.1 ⟨0, 1, 1, 2, 3, 5⟩ [98, 98, 98, 0, 0, 0, 0, 0] [98] [98, 98]
      ⟨rfl, rfl, by decide, by unfold DistArgs.Holds; decide, by unfold DistArgs.Holds; decide, by decide, by decide⟩
      (by decide),
    dist_isLeast.2.1 [98] [98, 98] (List.replicate 10 0) (by decide)⟩

end DDNet
