/-
The lines of a text.

A line ends with a line feed, or with a carriage return and a line feed.  What comes after the last line end is a piece as
well, which may be empty.
-/
import Mathlib.Data.List.Basic

namespace DDNet.Lib

/-- The pieces between the line ends; a carriage return in front of a line feed belongs to the line end. -/
def pieces : List UInt8 → List (List UInt8)
  | [] => [[]]
  | c :: s =>
    if c = 10 then [] :: pieces s
    else if c = 13 ∧ s.head? = some 10 then pieces s
    else (pieces s).modifyHead (c :: ·)

/-- Pieces without the last one if it is empty. -/
def dropEmptyLast (ps : List (List UInt8)) : List (List UInt8) := if ps.getLast? = some [] then ps.dropLast else ps

/-- The lines of a text. -/
def linesOf (s : List UInt8) : List (List UInt8) := dropEmptyLast (pieces s)

@[simp] lemma pieces_nil : pieces [] = [[]] := rfl

@[simp] lemma pieces_newline (s : List UInt8) : pieces (10 :: s) = [] :: pieces s := rfl

@[simp] lemma pieces_carriageReturn (s : List UInt8) : pieces (13 :: 10 :: s) = [] :: pieces s := rfl

lemma pieces_cons {c : UInt8} {s : List UInt8} (hc : c ≠ 10) (hs : ¬(c = 13 ∧ s.head? = some 10)) :
    pieces (c :: s) = (pieces s).modifyHead (c :: ·) := by
  rw [pieces, if_neg hc, if_neg hs]

lemma pieces_ne_nil (s : List UInt8) : pieces s ≠ [] := by
  induction s with
  | nil => exact List.cons_ne_nil _ _
  | cons c s ih =>
    rw [pieces]
    split_ifs
    · exact List.cons_ne_nil _ _
    · exact ih
    · obtain ⟨p, ps, heq⟩ := List.exists_cons_of_ne_nil ih
      rw [heq]
      exact List.cons_ne_nil _ _

/-- Only bytes of the text are in its pieces. -/
lemma mem_of_mem_pieces {s p : List UInt8} (hp : p ∈ pieces s) {c : UInt8} (hc : c ∈ p) : c ∈ s := by
  induction s generalizing p with
  | nil =>
    rw [pieces_nil, List.mem_singleton] at hp
    rw [hp] at hc
    exact hc
  | cons d s ih =>
    rw [pieces] at hp
    split_ifs at hp
    · rcases List.mem_cons.1 hp with rfl | hp
      · exact absurd hc List.not_mem_nil
      · exact List.mem_cons_of_mem d (ih hp hc)
    · exact List.mem_cons_of_mem d (ih hp hc)
    · obtain ⟨q, qs, heq⟩ := List.exists_cons_of_ne_nil (pieces_ne_nil s)
      rw [heq, List.modifyHead_cons] at hp
      rcases List.mem_cons.1 hp with rfl | hp
      · rcases List.mem_cons.1 hc with rfl | hc
        · exact List.mem_cons_self
        · exact List.mem_cons_of_mem d (ih (by rw [heq]; exact List.mem_cons_self) hc)
      · exact List.mem_cons_of_mem d (ih (by rw [heq]; exact List.mem_cons_of_mem q hp) hc)

lemma dropEmptyLast_singleton (p : List UInt8) : dropEmptyLast [p] = if p = [] then [] else [p] := by
  simp [dropEmptyLast]

lemma dropEmptyLast_cons (p : List UInt8) {ps : List (List UInt8)} (hps : ps ≠ []) :
    dropEmptyLast (p :: ps) = p :: dropEmptyLast ps := by
  rw [dropEmptyLast, dropEmptyLast, List.getLast?_cons_of_ne_nil hps, List.dropLast_cons_of_ne_nil hps]
  split_ifs <;> rfl

end DDNet.Lib
