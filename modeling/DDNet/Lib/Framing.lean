/-
Lines that are separated by certain letters, cut out of a stream.

The rest behind the last separator is no line yet.  Feeding a stream piece by piece gives the same lines as feeding it
as a whole (`frame_append`).
-/
import Mathlib.Data.List.Infix
import Mathlib.Tactic.Common

namespace DDNet.Lib

variable {α : Type} (p : α → Bool)

/-- The lines that end in a stream, behind the rest of what was there before, and the rest of it. -/
def frame (rest : List α) : List α → List (List α) × List α
  | [] => ([], rest)
  | c :: s =>
    if p c then ((if rest = [] then [] else [rest]) ++ (frame [] s).1, (frame [] s).2)
    else frame (rest ++ [c]) s

variable {p} {c : α} {rest s t line : List α}

@[simp] lemma frame_nil (rest : List α) : frame p rest [] = ([], rest) := rfl

lemma frame_separator (hc : p c = true) (rest s : List α) :
    frame p rest (c :: s) = ((if rest = [] then [] else [rest]) ++ (frame p [] s).1, (frame p [] s).2) := by
  rw [frame, if_pos hc]

/-- A separator in front of the stream does not matter. -/
lemma frame_nil_separator (hc : p c = true) (s : List α) : frame p [] (c :: s) = frame p [] s := by
  rw [frame_separator hc, if_pos rfl, List.nil_append]

lemma frame_open (hs : ∀ c ∈ s, p c = false) (rest t : List α) : frame p rest (s ++ t) = frame p (rest ++ s) t := by
  induction s generalizing rest with
  | nil => rw [List.nil_append, List.append_nil]
  | cons c s ih =>
    rw [List.cons_append, frame, if_neg (by rw [hs c List.mem_cons_self]; exact Bool.false_ne_true),
      ih (fun d hd => hs d (List.mem_cons_of_mem c hd)), List.append_assoc, List.singleton_append]

/-- A stream in two parts gives the lines of the first part, and then those of the second one. -/
theorem frame_append (rest s t : List α) :
    frame p rest (s ++ t) = ((frame p rest s).1 ++ (frame p (frame p rest s).2 t).1, (frame p (frame p rest s).2 t).2) := by
  induction s generalizing rest with
  | nil => rfl
  | cons c s ih =>
    rw [List.cons_append, frame, frame]
    by_cases hc : p c = true
    · rw [if_pos hc, if_pos hc, ih, List.append_assoc]
    · rw [if_neg hc, if_neg hc, ih]

/-- The first line of a stream. -/
lemma frame_line (hline : ∀ c ∈ line, p c = false) (hne : line ≠ []) (hc : p c = true) (s : List α) :
    frame p [] (line ++ c :: s) = (line :: (frame p [] s).1, (frame p [] s).2) := by
  rw [frame_open hline, List.nil_append, frame_separator hc, if_neg hne, List.singleton_append]

/-- No separator is in the rest. -/
lemma frame_rest (hrest : ∀ c ∈ rest, p c = false) : ∀ c ∈ (frame p rest s).2, p c = false := by
  induction s generalizing rest with
  | nil => exact hrest
  | cons c s ih =>
    rw [frame]
    by_cases hc : p c = true
    · rw [if_pos hc]
      exact ih fun d hd => absurd hd List.not_mem_nil
    · rw [if_neg hc]
      refine ih fun d hd => ?_
      rcases List.mem_append.1 hd with hd | hd
      · exact hrest d hd
      · rw [List.mem_singleton.1 hd]
        exact eq_false_of_ne_true hc

/-- The lines are the pieces between the separators that are not empty, without the last one, which is the rest. -/
theorem frame_eq_splitOnP (s : List α) :
    frame p [] s = ((s.splitOnP p).dropLast.filter (¬ List.isEmpty ·), (s.splitOnP p).getLast (List.splitOnP_ne_nil p s)) := by
  have hloop : ∀ (s rest : List α), frame p rest s =
      ((s.splitOnPPrepend p rest.reverse).dropLast.filter (¬ List.isEmpty ·),
        (s.splitOnPPrepend p rest.reverse).getLast (List.splitOnPPrepend_ne_nil p s rest.reverse)) := by
    intro s
    induction s with
    | nil =>
      intro rest
      simp
    | cons c s ih =>
      intro rest
      by_cases hc : p c = true
      · have hne := List.splitOnP_ne_nil p s
        rw [frame_separator hc, ih []]
        simp only [List.splitOnPPrepend_cons_pos hc, List.reverse_reverse, List.reverse_nil,
          List.splitOnPPrepend_nil_right, List.dropLast_cons_of_ne_nil hne, List.getLast_cons hne, List.filter_cons]
        cases rest <;> rfl
      · have hc' : p c = false := eq_false_of_ne_true hc
        rw [frame, if_neg hc, ih]
        simp only [List.splitOnPPrepend_cons_neg hc', List.reverse_append, List.reverse_singleton, List.singleton_append]
  exact hloop s []

/-- A part of the stream without a separator is within one of its pieces. -/
theorem exists_piece_of_infix (hs : ∀ c ∈ s, p c = false) (hinside : s <:+: t) : ∃ piece ∈ t.splitOnP p, s <:+: piece := by
  obtain ⟨a, b, rfl⟩ := hinside
  have hloop : ∀ (a acc : List α), ∃ piece ∈ (a ++ s ++ b).splitOnPPrepend p acc, s <:+: piece := by
    intro a
    induction a with
    | nil =>
      have hinside : ∀ (s : List α), (∀ c ∈ s, p c = false) → ∀ acc : List α,
          ∃ piece ∈ (s ++ b).splitOnPPrepend p acc, acc.reverse ++ s <+: piece := by
        intro s
        induction s with
        | nil =>
          intro _ acc
          rw [List.nil_append, List.append_nil, List.splitOnPPrepend_eq_modifyHead]
          obtain ⟨q, qs, heq⟩ := List.exists_cons_of_ne_nil (List.splitOnP_ne_nil p b)
          rw [heq, List.modifyHead_cons]
          exact ⟨_, List.mem_cons_self, List.prefix_append _ _⟩
        | cons c s ih =>
          intro hs acc
          obtain ⟨piece, hpiece, hstart⟩ := ih (fun d hd => hs d (List.mem_cons_of_mem c hd)) (c :: acc)
          rw [List.cons_append, List.splitOnPPrepend_cons_neg (hs c List.mem_cons_self)]
          refine ⟨piece, hpiece, ?_⟩
          rwa [List.reverse_cons, List.append_assoc, List.singleton_append] at hstart
      intro acc
      obtain ⟨piece, hpiece, hstart⟩ := hinside s hs acc
      exact ⟨piece, by rwa [List.nil_append], (List.suffix_append _ _).isInfix.trans hstart.isInfix⟩
    | cons c a ih =>
      intro acc
      rw [List.cons_append, List.cons_append]
      by_cases hc : p c = true
      · obtain ⟨piece, hpiece, hin⟩ := ih []
        rw [List.splitOnPPrepend_cons_pos hc]
        exact ⟨piece, List.mem_cons_of_mem _ hpiece, hin⟩
      · rw [List.splitOnPPrepend_cons_neg (eq_false_of_ne_true hc)]
        exact ih (c :: acc)
  exact hloop a []

end DDNet.Lib
