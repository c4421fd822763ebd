/-
Runs of a step relation.

An invariant holds after every run.  If moreover every step lowers a measure, and a state without a next step is a final
one, then every run can be completed, and only in a final state (`completes_of_measure`).
-/
import Mathlib.Data.Nat.Basic

namespace DDNet.Lib

variable {σ : Type*}

/-- A number of steps from one state to another. -/
inductive RunOf (step : σ → σ → Prop) (a : σ) : ℕ → σ → Prop
  | nil : RunOf step a 0 a
  | snoc {n : ℕ} {b c : σ} : RunOf step a n b → step b c → RunOf step a (n + 1) c

/-- Runs are not longer than some bound, and a run that cannot go on is in a final state. -/
structure Completes (step : σ → σ → Prop) (a : σ) (final : σ → Prop) : Prop where
  bounded : ∃ bound, ∀ n b, RunOf step a n b → n ≤ bound
  final : ∀ n b, RunOf step a n b → (∀ c, ¬ step b c) → final b

variable {step : σ → σ → Prop} {a : σ} {inv : σ → Prop}

lemma RunOf.invariant (hinit : inv a) (hstep : ∀ b c, inv b → step b c → inv c) {n : ℕ} {b : σ}
    (h : RunOf step a n b) : inv b := by
  induction h with
  | nil => exact hinit
  | snoc _ hlast ih => exact hstep _ _ ih hlast

/-- What a step takes from the measure bounds the number of steps. -/
lemma RunOf.le_measure {measure : σ → ℕ} (hinit : inv a) (hstep : ∀ b c, inv b → step b c → inv c)
    (hless : ∀ b c, inv b → step b c → measure c < measure b) {n : ℕ} {b : σ} (h : RunOf step a n b) :
    n + measure b ≤ measure a := by
  induction h with
  | nil => rw [Nat.zero_add]
  | snoc hrun hlast ih =>
    have hlt := hless _ _ (hrun.invariant hinit hstep) hlast
    omega

lemma completes_of_measure {measure : σ → ℕ} {final : σ → Prop} (hinit : inv a)
    (hstep : ∀ b c, inv b → step b c → inv c) (hless : ∀ b c, inv b → step b c → measure c < measure b)
    (hfinal : ∀ b, inv b → (∀ c, ¬ step b c) → final b) : Completes step a final where
  bounded := ⟨measure a, fun n b h => Nat.le_trans (Nat.le_add_right n _) (h.le_measure hinit hstep hless)⟩
  final n b h := hfinal b (h.invariant hinit hstep)

end DDNet.Lib
