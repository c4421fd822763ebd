/-
Values of a finite family, counted at the index where each one comes first.
-/
import Mathlib.Data.Finset.Card
import Mathlib.Data.Finset.Max
import Mathlib.Data.Fintype.Basic

namespace DDNet.Lib

open Finset

variable {ι α : Type} [Fintype ι] [LinearOrder ι] [DecidableEq α] (p : ι → Prop) [DecidablePred p] (f : ι → α)

/-- The indices with `p` at which a value comes first. -/
def firstOccurrences : Finset ι := univ.filter fun i => p i ∧ ∀ j < i, p j → f j ≠ f i

variable {p f} in
lemma mem_firstOccurrences {i : ι} : i ∈ firstOccurrences p f ↔ p i ∧ ∀ j < i, p j → f j ≠ f i := by
  rw [firstOccurrences, mem_filter, and_iff_right (mem_univ i)]

/-- Each value comes first at one index. -/
lemma card_firstOccurrences : #(firstOccurrences p f) = #((univ.filter p).image f) := by
  refine Finset.card_bij (fun i _ => f i) ?_ ?_ ?_
  · intro i hi
    exact mem_image_of_mem f (mem_filter.2 ⟨mem_univ i, (mem_firstOccurrences.1 hi).1⟩)
  · intro i hi j hj heq
    obtain ⟨hpi, hi⟩ := mem_firstOccurrences.1 hi
    obtain ⟨hpj, hj⟩ := mem_firstOccurrences.1 hj
    rcases lt_trichotomy i j with hlt | rfl | hlt
    · exact absurd heq (hj i hlt hpi)
    · rfl
    · exact absurd heq.symm (hi j hlt hpj)
  · intro a ha
    obtain ⟨i, hi, rfl⟩ := mem_image.1 ha
    have hne : (univ.filter fun j => p j ∧ f j = f i).Nonempty :=
      ⟨i, mem_filter.2 ⟨mem_univ i, (mem_filter.1 hi).2, rfl⟩⟩
    obtain ⟨hp, hf⟩ := (mem_filter.1 (min'_mem _ hne)).2
    refine ⟨min' _ hne, mem_firstOccurrences.2 ⟨hp, fun j hj hpj heq => ?_⟩, hf⟩
    exact absurd (min'_le _ j (mem_filter.2 ⟨mem_univ j, hpj, heq.trans hf⟩)) (not_le.2 hj)

end DDNet.Lib
