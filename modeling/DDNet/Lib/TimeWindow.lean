/-
Windows of a fixed duration over a list of events, the oldest of which comes first.

A window starts at the first event that is not within the duration of the window before.
-/
import Mathlib.Data.List.Induction
import Mathlib.Order.Interval.Set.Basic
import Mathlib.Tactic.Linarith

namespace DDNet.Lib

variable {α β : Type*} (time : α → ℤ) (duration : ℤ)

/-- The window is not over at a time. -/
def IsOpen (now : ℤ) : List α → Prop
  | [] => False
  | first :: _ => now < time first + duration

instance (now : ℤ) (w : List α) : Decidable (IsOpen time duration now w) := by
  cases w <;> unfold IsOpen <;> infer_instance

/-- The window of an event, from the window of the events before. -/
def enter (w : List α) (a : α) : List α := if IsOpen time duration (time a) w then w ++ [a] else [a]

/-- The window of the last event. -/
def window (events : List α) : List α := events.foldl (enter time duration) []

variable {time duration}

lemma isOpen_iff {now : ℤ} {w : List α} :
    IsOpen time duration now w ↔ ∃ first ∈ w.head?, now < time first + duration := by
  cases w <;> simp [IsOpen]

lemma IsOpen.mono {now now' : ℤ} {w : List α} (hle : now ≤ now') (h : IsOpen time duration now' w) :
    IsOpen time duration now w := by
  obtain ⟨first, hfirst, hlt⟩ := isOpen_iff.1 h
  exact isOpen_iff.2 ⟨first, hfirst, by omega⟩

lemma window_snoc_of_isOpen {events : List α} {a : α} (h : IsOpen time duration (time a) (window time duration events)) :
    window time duration (events ++ [a]) = window time duration events ++ [a] := by
  rw [window, List.foldl_append]
  exact if_pos h

lemma window_snoc_of_not_isOpen {events : List α} {a : α}
    (h : ¬ IsOpen time duration (time a) (window time duration events)) :
    window time duration (events ++ [a]) = [a] := by
  rw [window, List.foldl_append]
  exact if_neg h

/-- A window is the end of the events. -/
lemma window_suffix (events : List α) : window time duration events <:+ events := by
  induction events using List.reverseRecOn with
  | nil => exact List.suffix_rfl
  | append_singleton events a ih =>
    by_cases hopen : IsOpen time duration (time a) (window time duration events)
    · rw [window_snoc_of_isOpen hopen]
      obtain ⟨before, hbefore⟩ := ih
      exact ⟨before, by rw [← List.append_assoc, hbefore]⟩
    · rw [window_snoc_of_not_isOpen hopen]
      exact List.suffix_append events [a]

/-- What an event carries beside its time does not matter. -/
lemma window_map (f : β → α) (events : List β) :
    window time duration (events.map f) = (window (time ∘ f) duration events).map f := by
  induction events using List.reverseRecOn with
  | nil => rfl
  | append_singleton events b ih =>
    have hopen : IsOpen time duration (time (f b)) (window time duration (events.map f)) ↔
        IsOpen (time ∘ f) duration ((time ∘ f) b) (window (time ∘ f) duration events) := by
      rw [ih, isOpen_iff, isOpen_iff]
      simp
    rw [List.map_append, List.map_singleton]
    by_cases h : IsOpen (time ∘ f) duration ((time ∘ f) b) (window (time ∘ f) duration events)
    · rw [window_snoc_of_isOpen h, window_snoc_of_isOpen (hopen.2 h), ih]
      simp
    · rw [window_snoc_of_not_isOpen h, window_snoc_of_not_isOpen (mt hopen.1 h)]
      simp

end DDNet.Lib
