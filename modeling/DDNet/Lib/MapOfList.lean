/-
Maps built from the entries of other maps.

If the entries of a list have different keys, and are those of a lookup function, then the map made of the list looks up
the same.
-/
import Mathlib.Order.Defs.LinearOrder
import Mathlib.Tactic.Linarith

namespace DDNet.Lib

variable {α β : Type} {l : List (α × β)} {g : α → Option β}

lemma hashMap_ofList_eq [BEq α] [LawfulBEq α] [Hashable α] (hkeys : l.Pairwise fun x y => (x.1 == y.1) = false)
    (hmem : ∀ k v, (k, v) ∈ l ↔ g k = some v) (k : α) : (Std.HashMap.ofList l)[k]? = g k := by
  cases hk : g k with
  | some v => exact Std.HashMap.getElem?_ofList_of_mem (beq_self_eq_true k) hkeys ((hmem k v).mpr hk)
  | none =>
    refine Std.HashMap.getElem?_ofList_of_contains_eq_false ?_
    rw [← Bool.not_eq_true, List.contains_iff_mem, List.mem_map]
    rintro ⟨⟨k', v⟩, hentry, rfl⟩
    exact nomatch ((hmem k' v).mp hentry).symm.trans hk

lemma treeMap_ofList_eq [Ord α] [Std.TransOrd α] [Std.LawfulEqOrd α] [BEq α] [LawfulBEq α]
    (hkeys : l.Pairwise fun x y => ¬compare x.1 y.1 = .eq) (hmem : ∀ k v, (k, v) ∈ l ↔ g k = some v) (k : α) :
    (Std.TreeMap.ofList l)[k]? = g k := by
  cases hk : g k with
  | some v =>
    have hself : compare k k = .eq := Std.ReflCmp.compare_self
    exact Std.TreeMap.getElem?_ofList_of_mem hself hkeys ((hmem k v).mpr hk)
  | none =>
    refine Std.TreeMap.getElem?_ofList_of_contains_eq_false ?_
    rw [← Bool.not_eq_true, List.contains_iff_mem, List.mem_map]
    rintro ⟨⟨k', v⟩, hentry, rfl⟩
    exact nomatch ((hmem k' v).mp hentry).symm.trans hk

end DDNet.Lib
