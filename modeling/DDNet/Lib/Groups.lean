/-
Items that are sorted by a key.

The items of a key keep their order and become a group.  The groups together are the items in another order
(`grouped_perm`).  A table has the keys whose group is not empty, with the start and the number of the items
(`entries`); what it says of a key is where its group is (`find_entries`, `grouped_split`).
-/
import Mathlib

namespace DDNet.Lib.Groups

variable {α κ : Type*} [DecidableEq κ]

/-- The items of a key. -/
def group (key : α → κ) (items : List α) (k : κ) : List α := items.filter fun item => key item = k

/-- The items, sorted by key. -/
def grouped (key : α → κ) (items : List α) (keys : List κ) : List α := keys.flatMap (group key items)

/-- The table, for groups with these numbers of items. -/
def entries (num : κ → ℕ) : List κ → ℕ → List (κ × ℕ × ℕ)
  | [], _ => []
  | k :: keys, count => if num k = 0 then entries num keys count else (k, count, num k) :: entries num keys (count + num k)

/-- The number of items before a key. -/
def start (num : κ → ℕ) (keys : List κ) (k : κ) : ℕ := ((keys.takeWhile fun k' => k' ≠ k).map num).sum

lemma mem_group {key : α → κ} {items : List α} {k : κ} {item : α} :
    item ∈ group key items k ↔ item ∈ items ∧ key item = k := by
  rw [group, List.mem_filter, decide_eq_true_eq]

lemma start_cons_self (num : κ → ℕ) (keys : List κ) (k : κ) : start num (k :: keys) k = 0 := by
  rw [start, List.takeWhile_cons_of_neg (by simp)]
  rfl

lemma start_cons_of_ne (num : κ → ℕ) (keys : List κ) {k k' : κ} (h : k' ≠ k) :
    start num (k' :: keys) k = num k' + start num keys k := by
  rw [start, List.takeWhile_cons_of_pos (by simpa using h), List.map_cons, List.sum_cons]
  rfl

/-- Every item is in its group. -/
lemma grouped_perm {key : α → κ} {keys : List κ} (hkeys : keys.Nodup) {items : List α}
    (hitems : ∀ item ∈ items, key item ∈ keys) : (grouped key items keys).Perm items := by
  induction keys generalizing items with
  | nil =>
    have hnil : items = [] := List.eq_nil_iff_forall_not_mem.2 fun item hitem => List.not_mem_nil (hitems item hitem)
    rw [hnil]
    exact List.Perm.refl _
  | cons k keys ih =>
    obtain ⟨hk, hkeys⟩ := List.nodup_cons.1 hkeys
    -- the other groups are those of the items that are left
    have hrest : grouped key items keys = grouped key (items.filter fun item => ¬ key item = k) keys := by
      refine List.flatMap_congr fun k' hk' => ?_
      have hne : k' ≠ k := fun heq => hk (heq ▸ hk')
      rw [group, group, List.filter_filter]
      refine List.filter_congr fun item _ => ?_
      by_cases hkey : key item = k' <;> simp [hkey, hne]
    have hleft : ∀ item ∈ items.filter (fun item => ¬ key item = k), key item ∈ keys := by
      intro item hitem
      obtain ⟨hmem, hne⟩ := List.mem_filter.1 hitem
      rw [decide_eq_true_eq] at hne
      exact (List.mem_cons.1 (hitems item hmem)).resolve_left hne
    have hsplit : grouped key items (k :: keys) = group key items k ++ grouped key items keys := List.flatMap_cons
    rw [hsplit, hrest]
    refine ((ih hkeys hleft).append_left _).trans ?_
    have hall := List.filter_append_perm (fun item => decide (key item = k)) items
    simpa only [group, decide_not] using hall

/-- A group is behind the items of the keys before. -/
lemma grouped_split (key : α → κ) (items : List α) {keys : List κ} {k : κ} (hk : k ∈ keys) :
    ∃ front rest, grouped key items keys = front ++ (group key items k ++ rest) ∧
      front.length = start (fun k => (group key items k).length) keys k := by
  induction keys with
  | nil => exact absurd hk List.not_mem_nil
  | cons k' keys ih =>
    have hsplit : grouped key items (k' :: keys) = group key items k' ++ grouped key items keys := List.flatMap_cons
    rw [hsplit]
    by_cases hkey : k' = k
    · subst hkey
      exact ⟨[], _, rfl, (start_cons_self _ _ _).symm⟩
    · obtain ⟨front, rest, hgrouped, hlength⟩ := ih ((List.mem_cons.1 hk).resolve_left (Ne.symm hkey))
      refine ⟨group key items k' ++ front, rest, ?_, ?_⟩
      · rw [hgrouped, List.append_assoc]
      · rw [List.length_append, hlength, start_cons_of_ne _ _ hkey]

lemma length_grouped (key : α → κ) (items : List α) (keys : List κ) :
    (grouped key items keys).length = (keys.map fun k => (group key items k).length).sum := List.length_flatMap

lemma length_entries (num : κ → ℕ) (keys : List κ) (count : ℕ) :
    (entries num keys count).length = keys.countP fun k => num k ≠ 0 := by
  induction keys generalizing count with
  | nil => rfl
  | cons k keys ih =>
    rw [entries]
    by_cases hnum : num k = 0
    · rw [if_pos hnum, ih, List.countP_cons_of_neg (by simpa using hnum)]
    · rw [if_neg hnum, List.length_cons, ih, List.countP_cons_of_pos (by simpa using hnum)]

lemma mem_entries {num : κ → ℕ} {keys : List κ} {count : ℕ} {entry : κ × ℕ × ℕ} (h : entry ∈ entries num keys count) :
    entry.1 ∈ keys ∧ entry.2.1 + entry.2.2 ≤ count + (keys.map num).sum := by
  induction keys generalizing count with
  | nil => exact absurd h List.not_mem_nil
  | cons k keys ih =>
    rw [entries] at h
    rw [List.map_cons, List.sum_cons]
    split_ifs at h with hnum
    · obtain ⟨hmem, hle⟩ := ih h
      exact ⟨List.mem_cons_of_mem _ hmem, by omega⟩
    · rcases List.mem_cons.1 h with rfl | h
      · exact ⟨List.mem_cons_self, by dsimp only; omega⟩
      · obtain ⟨hmem, hle⟩ := ih h
        exact ⟨List.mem_cons_of_mem _ hmem, by omega⟩

/-- The table has a key if there are items of it. -/
lemma find_entries (num : κ → ℕ) {keys : List κ} (hkeys : keys.Nodup) (count : ℕ) (k : κ) :
    (entries num keys count).find? (fun entry => entry.1 = k) =
      if k ∈ keys ∧ num k ≠ 0 then some (k, count + start num keys k, num k) else none := by
  induction keys generalizing count with
  | nil => rfl
  | cons k' keys ih =>
    obtain ⟨hk', hkeys⟩ := List.nodup_cons.1 hkeys
    rw [entries]
    by_cases hkey : k' = k
    · subst hkey
      by_cases hnum : num k' = 0
      · rw [if_pos hnum, ih hkeys, if_neg (fun h => hk' h.1), if_neg (fun h => h.2 hnum)]
      · rw [if_neg hnum, List.find?_cons_of_pos (by simp), if_pos ⟨List.mem_cons_self, hnum⟩, start_cons_self]
        rfl
    · have hmem : k ∈ k' :: keys ↔ k ∈ keys := by
        rw [List.mem_cons, or_iff_right (Ne.symm hkey)]
      simp only [hmem, start_cons_of_ne num keys hkey]
      by_cases hnum : num k' = 0
      · rw [if_pos hnum, ih hkeys, hnum, Nat.zero_add]
      · rw [if_neg hnum, List.find?_cons_of_neg (by simpa using hkey), ih hkeys, Nat.add_assoc]

end DDNet.Lib.Groups
