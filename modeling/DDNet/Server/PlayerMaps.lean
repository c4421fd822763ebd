/-
The client ids that clients of old versions are shown (`CGameContext::UpdatePlayerMaps`, `game/server/gamecontext.cpp`,
and `IServer::Translate` and `ReverseTranslate`, `engine/server.h`).

Such a client knows of 16 ids only, so it is told of itself and of the 14 players closest to it.  The loop that takes
these over leaves out everybody with a squared distance above `5e9`, which is meant for the clients that are not in game
but is also reached by players in game (`updatePlayerMaps_iff`).
-/
import DDNet.Lib.Selection
import DDNet.Server.Authed
import DDNet.Server.CallVote
import Mathlib.Algebra.Order.Ring.Rat
import Mathlib.Data.Finset.Card
import Mathlib.Data.Finset.Sort
import Mathlib.Data.Fintype.Basic
import Mathlib.Data.List.FinRange
import Mathlib.Tactic.Linarith

namespace DDNet

open Lib

namespace CGameContext

/-- `VANILLA_MAX_CLIENTS`. -/
def vanillaMaxClients : ℕ := 16

/-! ### Players and distances -/

/-- Where a player looks, and where their character is. -/
structure MapPlayer (V : Type) where
  viewPos : V
  character : Option V

/-- The game and the server, as far as the maps depend on them, with the memory of each map from its start on. -/
structure MapContext (V : Type) where
  tick : ℕ
  svMapUpdateRate : ℕ
  ingame : ClientId → Bool
  sixup : ClientId → Bool
  version : ClientId → ℤ
  player : ClientId → Option (MapPlayer V)
  /-- A client enters the game only when it has a player. -/
  player_of_ingame : ∀ i, ingame i = true → (player i).isSome = true
  /-- `CanSnapCharacter`, of the character of the first one for the second one. -/
  canSnapCharacter : ClientId → ClientId → Bool
  idMap : ClientId → ℕ → ℤ

variable {V : Type} (lengthSquared : V → V → ℚ)

namespace MapContext

variable (this : MapContext V)

/-- The distance of a player from the client `i`, or a number that stands for why there is none. -/
def dist (i j : ClientId) : ℚ :=
  if j = i then -1
  else if this.ingame j = false then 10000000000
  else
    match this.player j with
    | none => 10000000000
    | some player =>
      match player.character with
      | none => 1000000000
      | some pos =>
        if this.canSnapCharacter j i = false then 100000000
        else (this.player i).elim 0 fun viewer => lengthSquared viewer.viewPos pos

/-- `Dist` before it is selected from. -/
def distances (i : ClientId) : List (ℚ × ClientId) :=
  (List.finRange maxClients).map fun j => (this.dist lengthSquared i j, j)

/-! ### Filling a map -/

/-- The loop that fills the map of the client `i`, with `j` and `Index`. -/
def fillMap (i : ClientId) : List (ℚ × ClientId) → ℕ → ℕ → (ℕ → ℤ) → ℕ × (ℕ → ℤ)
  | [], _, index, map => (index, map)
  | (first, second) :: dist, j, index, map =>
    -- also fill player with empty name to say chat msgs
    let map := Function.update map (j + 1) (-1)
    if second = i ∨ 5000000000 < first then fillMap i dist (j + 1) index map
    else fillMap i dist (j + 1) (index + 1) (Function.update map index second.val)

/-- `std::sort` of the entries from `first` up to, but without, `last`. -/
def sortMap (map : ℕ → ℤ) (first last : ℕ) : ℕ → ℤ :=
  let entries := ((List.range' first (last - first)).map map).insertionSort (· ≤ ·)
  fun k => if first ≤ k then (entries[k - first]?).getD (map k) else map k

/-- The new map of a client, from what `nth_element` leaves in `Dist`. -/
def updatedMap (i : ClientId) (dist : List (ℚ × ClientId)) (map : ℕ → ℤ) : ℕ → ℤ :=
  let (index, map) := fillMap i (dist.take (vanillaMaxClients - 1)) 0 1 map
  sortMap map 1 (min index (vanillaMaxClients - 1))

/-- The client is in game with an old version. -/
def Old (i : ClientId) : Prop := this.ingame i = true ∧ this.version i < versionDDNetOld

instance (i : ClientId) : Decidable (this.Old i) := by unfold Old; infer_instance

/-- `UpdatePlayerMaps`, with what `nth_element` leaves in `Dist` for each client. -/
def updatePlayerMaps (dist : ClientId → List (ℚ × ClientId)) : MapContext V :=
  if this.tick % this.svMapUpdateRate ≠ 0 then this
  else
    { this with
      idMap := (List.finRange maxClients).foldl
        (fun idMap i => if this.Old i then Function.update idMap i (updatedMap i (dist i) (idMap i)) else idMap)
        this.idMap }

/-! ### Translating ids -/

/-- `Translate`: whether the id is found, and `Target` afterwards. -/
def translate (target : ℤ) (client : ClientId) : Bool × ℤ :=
  if this.sixup client = true then (true, target)
  else if versionDDNetOld ≤ this.version client then (true, target)
  else
    match (List.range vanillaMaxClients).find? fun k => target = this.idMap client k with
    | some k => (true, k)
    | none => (false, target)

/-- `ReverseTranslate`. -/
def reverseTranslate (target : ℤ) (client : ClientId) : Bool × ℤ :=
  if this.sixup client = true then (true, target)
  else if versionDDNetOld ≤ this.version client then (true, target)
  else
    let target := max 0 (min target (vanillaMaxClients - 1))
    if this.idMap client target.toNat = -1 then (false, target) else (true, this.idMap client target.toNat)

/-! ### What a map should hold -/

/-- The other players in game. -/
def others (i : ClientId) : Finset ClientId := Finset.univ.filter fun j => this.ingame j = true ∧ j ≠ i

/-- The ids are right for the client: all of the others, or 14 of them with nobody farther than one left out. -/
structure Closest (i : ClientId) (ids : List ClientId) : Prop where
  ascending : ids.Pairwise (· < ·)
  subset : ∀ j ∈ ids, j ∈ this.others i
  length_le : ids.length ≤ 14
  all : (this.others i).card ≤ 14 → ∀ j ∈ this.others i, j ∈ ids
  full : 14 < (this.others i).card → ids.length = 14
  closest : ∀ j ∈ ids, ∀ k ∈ this.others i, k ∉ ids →
    this.dist lengthSquared i j ≤ this.dist lengthSquared i k

/-- The entries behind the first one: the ids, followed by `-1`. -/
def Holds (map : ℕ → ℤ) (ids : List ClientId) : Prop :=
  ∀ k < vanillaMaxClients - 1, map (k + 1) = (ids[k]?).elim (-1) fun j => (j.val : ℤ)

/-- The map is right for the client, and is otherwise as before. -/
structure MapRight (i : ClientId) (before after : ℕ → ℤ) : Prop where
  first : after 0 = before 0
  beyond : ∀ k, vanillaMaxClients ≤ k → after k = before k
  holds : ∃ ids, this.Closest lengthSquared i ids ∧ Holds after ids

/-- `Translate` and `ReverseTranslate` are right for the client. -/
structure TranslateRight (i : ClientId) : Prop where
  reverse : ∀ id : ℤ, 0 ≤ id → (∃ k < vanillaMaxClients, this.idMap i k = id) →
    ∃ k : ℤ, this.translate id i = (true, k) ∧ this.reverseTranslate k i = (true, id)
  fails : ∀ id : ℤ, -1 ≤ id →
    ((this.translate id i).1 = false ↔ 0 ≤ id ∧ ∀ k < vanillaMaxClients, this.idMap i k ≠ id)

/-! ### The loop that fills a map -/

/-- The ids that the loop takes over. -/
def kept (i : ClientId) (dist : List (ℚ × ClientId)) : List ClientId :=
  (dist.filter fun x => ¬(x.2 = i ∨ 5000000000 < x.1)).map Prod.snd

/-- The place to write to trails the one that is reset to `-1`, with nothing but `-1` between them. -/
lemma fillMap_eq (i : ClientId) (dist : List (ℚ × ClientId)) :
    ∀ (j index : ℕ) (map : ℕ → ℤ), index ≤ j + 1 → (∀ k, index ≤ k → k ≤ j → map k = -1) →
      fillMap i dist j index map = (index + (kept i dist).length, fun k =>
        if k < index then map k
        else ((kept i dist)[k - index]?).elim (if k ≤ j + dist.length then -1 else map k) fun id => (id.val : ℤ)) := by
  induction dist with
  | nil =>
    intro j index map _ hmap
    rw [fillMap, kept, List.filter_nil, List.map_nil, List.length_nil]
    refine Prod.ext rfl (funext fun k => ?_)
    dsimp only [List.getElem?_nil, Option.elim_none]
    split_ifs with hk hkj
    · rfl
    · exact hmap k (by omega) (by omega)
    · rfl
  | cons x dist ih =>
    obtain ⟨first, second⟩ := x
    intro j index map hindex hmap
    rw [fillMap]
    by_cases hskip : second = i ∨ 5000000000 < first
    · have hkept : kept i ((first, second) :: dist) = kept i dist := by
        simp only [kept, List.filter_cons, hskip, not_true_eq_false, decide_false, Bool.false_eq_true, if_false]
      rw [if_pos hskip, hkept, ih (j + 1) index _ (by omega)]
      · refine Prod.ext rfl (funext fun k => ?_)
        dsimp only
        rw [List.length_cons, show j + 1 + dist.length = j + (dist.length + 1) by omega]
        have hout : k < index ∨ ¬ k ≤ j + (dist.length + 1) → Function.update map (j + 1) (-1) k = map k :=
          fun hk => Function.update_of_ne (by omega) _ _
        split_ifs with hk hkj
        · exact hout (.inl hk)
        · rfl
        · rw [hout (.inr hkj)]
      · intro k hk hkj
        by_cases hkj' : k = j + 1
        · rw [hkj', Function.update_self]
        · rw [Function.update_of_ne hkj', hmap k hk (by omega)]
    · have hkept : kept i ((first, second) :: dist) = second :: kept i dist := by
        simp only [kept, List.filter_cons, hskip, not_false_eq_true, decide_true, if_true, List.map_cons]
      rw [if_neg hskip, hkept, ih (j + 1) (index + 1) _ (by omega)]
      · refine Prod.ext (by dsimp only; rw [List.length_cons]; omega) (funext fun k => ?_)
        dsimp only
        rw [List.length_cons, show j + 1 + dist.length = j + (dist.length + 1) by omega]
        rcases lt_trichotomy k index with hk | rfl | hk
        · rw [if_pos (by omega), if_pos hk, Function.update_of_ne hk.ne, Function.update_of_ne (by omega)]
        · rw [if_pos (by omega), if_neg (lt_irrefl k), Function.update_self, Nat.sub_self, List.getElem?_cons_zero,
            Option.elim_some]
        · have hsucc : k - index = k - (index + 1) + 1 := by omega
          rw [if_neg (show ¬ k < index + 1 by omega), if_neg (show ¬ k < index by omega), hsucc, List.getElem?_cons_succ]
          split_ifs with hkj
          · rfl
          · rw [Function.update_of_ne (by omega), Function.update_of_ne (by omega)]
      · intro k hk hkj
        rw [Function.update_of_ne (by omega)]
        by_cases hkj' : k = j + 1
        · rw [hkj', Function.update_self]
        · rw [Function.update_of_ne hkj', hmap k (by omega) (by omega)]

/-- The ids of a map in the order of its entries. -/
def sorted (i : ClientId) (dist : List (ℚ × ClientId)) : List ClientId :=
  (kept i dist).insertionSort (· ≤ ·)

/-- The new map: the first entry, the ids in ascending order, `-1`, and the memory behind the map. -/
lemma updatedMap_eq {i : ClientId} {dist : List (ℚ × ClientId)} (map : ℕ → ℤ)
    (hlength : (dist.take (vanillaMaxClients - 1)).length = vanillaMaxClients - 1)
    (hkept : (kept i (dist.take (vanillaMaxClients - 1))).length ≤ 14) (k : ℕ) :
    updatedMap i dist map k =
      if k = 0 then map k
      else ((sorted i (dist.take (vanillaMaxClients - 1)))[k - 1]?).elim
        (if k < vanillaMaxClients then -1 else map k) fun id => (id.val : ℤ) := by
  have hvanilla : vanillaMaxClients = 16 := rfl
  rw [updatedMap, fillMap_eq i _ 0 1 map (by omega) (fun k hk hk0 => absurd hk (by omega)), hlength]
  generalize hids : kept i (dist.take (vanillaMaxClients - 1)) = ids at hkept
  rw [sorted, hids]
  dsimp only
  rw [Nat.min_eq_left (by omega), sortMap, Nat.add_sub_cancel_left]
  have hentries : ((List.range' 1 ids.length).map fun k =>
      if k < 1 then map k
      else (ids[k - 1]?).elim (if k ≤ 0 + (vanillaMaxClients - 1) then -1 else map k) fun id => (id.val : ℤ)) =
        ids.map fun id => (id.val : ℤ) := by
    refine List.ext_getElem (by simp) fun m hm hm' => ?_
    have hmlt : m < ids.length := by simpa using hm'
    rw [List.getElem_map, List.getElem_range', List.getElem_map, if_neg (by omega),
      show 1 + 1 * m - 1 = m by omega, List.getElem?_eq_getElem hmlt, Option.elim_some]
  have hsort : (ids.map fun id => (id.val : ℤ)).insertionSort (· ≤ ·) =
      (ids.insertionSort (· ≤ ·)).map fun id => (id.val : ℤ) :=
    (List.map_insertionSort _ _ _ ids fun a _ b _ => by simp).symm
  rw [hentries, hsort]
  dsimp only
  rcases Nat.eq_zero_or_pos k with rfl | hk
  · rfl
  · rw [if_pos (show 1 ≤ k from hk), if_neg (show ¬ k < 1 by omega), if_neg hk.ne', List.getElem?_map]
    by_cases hin : k - 1 < ids.length
    · rw [List.getElem?_eq_getElem (by rwa [List.length_insertionSort])]
      rfl
    · rw [List.getElem?_eq_none (by rw [List.length_insertionSort]; omega), Option.map_none, Option.getD_none,
        Option.elim_none, List.getElem?_eq_none (by omega), Option.elim_none]
      exact if_congr (by omega) rfl rfl

/-! ### What the loop keeps -/

variable {lengthSquared} {this} {i : ClientId} {l : List (ℚ × ClientId)}

variable (this i) in
lemma dist_self : this.dist lengthSquared i i = -1 := if_pos rfl

lemma dist_nonneg (hnonneg : ∀ a b, 0 ≤ lengthSquared a b) {j : ClientId} (hj : j ≠ i) :
    0 ≤ this.dist lengthSquared i j := by
  rw [dist, if_neg hj]
  by_cases hin : this.ingame j = false
  · rw [if_pos hin]
    norm_num
  · rw [if_neg hin]
    cases this.player j with
    | none => norm_num
    | some player =>
      dsimp only
      cases player.character with
      | none => norm_num
      | some pos =>
        dsimp only
        by_cases hsnap : this.canSnapCharacter j i = false
        · rw [if_pos hsnap]
          norm_num
        · rw [if_neg hsnap]
          cases this.player i with
          | none => exact le_rfl
          | some viewer => exact hnonneg _ _

lemma dist_neg_iff (hnonneg : ∀ a b, 0 ≤ lengthSquared a b) {j : ClientId} :
    this.dist lengthSquared i j < 0 ↔ j = i := by
  constructor
  · intro hneg
    by_contra hj
    exact absurd (dist_nonneg hnonneg hj) (not_le.2 hneg)
  · rintro rfl
    rw [dist_self]
    norm_num

lemma ingame_of_dist_le {j : ClientId} (hj : j ≠ i) (hdist : this.dist lengthSquared i j ≤ 5000000000) :
    this.ingame j = true := by
  by_contra hout
  rw [dist, if_neg hj, if_pos (Bool.eq_false_of_not_eq_true hout)] at hdist
  norm_num at hdist

variable (lengthSquared this i) in
/-- The other players in game that the loop does not take for players outside of the game. -/
def near : Finset ClientId := (this.others i).filter fun j => this.dist lengthSquared i j ≤ 5000000000

lemma mem_others {j : ClientId} : j ∈ this.others i ↔ this.ingame j = true ∧ j ≠ i := by
  rw [others, Finset.mem_filter, and_iff_right (Finset.mem_univ j)]

lemma mem_near {j : ClientId} : j ∈ this.near lengthSquared i ↔ j ≠ i ∧ this.dist lengthSquared i j ≤ 5000000000 := by
  rw [near, Finset.mem_filter, mem_others]
  exact ⟨fun h => ⟨h.1.2, h.2⟩, fun h => ⟨⟨ingame_of_dist_le h.1 h.2, h.1⟩, h.2⟩⟩

lemma near_subset : this.near lengthSquared i ⊆ this.others i := Finset.filter_subset _ _

lemma mem_distances {x : ℚ × ClientId} (hx : x ∈ this.distances lengthSquared i) :
    x.1 = this.dist lengthSquared i x.2 := by
  obtain ⟨j, -, rfl⟩ := List.mem_map.1 hx
  rfl

lemma length_distances : (this.distances lengthSquared i).length = maxClients := by
  rw [distances, List.length_map, List.length_finRange]

lemma countP_distances (p : ℚ → Prop) [DecidablePred p] :
    (this.distances lengthSquared i).countP (fun x => p x.1) =
      (Finset.univ.filter fun j => p (this.dist lengthSquared i j)).card := by
  rw [distances, List.countP_map, List.countP_eq_length_filter,
    ← List.toFinset_card_of_nodup ((List.nodup_finRange maxClients).filter _)]
  congr 1
  ext j
  simp

lemma mem_kept {j : ClientId} : j ∈ kept i l ↔ ∃ d, (d, j) ∈ l ∧ j ≠ i ∧ d ≤ 5000000000 := by
  simp [kept]

lemma mem_sorted {j : ClientId} : j ∈ sorted i l ↔ j ∈ kept i l := List.mem_insertionSort _

/-- The small distances are those of the ids that are kept and that of the client itself. -/
lemma countP_eq_length_kept (hself : ∀ x ∈ l, x.1 < 0 ↔ x.2 = i) :
    l.countP (fun x => x.1 ≤ 5000000000) = (kept i l).length + l.countP fun x => x.1 < 0 := by
  induction l with
  | nil => rfl
  | cons x l ih =>
    have hx := hself x List.mem_cons_self
    have hl := ih fun y hy => hself y (List.mem_cons_of_mem x hy)
    rw [kept, List.length_map] at hl ⊢
    rw [List.countP_cons, List.countP_cons, hl]
    by_cases hi : x.2 = i
    · have hneg := hx.2 hi
      have hle : x.1 ≤ 5000000000 := by linarith
      simp only [List.filter_cons, hi, hneg, hle, true_or, not_true_eq_false, decide_false, decide_true,
        Bool.false_eq_true, if_false, if_true]
      omega
    · have hneg : ¬ x.1 < 0 := fun h => hi (hx.1 h)
      by_cases hle : x.1 ≤ 5000000000
      · simp only [List.filter_cons, hi, hneg, hle, not_lt.2 hle, false_or, not_false_eq_true, decide_false, decide_true,
          Bool.false_eq_true, if_false, if_true, List.length_cons]
        omega
      · simp only [List.filter_cons, hi, hneg, hle, not_le.1 hle, false_or, not_true_eq_false, decide_false,
          Bool.false_eq_true, if_false]
        omega

section Selected

variable (hnonneg : ∀ a b, 0 ≤ lengthSquared a b)
  (hselected : NthElement Prod.fst (vanillaMaxClients - 1) (this.distances lengthSquared i) l)

include hselected

lemma kept_subset {j : ClientId} (hj : j ∈ kept i (l.take (vanillaMaxClients - 1))) :
    j ∈ this.near lengthSquared i := by
  obtain ⟨d, hd, hne, hle⟩ := mem_kept.1 hj
  have hdist : d = this.dist lengthSquared i j := mem_distances (hselected.mem hd)
  exact mem_near.2 ⟨hne, hdist ▸ hle⟩

lemma nodup_kept : (kept i (l.take (vanillaMaxClients - 1))).Nodup := by
  have hids : (l.map Prod.snd).Nodup := by
    refine ((hselected.perm.map Prod.snd).nodup_iff).2 ?_
    rw [distances, List.map_map]
    exact (List.nodup_finRange maxClients).map fun _ _ h => h
  exact hids.sublist ((List.filter_sublist.trans (List.take_sublist _ _)).map Prod.snd)

lemma kept_closest {j k : ClientId} (hj : j ∈ kept i (l.take (vanillaMaxClients - 1))) (hk : k ∈ this.others i)
    (hnot : k ∉ kept i (l.take (vanillaMaxClients - 1))) :
    this.dist lengthSquared i j ≤ this.dist lengthSquared i k := by
  obtain ⟨d, hd, -, hle⟩ := mem_kept.1 hj
  have hdist : d = this.dist lengthSquared i j := mem_distances (hselected.mem hd)
  rcases le_or_gt (this.dist lengthSquared i k) 5000000000 with hnear | hfar
  · have hleft : (this.dist lengthSquared i k, k) ∉ l.take (vanillaMaxClients - 1) := fun hmem =>
      hnot (mem_kept.2 ⟨_, hmem, (mem_others.1 hk).2, hnear⟩)
    have hmem : (this.dist lengthSquared i k, k) ∈ this.distances lengthSquared i :=
      List.mem_map.2 ⟨k, List.mem_finRange k, rfl⟩
    exact hdist ▸ hselected.le_of_notMem hd hmem hleft
  · exact hdist ▸ hle.trans hfar.le

include hnonneg

/-- The client itself is always selected, and the others as long as there is room. -/
lemma length_kept :
    (kept i (l.take (vanillaMaxClients - 1))).length = min 14 (this.near lengthSquared i).card := by
  have hk : vanillaMaxClients - 1 ≤ (this.distances lengthSquared i).length := by
    rw [length_distances]
    norm_num [vanillaMaxClients, maxClients]
  have hself : (l.take (vanillaMaxClients - 1)).countP (fun x => x.1 < 0) = 1 := by
    rw [hselected.countP_take hk (· < 0) fun _ _ => lt_of_le_of_lt, countP_distances (· < 0)]
    have hsingle : (Finset.univ.filter fun j => this.dist lengthSquared i j < 0) = {i} := by
      ext j
      rw [Finset.mem_filter, Finset.mem_singleton, dist_neg_iff hnonneg, and_iff_right (Finset.mem_univ j)]
    rw [hsingle, Finset.card_singleton]
    rfl
  have hsmall : (l.take (vanillaMaxClients - 1)).countP (fun x => x.1 ≤ 5000000000) =
      min 15 ((this.near lengthSquared i).card + 1) := by
    rw [hselected.countP_take hk (· ≤ 5000000000) fun _ _ => le_trans, countP_distances (· ≤ 5000000000)]
    have hinsert : (Finset.univ.filter fun j => this.dist lengthSquared i j ≤ 5000000000) =
        insert i (this.near lengthSquared i) := by
      ext j
      rw [Finset.mem_filter, Finset.mem_insert, mem_near, and_iff_right (Finset.mem_univ j)]
      constructor
      · exact fun h => (eq_or_ne j i).imp_right fun hne => ⟨hne, h⟩
      · rintro (rfl | h)
        · rw [dist_self]
          norm_num
        · exact h.2
    rw [hinsert, Finset.card_insert_of_notMem fun h => (mem_near.1 h).1 rfl]
    rfl
  have hsplit := countP_eq_length_kept (i := i) (l := l.take (vanillaMaxClients - 1)) fun x hx => by
    rw [mem_distances (hselected.mem hx), dist_neg_iff hnonneg]
  omega

/-- The ids in the map are right exactly when as many others are near as the map should hold. -/
lemma closest_sorted_iff :
    this.Closest lengthSquared i (sorted i (l.take (vanillaMaxClients - 1))) ↔
      min 14 (this.others i).card ≤ (this.near lengthSquared i).card := by
  have hlength : (sorted i (l.take (vanillaMaxClients - 1))).length = min 14 (this.near lengthSquared i).card := by
    rw [sorted, List.length_insertionSort, length_kept hnonneg hselected]
  have hnodup : (sorted i (l.take (vanillaMaxClients - 1))).Nodup :=
    (List.perm_insertionSort _ _).nodup_iff.2 (nodup_kept hselected)
  constructor
  · intro hclosest
    rcases le_or_gt (this.others i).card 14 with hfew | hmany
    · have hall : this.others i ⊆ this.near lengthSquared i := fun j hj =>
        kept_subset hselected (mem_sorted.1 (hclosest.all hfew j hj))
      exact (min_le_right _ _).trans (Finset.card_le_card hall)
    · have hfull := hclosest.full hmany
      omega
  · intro hnear
    refine ⟨?_, fun j hj => near_subset (kept_subset hselected (mem_sorted.1 hj)), by omega, ?_, by omega,
      fun j hj k hk hnot => kept_closest hselected (mem_sorted.1 hj) hk fun hmem => hnot (mem_sorted.2 hmem)⟩
    · have hle : (sorted i (l.take (vanillaMaxClients - 1))).Pairwise (· ≤ ·) := List.pairwise_insertionSort _ _
      exact (hle.and hnodup).imp fun h => lt_of_le_of_ne h.1 h.2
    · -- all of the others are near, and there is room for them
      intro hfew j hj
      have hothers : this.near lengthSquared i = this.others i :=
        Finset.eq_of_subset_of_card_le near_subset (by omega)
      have hids : (sorted i (l.take (vanillaMaxClients - 1))).toFinset = this.others i := by
        refine Finset.eq_of_subset_of_card_le (fun k hk => ?_) ?_
        · exact hothers ▸ kept_subset hselected (mem_sorted.1 (List.mem_toFinset.1 hk))
        · rw [List.toFinset_card_of_nodup hnodup, hlength, hothers]
          omega
      exact List.mem_toFinset.1 (hids ▸ hj)

end Selected

/-! ### A map and its ids -/

lemma holds_unique {map : ℕ → ℤ} {ids ids' : List ClientId} (h : Holds map ids) (h' : Holds map ids')
    (hlength : ids.length ≤ 14) (hlength' : ids'.length ≤ 14) : ids = ids' := by
  refine List.ext_getElem? fun k => ?_
  rcases lt_or_ge k (vanillaMaxClients - 1) with hk | hk
  · have heq := (h k hk).symm.trans (h' k hk)
    cases hid : ids[k]? with
    | none =>
      cases hid' : ids'[k]? with
      | none => rfl
      | some id' =>
        rw [hid, hid', Option.elim_none, Option.elim_some] at heq
        omega
    | some id =>
      cases hid' : ids'[k]? with
      | none =>
        rw [hid, hid', Option.elim_none, Option.elim_some] at heq
        omega
      | some id' =>
        rw [hid, hid', Option.elim_some, Option.elim_some] at heq
        rw [Fin.ext (Int.ofNat_inj.1 heq)]
  · have hvanilla : vanillaMaxClients = 16 := rfl
    rw [List.getElem?_eq_none (by omega), List.getElem?_eq_none (by omega)]

/-- A map that holds ids translates them. -/
lemma translateRight_of_holds {ids : List ClientId} (hsixup : this.sixup i = false)
    (hversion : this.version i < versionDDNetOld) (hholds : Holds (this.idMap i) ids) (hlength : ids.length ≤ 14) :
    this.TranslateRight i := by
  have hvanilla : vanillaMaxClients = 16 := rfl
  have htranslate (id : ℤ) : this.translate id i =
      match (List.range vanillaMaxClients).find? fun k => id = this.idMap i k with
      | some k => (true, (k : ℤ))
      | none => (false, id) := by
    rw [translate, if_neg (by rw [hsixup]; exact Bool.false_ne_true), if_neg (not_le.2 hversion)]
  refine ⟨fun id hid hmem => ?_, fun id hid => ?_⟩
  · rw [htranslate]
    cases hfind : (List.range vanillaMaxClients).find? fun k => id = this.idMap i k with
    | none =>
      obtain ⟨k, hk, heq⟩ := hmem
      exact absurd (decide_eq_true heq.symm) (List.find?_eq_none.1 hfind k (List.mem_range.2 hk))
    | some k =>
      have hk : k < vanillaMaxClients := List.mem_range.1 (List.mem_of_find?_eq_some hfind)
      have hfound := List.find?_some hfind
      have heq : id = this.idMap i k := of_decide_eq_true hfound
      refine ⟨k, rfl, ?_⟩
      have hclamp : max 0 (min (k : ℤ) (vanillaMaxClients - 1)) = k := by omega
      rw [reverseTranslate, if_neg (by rw [hsixup]; exact Bool.false_ne_true), if_neg (not_le.2 hversion), hclamp]
      dsimp only
      rw [Int.toNat_natCast, ← heq, if_neg (by omega)]
  · rw [htranslate]
    cases hfind : (List.range vanillaMaxClients).find? fun k => id = this.idMap i k with
    | none =>
      have hnone : ∀ k < vanillaMaxClients, this.idMap i k ≠ id := fun k hk heq =>
        List.find?_eq_none.1 hfind k (List.mem_range.2 hk) (decide_eq_true heq.symm)
      -- the last entry is `-1`
      have hlast : this.idMap i 15 = -1 := by
        rw [hholds 14 (by omega), List.getElem?_eq_none (by omega), Option.elim_none]
      have hne := hnone 15 (by omega)
      exact ⟨fun _ => ⟨by omega, hnone⟩, fun _ => rfl⟩
    | some k =>
      have hfound := List.find?_some hfind
      have heq : id = this.idMap i k := of_decide_eq_true hfound
      exact ⟨fun h => absurd h.symm Bool.false_ne_true,
        fun h => absurd heq.symm (h.2 k (List.mem_range.1 (List.mem_of_find?_eq_some hfind)))⟩

/-! ### All maps -/

lemma foldl_update {dist : ClientId → List (ℚ × ClientId)} {clients : List ClientId} (hnodup : clients.Nodup)
    (idMap : ClientId → ℕ → ℤ) (i : ClientId) :
    clients.foldl (fun idMap i => if this.Old i then Function.update idMap i (updatedMap i (dist i) (idMap i)) else idMap)
        idMap i =
      if i ∈ clients ∧ this.Old i then updatedMap i (dist i) (idMap i) else idMap i := by
  induction clients generalizing idMap with
  | nil => rw [List.foldl_nil, if_neg fun h => List.not_mem_nil h.1]
  | cons j clients ih =>
    rw [List.nodup_cons] at hnodup
    rw [List.foldl_cons, ih hnodup.2]
    by_cases hij : i = j
    · subst hij
      rw [if_neg fun h => hnodup.1 h.1]
      by_cases hold : this.Old i
      · rw [if_pos hold, if_pos ⟨List.mem_cons_self, hold⟩, Function.update_self]
      · rw [if_neg hold, if_neg fun h => hold h.2]
    · have hother : (if this.Old j then Function.update idMap j (updatedMap j (dist j) (idMap j)) else idMap) i =
          idMap i := by
        split_ifs
        · exact Function.update_of_ne hij _ _
        · rfl
      rw [hother]
      exact if_congr (by rw [List.mem_cons, or_iff_right hij]) rfl rfl

variable {dist : ClientId → List (ℚ × ClientId)}

/-- Between the updates nothing changes. -/
theorem updatePlayerMaps_of_not_due (hdue : this.tick % this.svMapUpdateRate ≠ 0) :
    this.updatePlayerMaps dist = this := if_pos hdue

lemma idMap_updatePlayerMaps (hdue : this.tick % this.svMapUpdateRate = 0) (hold : this.Old i) :
    (this.updatePlayerMaps dist).idMap i = updatedMap i (dist i) (this.idMap i) := by
  rw [updatePlayerMaps, if_neg (not_not.2 hdue)]
  dsimp only
  rw [foldl_update (List.nodup_finRange maxClients), if_pos ⟨List.mem_finRange i, hold⟩]

/-- The maps of clients with newer versions, and of slots out of game, stay as they are. -/
theorem idMap_updatePlayerMaps_of_not_old (hold : ¬ this.Old i) :
    (this.updatePlayerMaps dist).idMap i = this.idMap i := by
  rw [updatePlayerMaps]
  split_ifs
  · rfl
  · dsimp only
    rw [foldl_update (List.nodup_finRange maxClients), if_neg fun h => hold h.2]

/-- A right map is a partial bijection, as its first entry is the id of the client. -/
theorem MapRight.injective {before after : ℕ → ℤ} (h : this.MapRight lengthSquared i before after)
    (hfirst : before 0 = i.val) {k m : ℕ} (hk : k < vanillaMaxClients) (hm : m < vanillaMaxClients)
    (hid : after k ≠ -1) (heq : after k = after m) : k = m := by
  obtain ⟨ids, hclosest, hholds⟩ := h.holds
  have hzero : after 0 = i.val := h.first.trans hfirst
  have hentry : ∀ k < vanillaMaxClients, k ≠ 0 → after k ≠ -1 →
      ∃ j : ClientId, ids[k - 1]? = some j ∧ j ≠ i ∧ after k = j.val := by
    intro k hk hk0 hid
    have hat := hholds (k - 1) (by omega)
    rw [Nat.sub_add_cancel (by omega)] at hat
    cases hj : ids[k - 1]? with
    | none =>
      rw [hj, Option.elim_none] at hat
      exact absurd hat hid
    | some j =>
      rw [hj, Option.elim_some] at hat
      exact ⟨j, rfl, (mem_others.1 (hclosest.subset j (List.mem_of_getElem? hj))).2, hat⟩
  have hself : ∀ m < vanillaMaxClients, m ≠ 0 → after m ≠ i.val := by
    intro m hm hm0 hat
    obtain ⟨j, -, hne, hj⟩ := hentry m hm hm0 (by omega)
    exact hne (Fin.ext (Int.ofNat_inj.1 (hj.symm.trans hat)))
  by_cases hk0 : k = 0
  · subst hk0
    by_contra hm0
    exact hself m hm (Ne.symm hm0) (heq ▸ hzero)
  · by_cases hm0 : m = 0
    · subst hm0
      exact absurd (heq.trans hzero) (hself k hk hk0)
    · obtain ⟨j, hj, -, hjk⟩ := hentry k hk hk0 hid
      obtain ⟨j', hj', -, hjm⟩ := hentry m hm hm0 (heq ▸ hid)
      have hsame : j = j' := Fin.ext (Int.ofNat_inj.1 (hjk.symm.trans (heq.trans hjm)))
      have hlt : k - 1 < ids.length := (List.getElem?_eq_some_iff.1 hj).1
      have hplace := (List.getElem?_inj hlt (hclosest.ascending.imp ne_of_lt)).1 (hj.trans (hsame ▸ hj'.symm))
      omega

/-- The updated map is right exactly when as many others are near as it should hold. -/
lemma mapRight_updatedMap_iff (hnonneg : ∀ a b, 0 ≤ lengthSquared a b)
    (hselected : NthElement Prod.fst (vanillaMaxClients - 1) (this.distances lengthSquared i) l) (map : ℕ → ℤ) :
    this.MapRight lengthSquared i map (updatedMap i l map) ↔
      min 14 (this.others i).card ≤ (this.near lengthSquared i).card := by
  have hvanilla : vanillaMaxClients = 16 := rfl
  have hlength : (sorted i (l.take (vanillaMaxClients - 1))).length ≤ 14 := by
    rw [sorted, List.length_insertionSort, length_kept hnonneg hselected]
    exact min_le_left _ _
  have heq := updatedMap_eq map (hselected.length_take (by
    rw [length_distances]
    norm_num [vanillaMaxClients, maxClients])) ((length_kept hnonneg hselected).trans_le (min_le_left _ _))
  have hholds : Holds (updatedMap i l map) (sorted i (l.take (vanillaMaxClients - 1))) := by
    intro k hk
    rw [heq, if_neg k.succ_ne_zero, Nat.add_sub_cancel, if_pos (show k + 1 < vanillaMaxClients by omega)]
  rw [← closest_sorted_iff hnonneg hselected]
  constructor
  · rintro ⟨-, -, ids, hclosest, hholds'⟩
    rwa [holds_unique hholds' hholds hclosest.length_le hlength] at hclosest
  · intro hclosest
    refine ⟨by rw [heq, if_pos rfl], fun k hk => ?_, _, hclosest, hholds⟩
    rw [heq, if_neg (by omega), List.getElem?_eq_none (by omega), Option.elim_none, if_neg (by omega)]

/-- A due update leaves the map of an old client right, and the translation with it, exactly when enough of the others
are near: all of them, or 14.  Between the updates the map is right only if it was right before. -/
theorem updatePlayerMaps_iff (hnonneg : ∀ a b, 0 ≤ lengthSquared a b) (hold : this.Old i)
    (hselected : NthElement Prod.fst (vanillaMaxClients - 1) (this.distances lengthSquared i) (dist i)) :
    (this.MapRight lengthSquared i (this.idMap i) ((this.updatePlayerMaps dist).idMap i) ∧
        (this.sixup i = false → (this.updatePlayerMaps dist).TranslateRight i)) ↔
      if this.tick % this.svMapUpdateRate = 0 then
        min 14 (this.others i).card ≤ (this.near lengthSquared i).card
      else this.MapRight lengthSquared i (this.idMap i) (this.idMap i) := by
  have htranslate (hright : this.MapRight lengthSquared i (this.idMap i) ((this.updatePlayerMaps dist).idMap i))
      (hsixup : this.sixup i = false) : (this.updatePlayerMaps dist).TranslateRight i := by
    obtain ⟨ids, hclosest, hholds⟩ := hright.holds
    have hkept : (this.updatePlayerMaps dist).sixup = this.sixup ∧
        (this.updatePlayerMaps dist).version = this.version := by
      rw [updatePlayerMaps]
      split_ifs <;> exact ⟨rfl, rfl⟩
    exact translateRight_of_holds (by rw [hkept.1, hsixup]) (by rw [hkept.2]; exact hold.2) hholds hclosest.length_le
  rw [and_iff_left_of_imp fun hright => htranslate hright]
  split_ifs with hdue
  · rw [idMap_updatePlayerMaps hdue hold, mapRight_updatedMap_iff hnonneg hselected]
  · rw [updatePlayerMaps_of_not_due hdue]

section Samples

/-- Two players with clients of the old version, the first one at the start and the second one at `pos`. -/
def twoPlayers (pos : ℚ) : MapContext ℚ where
  tick := 0
  svMapUpdateRate := 5
  ingame j := j = 0 || j = 1
  sixup _ := false
  version _ := 0
  player j := if j = 0 then some ⟨0, some 0⟩ else if j = 1 then some ⟨pos, some pos⟩ else none
  player_of_ingame j hj := by
    by_cases h0 : j = 0
    · rw [if_pos h0, Option.isSome_some]
    · have h1 : j = 1 := by simpa [h0] using hj
      rw [if_neg h0, if_pos h1, Option.isSome_some]
  canSnapCharacter _ _ := true
  idMap i k := if k = 0 then i.val else -1

/-- The square of a distance on a line. -/
def squareOnLine (a b : ℚ) : ℚ := (a - b) ^ 2

/-- The distances from the first player, sorted. -/
def sortedDistances (pos : ℚ) : List (ℚ × ClientId) :=
  ((twoPlayers pos).distances squareOnLine 0).insertionSort fun x y => x.1 ≤ y.1

lemma squareOnLine_nonneg (a b : ℚ) : 0 ≤ squareOnLine a b := sq_nonneg _

lemma nthElement_sortedDistances (pos : ℚ) :
    NthElement Prod.fst (vanillaMaxClients - 1) ((twoPlayers pos).distances squareOnLine 0) (sortedDistances pos) := by
  have htotal : Std.Total fun x y : ℚ × ClientId => x.1 ≤ y.1 := ⟨fun x y => le_total x.1 y.1⟩
  have htrans : IsTrans (ℚ × ClientId) fun x y => x.1 ≤ y.1 := ⟨fun _ _ _ => le_trans⟩
  exact .of_pairwise (List.perm_insertionSort _ _) (List.pairwise_insertionSort _ _) _

lemma old_twoPlayers (pos : ℚ) : (twoPlayers pos).Old 0 := ⟨rfl, by norm_num [twoPlayers, versionDDNetOld]⟩

lemma others_twoPlayers (pos : ℚ) : (twoPlayers pos).others 0 = {1} := by
  ext j
  rw [mem_others, Finset.mem_singleton]
  constructor
  · rintro ⟨hj, h0⟩
    simpa [twoPlayers, h0] using hj
  · rintro rfl
    exact ⟨rfl, by decide⟩

lemma dist_twoPlayers (pos : ℚ) : (twoPlayers pos).dist squareOnLine 0 1 = pos ^ 2 := by
  have hne : (1 : ClientId) ≠ 0 := by decide
  simp [dist, twoPlayers, squareOnLine, hne]

/-- A player near by is told of. -/
theorem updatePlayerMaps_iff_near :
    (twoPlayers 10).MapRight squareOnLine 0 ((twoPlayers 10).idMap 0)
        (((twoPlayers 10).updatePlayerMaps fun _ => sortedDistances 10).idMap 0) ∧
      ((twoPlayers 10).sixup 0 = false →
        ((twoPlayers 10).updatePlayerMaps fun _ => sortedDistances 10).TranslateRight 0) := by
  refine (updatePlayerMaps_iff squareOnLine_nonneg (old_twoPlayers 10) (nthElement_sortedDistances 10)).2 ?_
  rw [if_pos (show (twoPlayers 10).tick % (twoPlayers 10).svMapUpdateRate = 0 from rfl), others_twoPlayers,
    Finset.card_singleton]
  have hmem : (1 : ClientId) ∈ (twoPlayers 10).near squareOnLine 0 := by
    rw [mem_near, dist_twoPlayers]
    exact ⟨by decide, by norm_num⟩
  exact (min_le_right _ _).trans (Finset.card_pos.2 ⟨1, hmem⟩)

/-- A player far away is not, although there is room. -/
theorem updatePlayerMaps_far :
    (∀ a b, 0 ≤ squareOnLine a b) ∧ (twoPlayers 80000).Old 0 ∧
      NthElement Prod.fst (vanillaMaxClients - 1) ((twoPlayers 80000).distances squareOnLine 0)
        (sortedDistances 80000) ∧
      (twoPlayers 80000).tick % (twoPlayers 80000).svMapUpdateRate = 0 ∧
      ¬ (twoPlayers 80000).MapRight squareOnLine 0 ((twoPlayers 80000).idMap 0)
        (((twoPlayers 80000).updatePlayerMaps fun _ => sortedDistances 80000).idMap 0) := by
  refine ⟨squareOnLine_nonneg, old_twoPlayers _, nthElement_sortedDistances _, rfl, ?_⟩
  rw [idMap_updatePlayerMaps rfl (old_twoPlayers _),
    mapRight_updatedMap_iff squareOnLine_nonneg (nthElement_sortedDistances _), others_twoPlayers]
  have hempty : (twoPlayers 80000).near squareOnLine 0 = ∅ := by
    refine Finset.eq_empty_of_forall_notMem fun j hj => ?_
    have hj1 : j = 1 := Finset.mem_singleton.1 (others_twoPlayers 80000 ▸ near_subset hj)
    have hdist := (mem_near.1 hj).2
    rw [hj1, dist_twoPlayers] at hdist
    norm_num at hdist
  rw [hempty, Finset.card_singleton, Finset.card_empty]
  norm_num

end Samples

end MapContext

end CGameContext

end DDNet
