/-
A pass over a list that counts each group at its first eligible member.

What is counted for a group is the member with the highest position among the first eligible one and those behind it,
whether these are eligible or not.
-/
import Mathlib

namespace DDNet.Lib

variable {ι κ β : Type} [DecidableEq κ] [LinearOrder β]
  (present eligible : ι → Prop) [DecidablePred present] [DecidablePred eligible] (key : ι → κ) (pos : ι → β)

/-- The higher one of two members of the group of `x`, the first one if both are equally high. -/
def higher (x w y : ι) : ι := if present y ∧ key y = key x ∧ pos w < pos y then y else w

/-- The member with the highest position, the first one of those if there are several. -/
def latest (x : ι) (later : List ι) : ι := later.foldl (higher present key pos x) x

/-- The groups in the order in which they are counted, each with the member that is counted for it. -/
def groupPass (seen : List κ) : List ι → List (κ × ι)
  | [] => []
  | x :: l =>
    if eligible x ∧ key x ∉ seen then (key x, latest present key pos x l) :: groupPass (key x :: seen) l
    else groupPass seen l

variable {present eligible key pos} {x y w : ι} {l later : List ι} {seen : List κ} {a : κ}

/-! ### The highest position -/

variable (key pos) in
lemma latest_present (hx : present x) (later : List ι) :
    present (latest present key pos x later) ∧ key (latest present key pos x later) = key x := by
  have hloop : ∀ (l : List ι) (w : ι), present w → key w = key x →
      present (l.foldl (higher present key pos x) w) ∧ key (l.foldl (higher present key pos x) w) = key x := by
    intro l
    induction l with
    | nil => exact fun w hw hkey => ⟨hw, hkey⟩
    | cons y l ih =>
      intro w hw hkey
      rw [List.foldl_cons, higher]
      split_ifs with hy
      · exact ih y hy.1 hy.2.1
      · exact ih w hw hkey
  exact hloop later x hx rfl

variable (present key pos) in
lemma latest_eq_or_lt (x : ι) (later : List ι) :
    latest present key pos x later = x ∨ pos x < pos (latest present key pos x later) := by
  have hloop : ∀ (l : List ι) (w : ι), w = x ∨ pos x < pos w →
      l.foldl (higher present key pos x) w = x ∨ pos x < pos (l.foldl (higher present key pos x) w) := by
    intro l
    induction l with
    | nil => exact fun w hw => hw
    | cons y l ih =>
      intro w hw
      rw [List.foldl_cons, higher]
      split_ifs with hy
      · refine ih y (.inr ?_)
        obtain rfl | hw := hw
        · exact hy.2.2
        · exact lt_trans hw hy.2.2
      · exact ih w hw
  exact hloop later x (.inl rfl)

lemma foldl_higher_of_le (hle : ∀ z ∈ l, present z → key z = key x → pos z ≤ pos y) :
    l.foldl (higher present key pos x) y = y := by
  induction l with
  | nil => rfl
  | cons z l ih =>
    rw [List.foldl_cons, higher, if_neg fun h => not_lt.2 (hle z List.mem_cons_self h.1 h.2.1) h.2.2]
    exact ih fun w hw => hle w (List.mem_cons_of_mem z hw)

lemma latest_of_le (hle : ∀ z ∈ later, present z → key z = key x → pos z ≤ pos x) :
    latest present key pos x later = x :=
  foldl_higher_of_le hle

/-- A member that follows at once and is higher than the first one, but not lower than any later one, is the highest. -/
lemma latest_cons_of_lt (hy : present y) (hkey : key y = key x) (hlt : pos x < pos y)
    (hle : ∀ z ∈ later, present z → key z = key x → pos z ≤ pos y) :
    latest present key pos x (y :: later) = y := by
  rw [latest, List.foldl_cons, higher, if_pos ⟨hy, hkey, hlt⟩]
  exact foldl_higher_of_le hle

variable (present key pos) in
lemma le_pos_latest (x : ι) (later : List ι) :
    pos x ≤ pos (latest present key pos x later) ∧
      ∀ y ∈ later, present y → key y = key x → pos y ≤ pos (latest present key pos x later) := by
  have hloop : ∀ (l : List ι) (w : ι),
      pos w ≤ pos (l.foldl (higher present key pos x) w) ∧
        ∀ y ∈ l, present y → key y = key x → pos y ≤ pos (l.foldl (higher present key pos x) w) := by
    intro l
    induction l with
    | nil => exact fun w => ⟨le_rfl, fun y hy => absurd hy List.not_mem_nil⟩
    | cons z l ih =>
      intro w
      rw [List.foldl_cons, higher]
      by_cases hz : present z ∧ key z = key x ∧ pos w < pos z
      · rw [if_pos hz]
        refine ⟨le_trans (le_of_lt hz.2.2) (ih z).1, fun y hy hpresent hkey => ?_⟩
        obtain rfl | hy := List.mem_cons.1 hy
        · exact (ih y).1
        · exact (ih z).2 y hy hpresent hkey
      · rw [if_neg hz]
        refine ⟨(ih w).1, fun y hy hpresent hkey => ?_⟩
        obtain rfl | hy := List.mem_cons.1 hy
        · have hle : pos y ≤ pos w := not_lt.1 fun hlt => hz ⟨hpresent, hkey, hlt⟩
          exact le_trans hle (ih w).1
        · exact (ih w).2 y hy hpresent hkey
  exact hloop later x

/-! ### The pass -/

lemma mem_keys_groupPass :
    a ∈ (groupPass present eligible key pos seen l).map Prod.fst ↔ a ∉ seen ∧ ∃ x ∈ l, eligible x ∧ key x = a := by
  induction l generalizing seen with
  | nil => simp [groupPass]
  | cons x l ih =>
    rw [groupPass]
    split_ifs with hx
    · rw [List.map_cons, List.mem_cons, ih]
      constructor
      · rintro (rfl | ⟨hseen, y, hy, hy'⟩)
        · exact ⟨hx.2, x, List.mem_cons_self, hx.1, rfl⟩
        · exact ⟨fun h => hseen (List.mem_cons_of_mem _ h), y, List.mem_cons_of_mem x hy, hy'⟩
      · rintro ⟨hseen, y, hy, hy', rfl⟩
        by_cases hkey : key y = key x
        · exact .inl hkey
        · obtain rfl | hy := List.mem_cons.1 hy
          · exact absurd rfl hkey
          · refine .inr ⟨fun h => ?_, y, hy, hy', rfl⟩
            exact (List.mem_cons.1 h).elim hkey hseen
    · rw [ih]
      constructor
      · rintro ⟨hseen, y, hy, hy'⟩
        exact ⟨hseen, y, List.mem_cons_of_mem x hy, hy'⟩
      · rintro ⟨hseen, y, hy, hy', rfl⟩
        obtain rfl | hy := List.mem_cons.1 hy
        · exact absurd ⟨hy', hseen⟩ hx
        · exact ⟨hseen, y, hy, hy', rfl⟩

/-- Every group is counted once. -/
lemma nodup_keys_groupPass : ((groupPass present eligible key pos seen l).map Prod.fst).Nodup := by
  induction l generalizing seen with
  | nil => exact List.nodup_nil
  | cons x l ih =>
    rw [groupPass]
    split_ifs with hx
    · rw [List.map_cons, List.nodup_cons]
      exact ⟨fun hmem => (mem_keys_groupPass.1 hmem).1 List.mem_cons_self, ih⟩
    · exact ih

/-- What is counted for a group is the highest one from its first eligible member on. -/
lemma mem_groupPass_iff :
    (a, w) ∈ groupPass present eligible key pos seen l ↔
      a ∉ seen ∧ ∃ before x later, l = before ++ x :: later ∧ eligible x ∧ key x = a ∧
        (∀ y ∈ before, eligible y → key y ≠ a) ∧ latest present key pos x later = w := by
  induction l generalizing seen with
  | nil => simp [groupPass]
  | cons z l ih =>
    rw [groupPass]
    split_ifs with hz
    · rw [List.mem_cons, ih, Prod.mk.injEq]
      constructor
      · rintro (⟨rfl, rfl⟩ | ⟨hseen, before, x, later, rfl, hx, hkey, hbefore, hw⟩)
        · exact ⟨hz.2, [], z, l, rfl, hz.1, rfl, by simp, rfl⟩
        · obtain ⟨hne, hseen⟩ := not_or.1 fun h => hseen (List.mem_cons.2 h)
          refine ⟨hseen, z :: before, x, later, rfl, hx, hkey, fun y hy hy' => ?_, hw⟩
          obtain rfl | hy := List.mem_cons.1 hy
          · exact Ne.symm hne
          · exact hbefore y hy hy'
      · rintro ⟨hseen, before, x, later, hl, hx, hkey, hbefore, hw⟩
        obtain _ | ⟨y, before⟩ := before
        · obtain ⟨rfl, rfl⟩ := List.cons.inj hl
          exact .inl ⟨hkey.symm, hw.symm⟩
        · obtain ⟨rfl, rfl⟩ := List.cons.inj hl
          have hne : key z ≠ a := hbefore z List.mem_cons_self hz.1
          refine .inr ⟨fun h => ?_, before, x, later, rfl, hx, hkey, fun y hy => ?_, hw⟩
          · exact (List.mem_cons.1 h).elim (fun h => hne h.symm) hseen
          · exact hbefore y (List.mem_cons_of_mem z hy)
    · rw [ih]
      refine and_congr_right fun hseen => ?_
      constructor
      · rintro ⟨before, x, later, rfl, hx, hkey, hbefore, hw⟩
        refine ⟨z :: before, x, later, rfl, hx, hkey, fun y hy hy' => ?_, hw⟩
        obtain rfl | hy := List.mem_cons.1 hy
        · exact fun h => hz ⟨hy', h ▸ hseen⟩
        · exact hbefore y hy hy'
      · rintro ⟨before, x, later, hl, hx, hkey, hbefore, hw⟩
        obtain _ | ⟨y, before⟩ := before
        · obtain ⟨rfl, rfl⟩ := List.cons.inj hl
          exact absurd ⟨hx, hkey ▸ hseen⟩ hz
        · obtain ⟨rfl, rfl⟩ := List.cons.inj hl
          exact ⟨before, x, later, rfl, hx, hkey, fun y hy => hbefore y (List.mem_cons_of_mem z hy), hw⟩

/-- It is a member that is not lower than any eligible one, and is eligible itself or higher than an eligible one. -/
lemma mem_groupPass (hpresent : ∀ x, eligible x → present x)
    (h : (a, w) ∈ groupPass present eligible key pos seen l) :
    present w ∧ key w = a ∧ (∀ x ∈ l, eligible x → key x = a → pos x ≤ pos w) ∧
      (eligible w ∨ ∃ x, eligible x ∧ key x = a ∧ pos x < pos w) := by
  obtain ⟨-, before, x, later, rfl, hx, rfl, hbefore, rfl⟩ := mem_groupPass_iff.1 h
  obtain ⟨hw, hkey⟩ := latest_present key pos (hpresent x hx) later
  obtain ⟨hle, hle'⟩ := le_pos_latest present key pos x later
  refine ⟨hw, hkey, fun y hy hy' hkey' => ?_, ?_⟩
  · obtain hy | hy := List.mem_append.1 hy
    · exact absurd hkey' (hbefore y hy hy')
    · obtain rfl | hy := List.mem_cons.1 hy
      · exact hle
      · exact hle' y hy (hpresent y hy') hkey'
  · obtain heq | hlt := latest_eq_or_lt present key pos x later
    · exact .inl (heq.symm ▸ hx)
    · exact .inr ⟨x, hx, rfl, hlt⟩

end DDNet.Lib
