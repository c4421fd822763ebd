/-
Texts of IPv6 addresses: eight groups of hexadecimal digits between colons, of which some that are zero may be left out
once for two colons.

`Represents text groups` says that the text stands for the groups.  `read` reads a text, and reads every text that stands
for groups as these groups (`read_of_represents`).
-/
import DDNet.Lib.JsonParse

namespace DDNet.Lib.Ipv6Text

open Json (hexValue hexValues)

/-- `:` -/
def colon : UInt8 := 58

/-- One to four hexadecimal digits with this value. -/
def IsGroup (text : List UInt8) (n : ℕ) : Prop := (1 ≤ text.length ∧ text.length ≤ 4) ∧ hexValues text = some n

/-- Groups with colons between them. -/
def join (texts : List (List UInt8)) : List UInt8 := [colon].intercalate texts

/-- The text stands for the groups. -/
inductive Represents : List UInt8 → List ℕ → Prop
  | full {texts : List (List UInt8)} {groups : List ℕ} (hgroups : List.Forall₂ IsGroup texts groups)
      (hlength : groups.length = 8) : Represents (join texts) groups
  | short {left right : List (List UInt8)} {leftGroups rightGroups : List ℕ}
      (hleft : List.Forall₂ IsGroup left leftGroups) (hright : List.Forall₂ IsGroup right rightGroups) (zeros : ℕ)
      (hzeros : 0 < zeros) (hlength : leftGroups.length + zeros + rightGroups.length = 8) :
      Represents (join left ++ colon :: colon :: join right) (leftGroups ++ List.replicate zeros 0 ++ rightGroups)

/-! ### Reading -/

/-- What is in front of the first two colons that follow each other, and what is behind them. -/
def cut : List UInt8 → Option (List UInt8 × List UInt8)
  | [] => none
  | c :: text =>
    if c = colon ∧ text.head? = some colon then some ([], text.tail)
    else (cut text).map fun (left, right) => (c :: left, right)

/-- A group. -/
def readGroup (text : List UInt8) : Option ℕ :=
  if 1 ≤ text.length ∧ text.length ≤ 4 then hexValues text else none

/-- The groups between colons; none of them for the empty text. -/
def readGroups (text : List UInt8) : Option (List ℕ) :=
  if text = [] then some [] else (text.splitOn colon).mapM readGroup

/-- The groups of an address. -/
def read (text : List UInt8) : Option (List ℕ) :=
  match cut text with
  | none => (readGroups text).filter fun groups => groups.length = 8
  | some (left, right) =>
    (readGroups left).bind fun left => (readGroups right).bind fun right =>
      if left.length + right.length < 8 then
        some (left ++ List.replicate (8 - (left.length + right.length)) 0 ++ right)
      else none

variable {text rest : List UInt8} {texts : List (List UInt8)} {groups : List ℕ}

/-! ### Groups -/

lemma hexValue_colon : hexValue colon = none := by decide

lemma isSome_of_foldlM {n m : ℕ} (h : text.foldlM (fun n c => (hexValue c).map fun d => 16 * n + d) n = some m) :
    ∀ c ∈ text, (hexValue c).isSome := by
  induction text generalizing n with
  | nil => exact fun c hc => absurd hc List.not_mem_nil
  | cons c text ih =>
    rw [List.foldlM_cons] at h
    obtain ⟨n', hn', hrest⟩ := Option.bind_eq_some_iff.1 h
    obtain ⟨d, hd, -⟩ := Option.map_eq_some_iff.1 hn'
    exact List.forall_mem_cons.2 ⟨Option.isSome_of_eq_some hd, ih hrest⟩

lemma IsGroup.not_mem {n : ℕ} (h : IsGroup text n) : colon ∉ text := by
  rintro hmem
  have hsome := isSome_of_foldlM h.2 colon hmem
  rw [hexValue_colon] at hsome
  exact absurd hsome (by decide)

lemma IsGroup.ne_nil {n : ℕ} (h : IsGroup text n) : text ≠ [] := by
  rintro rfl
  exact absurd h.1.1 (by decide)

lemma IsGroup.read {n : ℕ} (h : IsGroup text n) : readGroup text = some n := by
  rw [readGroup, if_pos h.1, h.2]

lemma mapM_readGroup (h : List.Forall₂ IsGroup texts groups) : texts.mapM readGroup = some groups := by
  induction h with
  | nil => rfl
  | cons hgroup _ ih =>
    rw [List.mapM_cons, hgroup.read, ih]
    rfl

/-- Every text of the list is not empty and has no colon. -/
def Proper (texts : List (List UInt8)) : Prop := ∀ text ∈ texts, text ≠ [] ∧ colon ∉ text

lemma proper_of_groups (h : List.Forall₂ IsGroup texts groups) : Proper texts := by
  induction h with
  | nil => exact fun text htext => absurd htext List.not_mem_nil
  | cons hgroup _ ih => exact List.forall_mem_cons.2 ⟨⟨hgroup.ne_nil, hgroup.not_mem⟩, ih⟩

lemma join_cons_cons (text text' : List UInt8) (texts : List (List UInt8)) :
    join (text :: text' :: texts) = text ++ colon :: join (text' :: texts) := by
  rw [join, List.intercalate_cons_cons, List.append_assoc]
  rfl

lemma join_cons (text : List UInt8) (texts : List (List UInt8)) :
    join (text :: texts) = text ++ texts.flatMap fun text => colon :: text := by
  induction texts generalizing text with
  | nil => rw [join, List.intercalate_singleton, List.flatMap_nil, List.append_nil]
  | cons text' texts ih => rw [join_cons_cons, ih, List.flatMap_cons, List.cons_append]

lemma join_ne_nil (h : Proper (text :: texts)) : ∃ c rest, join (text :: texts) = c :: rest ∧ c ≠ colon := by
  obtain ⟨⟨hne, hcolon⟩, -⟩ := List.forall_mem_cons.1 h
  rcases text with _ | ⟨c, text⟩
  · exact absurd rfl hne
  have hc : c ≠ colon := fun h => hcolon (h ▸ List.mem_cons_self)
  rcases texts with _ | ⟨text', texts⟩
  · exact ⟨c, text, List.intercalate_singleton, hc⟩
  · exact ⟨c, _, join_cons_cons (c :: text) text' texts, hc⟩

lemma readGroups_join (h : List.Forall₂ IsGroup texts groups) : readGroups (join texts) = some groups := by
  rcases texts with _ | ⟨text, texts⟩
  · rw [List.forall₂_nil_left_iff] at h
    rw [h]
    rfl
  · have hproper := proper_of_groups h
    obtain ⟨c, rest, hjoin, -⟩ := join_ne_nil hproper
    rw [readGroups, if_neg (by rw [hjoin]; exact List.cons_ne_nil _ _), join,
      List.splitOn_intercalate _ (fun text htext => (hproper text htext).2) (List.cons_ne_nil _ _), mapM_readGroup h]

/-! ### Writing a group -/

/-- The hexadecimal digits of a number, without leading zeros. -/
def hexadecimal (n : ℕ) : List UInt8 := (Nat.toDigits 16 n).map fun c => UInt8.ofNat c.toNat

lemma hexValue_digitChar {n : ℕ} (hn : n < 16) : hexValue (UInt8.ofNat n.digitChar.toNat) = some n := by
  interval_cases n <;> rfl

lemma hexValues_hexadecimal (n : ℕ) : hexValues (hexadecimal n) = some n := by
  induction n using Nat.strong_induction_on with
  | _ n ih =>
    by_cases hlt : n < 16
    · rw [hexadecimal, Nat.toDigits_of_lt_base hlt, List.map_singleton, hexValues, List.foldlM_cons,
        hexValue_digitChar hlt]
      simp
    · have hlast := hexValue_digitChar (Nat.mod_lt n (by norm_num : 16 > 0))
      have hfront := ih (n / 16) (by omega)
      rw [hexadecimal, hexValues] at hfront
      rw [hexadecimal, Nat.toDigits_of_base_le (by norm_num) (by omega), List.map_append, hexValues, List.foldlM_append,
        hfront, List.map_singleton, Option.bind_eq_bind, Option.bind_some, List.foldlM_cons, hlast, Option.map_some]
      exact congrArg some (Nat.div_add_mod n 16)

lemma length_hexadecimal_le {n : ℕ} (hn : n < 2 ^ 16) : (hexadecimal n).length ≤ 4 := by
  rw [hexadecimal, List.length_map]
  exact (Nat.length_toDigits_le_iff (by norm_num) (by norm_num)).2 hn

/-- A number of 16 bits is written as a group. -/
lemma isGroup_hexadecimal {n : ℕ} (hn : n < 2 ^ 16) : IsGroup (hexadecimal n) n := by
  refine ⟨⟨?_, length_hexadecimal_le hn⟩, hexValues_hexadecimal n⟩
  rw [hexadecimal, List.length_map]
  exact Nat.length_toDigits_pos

lemma forall₂_hexadecimal (hgroups : ∀ n ∈ groups, n < 2 ^ 16) :
    List.Forall₂ IsGroup (groups.map hexadecimal) groups := by
  induction groups with
  | nil => exact .nil
  | cons n groups ih =>
    rw [List.forall_mem_cons] at hgroups
    exact .cons (isGroup_hexadecimal hgroups.1) (ih hgroups.2)

/-! ### The cut -/

lemma cut_append (h : colon ∉ text) (rest : List UInt8) :
    cut (text ++ rest) = (cut rest).map fun (left, right) => (text ++ left, right) := by
  induction text with
  | nil => simp
  | cons c text ih =>
    rw [List.mem_cons, not_or] at h
    rw [List.cons_append, cut, if_neg (fun hc => h.1 hc.1.symm), ih h.2, Option.map_map]
    rfl

/-- The first two colons that follow each other are not inside of groups. -/
lemma cut_join (h : Proper texts) (hrest : rest = [] ∨ ∃ right, rest = colon :: colon :: right) :
    cut (join texts ++ rest) = (cut rest).map fun (left, right) => (join texts ++ left, right) := by
  induction texts with
  | nil => simp [join]
  | cons text texts ih =>
    obtain ⟨⟨-, hcolon⟩, htexts⟩ := List.forall_mem_cons.1 h
    rcases texts with _ | ⟨text', texts⟩
    · rw [join, List.intercalate_singleton]
      exact cut_append hcolon rest
    · obtain ⟨c, tail, hjoin, hc⟩ := join_ne_nil htexts
      have hhead : ¬(colon = colon ∧ (join (text' :: texts) ++ rest).head? = some colon) := by
        rintro ⟨-, h⟩
        rw [hjoin] at h
        exact hc (Option.some.inj h)
      rw [join_cons_cons, List.append_assoc, cut_append hcolon, List.cons_append, cut, if_neg hhead, ih htexts,
        Option.map_map, Option.map_map]
      refine congrArg (fun f => (cut rest).map f) (funext fun p => ?_)
      exact Prod.ext (List.append_assoc text (colon :: join (text' :: texts)) p.1).symm rfl

lemma cut_full (h : Proper texts) : cut (join texts) = none := by
  have hcut := cut_join h (.inl rfl)
  rwa [List.append_nil] at hcut

lemma cut_short (h : Proper texts) (right : List UInt8) :
    cut (join texts ++ colon :: colon :: right) = some (join texts, right) := by
  rw [cut_join h (.inr ⟨right, rfl⟩), cut, if_pos ⟨rfl, rfl⟩]
  exact congrArg (fun left => some (left, right)) (List.append_nil _)

/-- A text is read as the groups that it stands for. -/
theorem read_of_represents (h : Represents text groups) : read text = some groups := by
  cases h with
  | full hgroups hlength =>
    rw [read, cut_full (proper_of_groups hgroups)]
    dsimp only
    rw [readGroups_join hgroups, Option.filter_some, if_pos (decide_eq_true hlength)]
  | short hleft hright zeros hzeros hlength =>
    rw [read, cut_short (proper_of_groups hleft)]
    dsimp only
    rw [readGroups_join hleft, readGroups_join hright, Option.bind_some, Option.bind_some, if_pos (by omega)]
    exact congrArg (fun n => some (_ ++ List.replicate n 0 ++ _)) (by omega)

end DDNet.Lib.Ipv6Text
