/-
Counting the votes (`CGameContext::OnTick`, `game/server/gamecontext.cpp`).

Each IP counts once, at its first player who may vote; the players behind it with the same IP are merged into it,
whether they may vote or not.  The counted votes are those of the players who may vote, in whatever slots they are, if
and only if no other player of their IP who has voted later has voted otherwise (`countsVotes_iff`).
-/
import DDNet.Lib.GroupPass
import Mathlib.Data.Finset.Max
import Mathlib.Data.Fintype.Basic
import Mathlib.Data.List.FinRange
import Mathlib.Data.List.NodupEquivFin
import Mathlib.Data.List.Perm.Lattice
import Mathlib.Logic.Equiv.Basic

namespace DDNet

open Lib

namespace CGameContext

/-! ### Players and slots -/

/-- What the counting of votes reads of a character. -/
structure VoteCharacter where
  team : ℤ
  started : Bool
  startTime : ℤ

/-- What it reads of a player. -/
structure VotePlayer where
  team : ℤ
  afk : Bool
  firstVoteTick : ℤ
  joinTick : ℤ
  vote : ℤ
  votePos : ℤ
  character : Option VoteCharacter

/-- A client slot: the player, and what the server knows of the client. -/
structure VoteSlot where
  player : Option VotePlayer
  ingame : Bool
  dnsblWhite : Bool
  addr : List UInt8

inductive VoteType
  | unknown
  | option
  | kick
  | spectate
deriving DecidableEq

/-- What the counting of votes reads; `-1` is no creator. -/
structure VoteContext (n : ℕ) where
  slots : Fin n → VoteSlot
  voteType : VoteType
  voteCreator : Option (Fin n)
  tick : ℤ
  tickSpeed : ℤ
  svDnsblVote : Bool
  svVoteVetoTime : ℤ

/-- `TEAM_SPECTATORS`. -/
def teamSpectators : ℤ := -1

namespace VoteContext

variable {n : ℕ} (this : VoteContext n)

def player (i : Fin n) : Option VotePlayer := (this.slots i).player

/-- `GetClientAddr`, which writes nothing unless the client is in game. -/
def clientAddr (i : Fin n) : List UInt8 := if (this.slots i).ingame then (this.slots i).addr else []

def getPlayerChar (i : Fin n) : Option VoteCharacter := (this.player i).bind VotePlayer.character

/-- `IsKickVote() || IsSpecVote()`. -/
def isKickOrSpecVote : Bool := this.voteType = .kick || this.voteType = .spectate

/-! ### The counting pass -/

/-- The first loop: the address of the first player, and whether all players have it. -/
def singlePlayer : Bool :=
  ((List.finRange n).foldl (fun (ip, single) i =>
    if (this.player i).isSome then
      match ip with
      | none => (some (this.clientAddr i), single)
      | some ip' => (ip, single && ip' = this.clientAddr i)
    else (ip, single)) ((none : Option (List UInt8)), true)).2

/-- The player is in the team of the creator of the vote, as far as both have characters. -/
def otherTeam (i : Fin n) : Bool :=
  match this.voteCreator.bind this.getPlayerChar, this.getPlayerChar i with
  | some creator, some character => creator.team ≠ character.team
  | _, _ => false

/-- The conditions under which the pass does not skip a player. -/
def mayVote (i : Fin n) : Bool :=
  match this.player i with
  | none => false
  | some player =>
    !(this.isKickOrSpecVote && (player.team = teamSpectators || this.otherTeam i)) &&
    !(player.afk && some i ≠ this.voteCreator) &&
    !(this.isKickOrSpecVote && this.tick < player.firstVoteTick) &&
    (this.slots i).ingame &&
    !(this.svDnsblVote && !(this.slots i).dnsblWhite && !this.singlePlayer)

/-- What the pass has counted; `counted` says for which IPs, and from whom the vote is. -/
structure Tally (n : ℕ) where
  checked : Fin n → Bool
  total : ℕ
  yes : ℕ
  no : ℕ
  veto : Bool
  vetoStop : Bool
  counted : List (List UInt8 × Fin n)

/-- The vote of a player in a slot, and its position. -/
def voteOf (i : Fin n) : ℤ := ((this.player i).map VotePlayer.vote).getD 0

def votePosOf (i : Fin n) : ℤ := ((this.player i).map VotePlayer.votePos).getD 0

/-- One round of the loop over the later slots: the slot whose vote is the current one, and the checked slots. -/
def mergeSlot (i : Fin n) (state : Fin n × (Fin n → Bool)) (j : Fin n) : Fin n × (Fin n → Bool) :=
  let (cur, checked) := state
  if (this.player j).isNone || checked j || this.clientAddr j ≠ this.clientAddr i then (cur, checked)
  else (if this.votePosOf cur < this.votePosOf j then j else cur, Function.update checked j true)

/-- The loop over the later slots. -/
def mergeVotes (i : Fin n) (later : List (Fin n)) (checked : Fin n → Bool) : Fin n × (Fin n → Bool) :=
  later.foldl (this.mergeSlot i) (i, checked)

/-- The player has been on the server, or in a race, for long. -/
def active (player : VotePlayer) : Bool :=
  !player.afk && player.team ≠ teamSpectators &&
    (this.svVoteVetoTime < (this.tick - player.joinTick).tdiv (this.tickSpeed * 60) ||
      match player.character with
      | some character =>
        character.started && this.svVoteVetoTime < (this.tick - character.startTime).tdiv (this.tickSpeed * 60)
      | none => false)

/-- A player of the IP has the right of veto. -/
def vetoRight (i : Fin n) (later : List (Fin n)) : Bool :=
  (i :: later.filter fun j => this.clientAddr j = this.clientAddr i).any fun j =>
    match this.player j with
    | some player => this.active player
    | none => false

/-- One round of the pass. -/
def countSlot (i : Fin n) (later : List (Fin n)) (tally : Tally n) : Tally n :=
  if (this.player i).isNone || tally.checked i || !this.mayVote i then tally
  else
    let (cur, checked) := this.mergeVotes i later tally.checked
    let vote := this.voteOf cur
    let veto := !this.isKickOrSpecVote && this.svVoteVetoTime ≠ 0 && this.vetoRight i later
    { checked := checked
      total := tally.total + 1
      yes := if 0 < vote then tally.yes + 1 else tally.yes
      no := if vote < 0 then tally.no + 1 else tally.no
      veto := tally.veto || veto && vote = 0
      vetoStop := tally.vetoStop || veto && vote < 0
      counted := tally.counted ++ [(this.clientAddr i, cur)] }

/-- The rounds for some slots. -/
def countFrom : List (Fin n) → Tally n → Tally n
  | [], tally => tally
  | i :: later, tally => countFrom later (this.countSlot i later tally)

/-- The counting pass. -/
def countVotes : Tally n := this.countFrom (List.finRange n) ⟨fun _ => false, 0, 0, 0, false, false, []⟩

/-! ### The pass by groups -/

/-- A player is in the slot. -/
def Present (i : Fin n) : Prop := (this.player i).isSome = true

instance : DecidablePred this.Present := fun _ => inferInstanceAs (Decidable (_ = true))

variable {this} {i j : Fin n} {later : List (Fin n)} {tally : Tally n}

lemma present_of_mayVote (h : this.mayVote i = true) : this.Present i := by
  rw [mayVote] at h
  cases hplayer : this.player i with
  | none =>
    rw [hplayer] at h
    exact absurd h Bool.false_ne_true
  | some player =>
    rw [Present, hplayer]
    rfl

lemma mergeSlot_of_skip {state : Fin n × (Fin n → Bool)}
    (h : ¬ (this.Present j ∧ this.clientAddr j = this.clientAddr i)) :
    this.mergeSlot i state j = state := by
  rw [mergeSlot]
  refine if_pos ?_
  rw [Bool.or_eq_true, Bool.or_eq_true, decide_eq_true_eq]
  by_cases hj : this.Present j
  · exact .inr fun haddr => h ⟨hj, haddr⟩
  · exact .inl (.inl (Option.isNone_iff_eq_none.2 (Option.not_isSome_iff_eq_none.1 hj)))

lemma mergeSlot_of_merge {cur : Fin n} {checked : Fin n → Bool} (hj : this.Present j)
    (haddr : this.clientAddr j = this.clientAddr i) (hchecked : checked j = false) :
    this.mergeSlot i (cur, checked) j =
      (if this.votePosOf cur < this.votePosOf j then j else cur, Function.update checked j true) := by
  rw [mergeSlot]
  refine if_neg ?_
  rw [Present] at hj
  simp [haddr, hchecked, Option.isSome_iff_ne_none.1 hj]

/-- The players of one IP, none of whom has been checked, are merged into the first one. -/
lemma mergeVotes_eq {checked : Fin n → Bool} (hnodup : later.Nodup)
    (hchecked : ∀ j ∈ later, this.Present j → this.clientAddr j = this.clientAddr i → checked j = false) :
    (this.mergeVotes i later checked).1 = latest this.Present this.clientAddr this.votePosOf i later ∧
      ∀ j, (this.mergeVotes i later checked).2 j = true ↔
        checked j = true ∨ j ∈ later ∧ this.Present j ∧ this.clientAddr j = this.clientAddr i := by
  have hloop : ∀ (l : List (Fin n)) (cur : Fin n) (checked : Fin n → Bool), l.Nodup →
      (∀ j ∈ l, this.Present j → this.clientAddr j = this.clientAddr i → checked j = false) →
      (l.foldl (this.mergeSlot i) (cur, checked)).1 =
        l.foldl (higher this.Present this.clientAddr this.votePosOf i) cur ∧
      ∀ j, (l.foldl (this.mergeSlot i) (cur, checked)).2 j = true ↔
        checked j = true ∨ j ∈ l ∧ this.Present j ∧ this.clientAddr j = this.clientAddr i := by
    intro l
    induction l with
    | nil => exact fun cur checked _ _ => ⟨rfl, fun j => by simp⟩
    | cons k l ih =>
      intro cur checked hnodup hchecked
      obtain ⟨hk, hnodup⟩ := List.nodup_cons.1 hnodup
      rw [List.foldl_cons, List.foldl_cons]
      by_cases hmerge : this.Present k ∧ this.clientAddr k = this.clientAddr i
      · rw [mergeSlot_of_merge hmerge.1 hmerge.2 (hchecked k List.mem_cons_self hmerge.1 hmerge.2)]
        have hcur : (if this.votePosOf cur < this.votePosOf k then k else cur) =
            higher this.Present this.clientAddr this.votePosOf i cur k := by
          rw [higher]
          simp only [hmerge, true_and]
        have hother : ∀ j ∈ l, this.Present j → this.clientAddr j = this.clientAddr i →
            Function.update checked k true j = false := by
          intro j hj hpresent haddr
          rw [Function.update_of_ne (ne_of_mem_of_not_mem hj hk)]
          exact hchecked j (List.mem_cons_of_mem k hj) hpresent haddr
        obtain ⟨hfst, hsnd⟩ := ih _ _ hnodup hother
        refine ⟨by rw [hfst, hcur], fun j => ?_⟩
        rw [hsnd, List.mem_cons]
        by_cases hj : j = k
        · rw [hj, Function.update_self]
          exact iff_of_true (.inl rfl) (.inr ⟨.inl rfl, hmerge⟩)
        · rw [Function.update_of_ne hj, or_iff_right hj]
      · rw [mergeSlot_of_skip hmerge]
        have hcur : higher this.Present this.clientAddr this.votePosOf i cur k = cur := by
          rw [higher, if_neg fun h => hmerge ⟨h.1, h.2.1⟩]
        obtain ⟨hfst, hsnd⟩ := ih cur checked hnodup fun j hj => hchecked j (List.mem_cons_of_mem k hj)
        refine ⟨by rw [hfst, hcur], fun j => ?_⟩
        rw [hsnd, List.mem_cons]
        by_cases hj : j = k
        · subst hj
          exact or_congr_right (iff_of_false (fun h => hmerge h.2) fun h => hmerge h.2)
        · rw [or_iff_right hj]
  exact hloop later i checked hnodup hchecked

/-- What is counted from here on. -/
def groups (this : VoteContext n) (seen : List (List UInt8)) (l : List (Fin n)) : List (List UInt8 × Fin n) :=
  groupPass this.Present (fun i => this.mayVote i = true) this.clientAddr this.votePosOf seen l

lemma groups_cons_of_count {seen : List (List UInt8)} {l : List (Fin n)} (hvote : this.mayVote i = true)
    (hseen : this.clientAddr i ∉ seen) :
    this.groups seen (i :: l) =
      (this.clientAddr i, latest this.Present this.clientAddr this.votePosOf i l) ::
        this.groups (this.clientAddr i :: seen) l :=
  if_pos ⟨hvote, hseen⟩

lemma groups_cons_of_skip {seen : List (List UInt8)} {l : List (Fin n)}
    (h : ¬ (this.mayVote i = true ∧ this.clientAddr i ∉ seen)) : this.groups seen (i :: l) = this.groups seen l :=
  if_neg h

lemma countSlot_of_skip (h : this.Present i → tally.checked i = true ∨ this.mayVote i = false) :
    this.countSlot i later tally = tally := by
  refine if_pos ?_
  rw [Bool.or_eq_true, Bool.or_eq_true, Bool.not_eq_true', Option.isNone_iff_eq_none]
  by_cases hi : this.Present i
  · exact (h hi).elim (fun h => .inl (.inr h)) .inr
  · exact .inl (.inl (Option.not_isSome_iff_eq_none.1 hi))

/-- What a round adds to the numbers. -/
lemma countSlot_of_count (hchecked : tally.checked i = false) (hvote : this.mayVote i = true) :
    let cur := (this.mergeVotes i later tally.checked).1
    (this.countSlot i later tally).checked = (this.mergeVotes i later tally.checked).2 ∧
      (this.countSlot i later tally).counted = tally.counted ++ [(this.clientAddr i, cur)] ∧
      (this.countSlot i later tally).total = tally.total + 1 ∧
      (this.countSlot i later tally).yes = (if 0 < this.voteOf cur then tally.yes + 1 else tally.yes) ∧
      (this.countSlot i later tally).no = (if this.voteOf cur < 0 then tally.no + 1 else tally.no) := by
  have hcond : ((this.player i).isNone || tally.checked i || !this.mayVote i) = false := by
    rw [hchecked, hvote, Option.isNone_eq_false_iff.2 (present_of_mayVote hvote)]
    rfl
  rw [countSlot, hcond, if_neg Bool.false_ne_true]
  exact ⟨rfl, rfl, rfl, rfl, rfl⟩

/-- The pass counts each IP once, at its first player who may vote. -/
lemma countFrom_eq {l : List (Fin n)} {seen : List (List UInt8)} (hnodup : l.Nodup)
    (hchecked : ∀ j ∈ l, this.Present j → (tally.checked j = true ↔ this.clientAddr j ∈ seen)) :
    (this.countFrom l tally).counted = tally.counted ++ this.groups seen l ∧
      (this.countFrom l tally).total = tally.total + (this.groups seen l).length ∧
      (this.countFrom l tally).yes = tally.yes + (this.groups seen l).countP (fun e => 0 < this.voteOf e.2) ∧
      (this.countFrom l tally).no = tally.no + (this.groups seen l).countP (fun e => this.voteOf e.2 < 0) := by
  induction l generalizing tally seen with
  | nil => simp [countFrom, groups, groupPass]
  | cons i l ih =>
    obtain ⟨hi, hnodup⟩ := List.nodup_cons.1 hnodup
    have hrest := fun j hj => hchecked j (List.mem_cons_of_mem i hj)
    rw [countFrom]
    by_cases hcount : this.mayVote i = true ∧ this.clientAddr i ∉ seen
    · have hpresent := present_of_mayVote hcount.1
      have hnot : tally.checked i = false := by
        rw [← Bool.not_eq_true, hchecked i List.mem_cons_self hpresent]
        exact hcount.2
      have hgroup : ∀ j ∈ l, this.Present j → this.clientAddr j = this.clientAddr i → tally.checked j = false := by
        intro j hj hj' haddr
        rw [← Bool.not_eq_true, hrest j hj hj', haddr]
        exact hcount.2
      obtain ⟨hcur, hmerged⟩ := mergeVotes_eq hnodup hgroup
      obtain ⟨hchecked', hcounted, htotal, hyes, hno⟩ := @countSlot_of_count n this i l tally hnot hcount.1
      have hnext : ∀ j ∈ l, this.Present j →
          ((this.countSlot i l tally).checked j = true ↔ this.clientAddr j ∈ this.clientAddr i :: seen) := by
        intro j hj hj'
        rw [hchecked', hmerged, hrest j hj hj', List.mem_cons, or_comm]
        exact or_congr_left ⟨fun h => h.2.2, fun h => ⟨hj, hj', h⟩⟩
      obtain ⟨hcounted', htotal', hyes', hno'⟩ := ih hnodup hnext
      rw [hcur] at hcounted hyes hno
      rw [groups_cons_of_count hcount.1 hcount.2, hcounted', htotal', hyes', hno', hcounted, htotal, hyes, hno,
        List.countP_cons, List.countP_cons, List.length_cons]
      refine ⟨by rw [List.append_assoc, List.singleton_append], by omega, ?_, ?_⟩
      · simp only [decide_eq_true_eq]
        split_ifs <;> omega
      · simp only [decide_eq_true_eq]
        split_ifs <;> omega
    · have hskip : this.countSlot i l tally = tally := by
        refine countSlot_of_skip fun hi => ?_
        by_cases hvote : this.mayVote i = true
        · exact .inl ((hchecked i List.mem_cons_self hi).2 (by_contra fun hseen => hcount ⟨hvote, hseen⟩))
        · exact .inr (Bool.not_eq_true _ ▸ hvote)
      rw [hskip, groups_cons_of_skip hcount]
      exact ih hnodup hrest

/-! ### What should be counted -/

variable (this)

/-- A player who may vote, and none of the same IP who may vote has voted later. -/
def IsLatest (k : Fin n) : Prop :=
  this.mayVote k = true ∧
    ∀ i, this.mayVote i = true → this.clientAddr i = this.clientAddr k → this.votePosOf i ≤ this.votePosOf k

/-- A player who has voted not earlier than all of the same IP who may vote; one who may not has voted later than one
of them. -/
def NotBelow (j : Fin n) : Prop :=
  this.Present j ∧
    (∀ i, this.mayVote i = true → this.clientAddr i = this.clientAddr j → this.votePosOf i ≤ this.votePosOf j) ∧
    (this.mayVote j = true ∨
      ∃ i, this.mayVote i = true ∧ this.clientAddr i = this.clientAddr j ∧ this.votePosOf i < this.votePosOf j)

instance : DecidablePred this.IsLatest := fun _ => inferInstanceAs (Decidable (_ ∧ ∀ _, _ → _ → _))

/-- The IPs of the players who may vote. -/
def voterIps : Finset (List UInt8) := (Finset.univ.filter fun i => this.mayVote i = true).image this.clientAddr

/-- The IPs whose latest vote by a player who may vote is of a kind. -/
def ipsVoting (kind : ℤ → Prop) [DecidablePred kind] : Finset (List UInt8) :=
  (Finset.univ.filter fun i => this.IsLatest i ∧ kind (this.voteOf i)).image this.clientAddr

/-- The pass counts each IP with a player who may vote once, and for it the latest vote of such a player. -/
structure CountsVotes : Prop where
  once : (this.countVotes.counted.map Prod.fst).Nodup
  ips : ∀ a, a ∈ this.countVotes.counted.map Prod.fst ↔ ∃ i, this.mayVote i = true ∧ this.clientAddr i = a
  latest : ∀ e ∈ this.countVotes.counted, ∀ k, this.IsLatest k → this.clientAddr k = e.1 →
    this.voteOf e.2 = this.voteOf k
  total : this.countVotes.total = this.voterIps.card
  yes : this.countVotes.yes = (this.ipsVoting (0 < ·)).card
  no : this.countVotes.no = (this.ipsVoting (· < 0)).card

/-- The players in other slots. -/
def permute (σ : Equiv.Perm (Fin n)) : VoteContext n :=
  { this with slots := this.slots ∘ σ, voteCreator := this.voteCreator.map σ.symm }

variable {this} {σ : Equiv.Perm (Fin n)} {k : Fin n}

/-! ### Other slots -/

@[simp] lemma player_permute (i : Fin n) : (this.permute σ).player i = this.player (σ i) := rfl

@[simp] lemma clientAddr_permute (i : Fin n) : (this.permute σ).clientAddr i = this.clientAddr (σ i) := rfl

@[simp] lemma voteOf_permute (i : Fin n) : (this.permute σ).voteOf i = this.voteOf (σ i) := rfl

@[simp] lemma votePosOf_permute (i : Fin n) : (this.permute σ).votePosOf i = this.votePosOf (σ i) := rfl

@[simp] lemma present_permute (i : Fin n) : (this.permute σ).Present i ↔ this.Present (σ i) := Iff.rfl

/-- The first loop compares all IPs. -/
lemma singlePlayer_iff :
    this.singlePlayer = true ↔ ∀ i j, this.Present i → this.Present j → this.clientAddr i = this.clientAddr j := by
  have hloop : ∀ (l : List (Fin n)) (ip : Option (List UInt8)) (single : Bool),
      (l.foldl (fun (x : Option (List UInt8) × Bool) i =>
        if (this.player i).isSome then
          match x.1 with
          | none => (some (this.clientAddr i), x.2)
          | some ip' => (x.1, x.2 && ip' = this.clientAddr i)
        else x) (ip, single)).2 = true ↔
      single = true ∧ (∀ a ∈ ip, ∀ i ∈ l, this.Present i → this.clientAddr i = a) ∧
        ∀ i ∈ l, ∀ j ∈ l, this.Present i → this.Present j → this.clientAddr i = this.clientAddr j := by
    intro l
    induction l with
    | nil => simp
    | cons i l ih =>
      intro ip single
      rw [List.foldl_cons]
      by_cases hi : this.Present i
      · have hi' : (this.player i).isSome = true := hi
        cases ip with
        | none =>
          simp only [hi', if_true]
          rw [ih]
          simp only [Option.mem_def, Option.some.injEq, forall_eq', reduceCtorEq, false_imp_iff, implies_true, true_and,
            List.forall_mem_cons]
          grind
        | some a =>
          simp only [hi', if_true]
          rw [ih]
          simp only [Option.mem_def, Option.some.injEq, forall_eq', List.forall_mem_cons, Bool.and_eq_true,
            decide_eq_true_eq]
          grind
      · have hi' : (this.player i).isSome = false := Bool.not_eq_true _ ▸ hi
        simp only [hi', Bool.false_eq_true, if_false]
        rw [ih]
        simp only [List.forall_mem_cons]
        grind
  have h := hloop (List.finRange n) none true
  simp only [List.mem_finRange, true_imp_iff, Option.mem_def, reduceCtorEq, false_imp_iff,
    implies_true, true_and] at h
  exact h

lemma singlePlayer_permute : (this.permute σ).singlePlayer = this.singlePlayer := by
  refine Bool.eq_iff_iff.2 (singlePlayer_iff.trans (Iff.trans ?_ singlePlayer_iff.symm))
  exact ⟨fun h i j hi hj => by simpa using h (σ.symm i) (σ.symm j) (by simpa using hi) (by simpa using hj),
    fun h i j hi hj => h (σ i) (σ j) hi hj⟩

lemma otherTeam_permute (i : Fin n) : (this.permute σ).otherTeam i = this.otherTeam (σ i) := by
  rw [otherTeam, otherTeam]
  cases h : this.voteCreator with
  | none => simp [permute, h, getPlayerChar, player]
  | some creator => simp [permute, h, getPlayerChar, player]

@[simp] lemma mayVote_permute (i : Fin n) : (this.permute σ).mayVote i = this.mayVote (σ i) := by
  have hcreator : (some i = (this.permute σ).voteCreator) ↔ some (σ i) = this.voteCreator := by
    rw [permute]
    cases this.voteCreator with
    | none => simp
    | some creator => simp [Equiv.eq_symm_apply]
  simp only [mayVote, player_permute, otherTeam_permute, singlePlayer_permute, ne_eq, hcreator]
  rfl

lemma isLatest_permute : (this.permute σ).IsLatest k ↔ this.IsLatest (σ k) := by
  simp only [IsLatest, mayVote_permute, clientAddr_permute, votePosOf_permute]
  exact and_congr_right fun _ => σ.forall_congr_left.trans (by simp)

lemma notBelow_permute : (this.permute σ).NotBelow j ↔ this.NotBelow (σ j) := by
  simp only [NotBelow, mayVote_permute, clientAddr_permute, votePosOf_permute, present_permute]
  refine and_congr_right fun _ => and_congr (σ.forall_congr_left.trans (by simp)) (or_congr_right ?_)
  exact σ.exists_congr_left.trans (by simp)

lemma voterIps_permute : (this.permute σ).voterIps = this.voterIps := by
  ext a
  simp only [voterIps, Finset.mem_image, Finset.mem_filter, Finset.mem_univ, true_and, mayVote_permute,
    clientAddr_permute]
  exact σ.exists_congr_left.trans (by simp)

lemma ipsVoting_permute (kind : ℤ → Prop) [DecidablePred kind] :
    (this.permute σ).ipsVoting kind = this.ipsVoting kind := by
  ext a
  simp only [ipsVoting, Finset.mem_image, Finset.mem_filter, Finset.mem_univ, true_and, isLatest_permute,
    voteOf_permute, clientAddr_permute]
  exact σ.exists_congr_left.trans (by simp)

/-! ### The counted votes -/

lemma countVotes_eq :
    this.countVotes.counted = this.groups [] (List.finRange n) ∧
      this.countVotes.total = (this.groups [] (List.finRange n)).length ∧
      this.countVotes.yes = (this.groups [] (List.finRange n)).countP (fun e => 0 < this.voteOf e.2) ∧
      this.countVotes.no = (this.groups [] (List.finRange n)).countP (fun e => this.voteOf e.2 < 0) := by
  obtain ⟨hcounted, htotal, hyes, hno⟩ :=
    @countFrom_eq n this ⟨fun _ => false, 0, 0, 0, false, false, []⟩ (List.finRange n) [] (List.nodup_finRange n)
       (fun j _ _ => by simp)
  simp only [List.nil_append, Nat.zero_add] at hcounted htotal hyes hno
  exact ⟨hcounted, htotal, hyes, hno⟩

lemma exists_isLatest (hvote : this.mayVote i = true) :
    ∃ k, this.IsLatest k ∧ this.clientAddr k = this.clientAddr i := by
  let voters := Finset.univ.filter fun k => this.mayVote k = true ∧ this.clientAddr k = this.clientAddr i
  have hmem : ∀ k, k ∈ voters ↔ this.mayVote k = true ∧ this.clientAddr k = this.clientAddr i := by simp [voters]
  obtain ⟨k, hk, hmax⟩ := voters.exists_max_image this.votePosOf ⟨i, (hmem i).2 ⟨hvote, rfl⟩⟩
  obtain ⟨hkvote, hkaddr⟩ := (hmem k).1 hk
  exact ⟨k, ⟨hkvote, fun j hj haddr => hmax j ((hmem j).2 ⟨hj, haddr.trans hkaddr⟩)⟩, hkaddr⟩

lemma notBelow_of_isLatest (h : this.IsLatest k) : this.NotBelow k := ⟨present_of_mayVote h.1, h.2, .inl h.1⟩

lemma notBelow_of_mem_groups {a : List UInt8} (h : (a, j) ∈ this.groups [] (List.finRange n)) :
    this.NotBelow j ∧ this.clientAddr j = a := by
  obtain ⟨hpresent, rfl, hle, hvote⟩ := mem_groupPass (fun x hx => present_of_mayVote hx) h
  exact ⟨⟨hpresent, fun i hi haddr => hle i (List.mem_finRange i) hi haddr, hvote⟩, rfl⟩

lemma mem_keys_groups {a : List UInt8} :
    a ∈ (this.groups [] (List.finRange n)).map Prod.fst ↔ ∃ i, this.mayVote i = true ∧ this.clientAddr i = a := by
  refine mem_keys_groupPass.trans ?_
  simp only [List.not_mem_nil, not_false_eq_true, List.mem_finRange, true_and]

/-- The entries with votes of a kind stand for the IPs with such votes. -/
lemma countP_groups (h : ∀ j k, this.NotBelow j → this.IsLatest k → this.clientAddr j = this.clientAddr k →
    this.voteOf j = this.voteOf k) (kind : ℤ → Prop) [DecidablePred kind] :
    (this.groups [] (List.finRange n)).countP (fun e => kind (this.voteOf e.2)) = (this.ipsVoting kind).card := by
  let entries := (this.groups [] (List.finRange n)).filter fun e => decide (kind (this.voteOf e.2))
  have hnodup : (entries.map Prod.fst).Nodup :=
    List.Nodup.sublist (List.filter_sublist.map Prod.fst) nodup_keys_groupPass
  have hips : (entries.map Prod.fst).toFinset = this.ipsVoting kind := by
    ext a
    simp only [entries, List.mem_toFinset, List.mem_map, List.mem_filter, decide_eq_true_eq, ipsVoting,
      Finset.mem_image, Finset.mem_filter, Finset.mem_univ, true_and]
    constructor
    · rintro ⟨⟨a, w⟩, ⟨hw, hkind⟩, rfl⟩
      obtain ⟨hbelow, haddr⟩ := notBelow_of_mem_groups hw
      obtain ⟨i, hi, hia⟩ := mem_keys_groups.1 (List.mem_map_of_mem hw (f := Prod.fst))
      obtain ⟨k, hk, hki⟩ := exists_isLatest hi
      have hka : this.clientAddr k = a := hki.trans hia
      exact ⟨k, ⟨hk, h w k hbelow hk (haddr.trans hka.symm) ▸ hkind⟩, hka⟩
    · rintro ⟨k, ⟨hk, hkind⟩, rfl⟩
      obtain ⟨⟨a, w⟩, hw, ha⟩ := List.mem_map.1 (mem_keys_groups.2 ⟨k, hk.1, rfl⟩)
      obtain ⟨hbelow, haddr⟩ := notBelow_of_mem_groups hw
      exact ⟨(a, w), ⟨hw, (h w k hbelow hk (haddr.trans ha)).symm ▸ hkind⟩, ha⟩
  calc (this.groups [] (List.finRange n)).countP (fun e => kind (this.voteOf e.2))
      = (entries.map Prod.fst).length := by rw [List.countP_eq_length_filter, List.length_map]
    _ = (entries.map Prod.fst).toFinset.card := (List.toFinset_card_of_nodup hnodup).symm
    _ = (this.ipsVoting kind).card := by rw [hips]

lemma length_groups : (this.groups [] (List.finRange n)).length = this.voterIps.card := by
  have hips : ((this.groups [] (List.finRange n)).map Prod.fst).toFinset = this.voterIps := by
    ext a
    rw [List.mem_toFinset, mem_keys_groups]
    simp [voterIps]
  have hnodup : ((this.groups [] (List.finRange n)).map Prod.fst).Nodup := nodup_keys_groupPass
  rw [← hips, List.toFinset_card_of_nodup hnodup, List.length_map]

/-- The pass counts right if all whose votes could be counted for an IP have voted alike. -/
lemma countsVotes_of_alike (h : ∀ j k, this.NotBelow j → this.IsLatest k → this.clientAddr j = this.clientAddr k →
    this.voteOf j = this.voteOf k) : this.CountsVotes := by
  obtain ⟨hcounted, htotal, hyes, hno⟩ := @countVotes_eq n this
  refine ⟨?_, ?_, ?_, ?_, ?_, ?_⟩
  · rw [hcounted]
    exact nodup_keys_groupPass
  · rw [hcounted]
    exact fun a => mem_keys_groups
  · rw [hcounted]
    rintro ⟨a, w⟩ hw k hk hka
    obtain ⟨hbelow, haddr⟩ := notBelow_of_mem_groups hw
    exact h w k hbelow hk (haddr.trans hka.symm)
  · rw [htotal, length_groups]
  · rw [hyes]
    exact countP_groups h (0 < ·)
  · rw [hno]
    exact countP_groups h (· < 0)

/-! ### The slots that bring a player's vote to count -/

lemma exists_permute {l : List (Fin n)} (hl : List.Perm l (List.finRange n)) :
    ∃ σ : Equiv.Perm (Fin n), List.finRange n = l.map σ.symm := by
  have hlength : l.length = n := by rw [hl.length_eq, List.length_finRange]
  have hnodup : l.Nodup := hl.nodup_iff.2 (List.nodup_finRange n)
  have hmem : ∀ i, i ∈ l := fun i => hl.mem_iff.2 (List.mem_finRange i)
  refine ⟨(finCongr hlength.symm).trans (List.Nodup.getEquivOfForallMemList l hnodup hmem), ?_⟩
  refine List.ext_getElem (by simp [hlength]) fun i h₁ h₂ => ?_
  rw [List.getElem_map, List.getElem_finRange, Equiv.eq_symm_apply]
  rfl

lemma perm_finRange {l : List (Fin n)} (hnodup : l.Nodup) (hmem : ∀ i, i ∈ l) : List.Perm l (List.finRange n) :=
  (List.perm_ext_iff_of_nodup hnodup (List.nodup_finRange n)).2 fun i => iff_of_true (hmem i) (List.mem_finRange i)

lemma latest_permute (x : Fin n) (later : List (Fin n)) :
    latest (this.permute σ).Present (this.permute σ).clientAddr (this.permute σ).votePosOf (σ.symm x)
        (later.map σ.symm) =
      σ.symm (latest this.Present this.clientAddr this.votePosOf x later) := by
  have hloop : ∀ (l : List (Fin n)) (w : Fin n),
      (l.map σ.symm).foldl
          (higher (this.permute σ).Present (this.permute σ).clientAddr (this.permute σ).votePosOf (σ.symm x))
          (σ.symm w) =
        σ.symm (l.foldl (higher this.Present this.clientAddr this.votePosOf x) w) := by
    intro l
    induction l with
    | nil => exact fun _ => rfl
    | cons y l ih =>
      intro w
      rw [List.map_cons, List.foldl_cons, List.foldl_cons, ← ih, higher, higher]
      simp only [present_permute, clientAddr_permute, votePosOf_permute, Equiv.apply_symm_apply]
      rw [apply_ite σ.symm]
  exact hloop later x

/-- A player who may vote is counted if all players of the slots before may not. -/
lemma counted_permute {before later : List (Fin n)} {x : Fin n}
    (hσ : List.finRange n = (before ++ x :: later).map σ.symm) (hbefore : ∀ y ∈ before, this.mayVote y = false)
    (hx : this.mayVote x = true) :
    (this.clientAddr x, σ.symm (latest this.Present this.clientAddr this.votePosOf x later)) ∈
      (this.permute σ).countVotes.counted := by
  rw [countVotes_eq.1]
  refine mem_groupPass_iff.2 ⟨List.not_mem_nil, before.map σ.symm, σ.symm x, later.map σ.symm, ?_, ?_, ?_, ?_, ?_⟩
  · rw [hσ, List.map_append, List.map_cons]
  · rw [mayVote_permute, Equiv.apply_symm_apply, hx]
  · rw [clientAddr_permute, Equiv.apply_symm_apply]
  · intro y hy hvote
    obtain ⟨z, hz, rfl⟩ := List.mem_map.1 hy
    rw [mayVote_permute, Equiv.apply_symm_apply, hbefore z hz] at hvote
    exact absurd hvote Bool.false_ne_true
  · exact latest_permute x later

/-- A player who has voted not earlier than all of the same IP who may vote is counted for it in some slots. -/
lemma exists_counted (hbelow : this.NotBelow j) :
    ∃ σ : Equiv.Perm (Fin n), (this.clientAddr j, σ.symm j) ∈ (this.permute σ).countVotes.counted := by
  obtain ⟨hpresent, hle, hvote⟩ := hbelow
  by_cases hj : this.mayVote j = true
  · let before := (List.finRange n).filter fun x => !this.mayVote x
    let later := (List.finRange n).filter fun x => this.mayVote x && x ≠ j
    have hperm : List.Perm (before ++ j :: later) (List.finRange n) := by
      refine perm_finRange ?_ fun i => ?_
      · refine List.Nodup.append ((List.nodup_finRange n).filter _)
          (List.nodup_cons.2 ⟨by simp [later], (List.nodup_finRange n).filter _⟩) ?_
        intro x hx hx'
        simp only [before, later, List.mem_filter, List.mem_cons] at hx hx'
        grind
      · simp only [before, later, List.mem_append, List.mem_filter, List.mem_cons, List.mem_finRange]
        grind
    have hlatest : latest this.Present this.clientAddr this.votePosOf j later = j := by
      refine latest_of_le fun z hz _ haddr => hle z ?_ haddr
      simp only [later, List.mem_filter, Bool.and_eq_true] at hz
      exact hz.2.1
    obtain ⟨σ, hσ⟩ := exists_permute hperm
    have hcounted := counted_permute hσ (by simp [before]) hj
    rw [hlatest] at hcounted
    exact ⟨σ, hcounted⟩
  · -- one of the same IP who has voted earlier comes first, then the player
    obtain ⟨i, hi, haddr, hlt⟩ := hvote.resolve_left hj
    let before := (List.finRange n).filter fun x => !this.mayVote x && x ≠ j
    let later := (List.finRange n).filter fun x => this.mayVote x && x ≠ i
    have hij : i ≠ j := fun h => hj (h ▸ hi)
    have hperm : List.Perm (before ++ i :: j :: later) (List.finRange n) := by
      refine perm_finRange ?_ fun k => ?_
      · have hlater : (i :: j :: later).Nodup := by
          refine List.nodup_cons.2 ⟨by simp [later, hij], List.nodup_cons.2 ⟨?_, (List.nodup_finRange n).filter _⟩⟩
          simp [later, hj]
        refine List.Nodup.append ((List.nodup_finRange n).filter _) hlater ?_
        intro x hx hx'
        simp only [before, later, List.mem_filter, List.mem_cons] at hx hx'
        grind
      · simp only [before, later, List.mem_append, List.mem_filter, List.mem_cons, List.mem_finRange]
        grind
    have hlatest : latest this.Present this.clientAddr this.votePosOf i (j :: later) = j := by
      refine latest_cons_of_lt hpresent haddr.symm hlt fun z hz _ hz' => hle z ?_ (hz'.trans haddr)
      simp only [later, List.mem_filter, Bool.and_eq_true] at hz
      exact hz.2.1
    obtain ⟨σ, hσ⟩ := exists_permute hperm
    have hbefore : ∀ y ∈ before, this.mayVote y = false := by
      intro y hy
      simp only [before, List.mem_filter, Bool.and_eq_true, Bool.not_eq_true'] at hy
      exact hy.2.1
    have hcounted := counted_permute hσ hbefore hi
    rw [hlatest, haddr] at hcounted
    exact ⟨σ, hcounted⟩

end VoteContext

end CGameContext

open CGameContext in
/-- The votes are counted as they should be, in whatever slots the players are, if and only if all those of an IP have
voted alike who may vote and have voted latest, or who may not and have voted not earlier than these and later than
another one who may. -/
theorem countsVotes_iff {n : ℕ} (this : VoteContext n) :
    (∀ σ : Equiv.Perm (Fin n), (this.permute σ).CountsVotes ∧
      (this.permute σ).countVotes.total = this.countVotes.total ∧
      (this.permute σ).countVotes.yes = this.countVotes.yes ∧
      (this.permute σ).countVotes.no = this.countVotes.no) ↔
    ∀ j k, this.NotBelow j → this.IsLatest k → this.clientAddr j = this.clientAddr k →
      this.voteOf j = this.voteOf k := by
  constructor
  · intro h j k hj hk haddr
    obtain ⟨σ, hcounted⟩ := VoteContext.exists_counted hj
    have hlatest : (this.permute σ).IsLatest (σ.symm k) := by
      rw [VoteContext.isLatest_permute, Equiv.apply_symm_apply]
      exact hk
    have hvote := (h σ).1.latest _ hcounted (σ.symm k) hlatest (by simpa using haddr.symm)
    simpa using hvote
  · intro h
    have hcounts : ∀ σ : Equiv.Perm (Fin n), (this.permute σ).CountsVotes := by
      refine fun σ => VoteContext.countsVotes_of_alike fun j k hj hk haddr => ?_
      exact h (σ j) (σ k) (VoteContext.notBelow_permute.1 hj) (VoteContext.isLatest_permute.1 hk) haddr
    have hself : this.CountsVotes := VoteContext.countsVotes_of_alike h
    intro σ
    refine ⟨hcounts σ, ?_, ?_, ?_⟩
    · rw [(hcounts σ).total, hself.total, VoteContext.voterIps_permute]
    · rw [(hcounts σ).yes, hself.yes, VoteContext.ipsVoting_permute]
    · rw [(hcounts σ).no, hself.no, VoteContext.ipsVoting_permute]

open CGameContext in
/-- In a kick vote, a spectator who has voted later than the caller of the same IP in a slot before is counted in its
place. -/
theorem countsVotes_spectator :
    ¬ (∀ (n : ℕ) (this : VoteContext n), this.CountsVotes) := by
  intro h
  let player (team vote votePos : ℤ) : VoteSlot :=
    ⟨some ⟨team, false, 0, 0, vote, votePos, none⟩, true, true, [49]⟩
  let this : VoteContext 2 :=
    ⟨fun i => if i = 0 then player 0 1 1 else player (-1) (-1) 2, .kick, some 0, 100, 50, false, 0⟩
  have hyes := (h 2 this).yes
  revert hyes
  decide

end DDNet
