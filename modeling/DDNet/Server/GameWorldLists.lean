/-
The lists of the world and the cursor of its loops.

`Listed` says which entities the lists of a well-linked world have.  A loop over a type has gone through the front of its
list, and the cursor points to the rest; removing entities keeps that, going through the world again loses it: the cursor
ends up null.
-/
import DDNet.Server.GameWorld

namespace DDNet

open Lib Function

namespace GameWorld

variable {ι : Type} [DecidableEq ι] {objType : ι → EntType} {w : GameWorld ι} {L : EntType → List ι}

/-! ### One turn of a loop -/

lemma forEach_none {α : Type} {visit : ℕ → GameWorld ι → ι → Except LoopFailure (GameWorld ι × α)} (n k : ℕ) :
    forEach visit n k none w = .ok (w, []) := by
  cases n <;> rfl

lemma forEach_some {α : Type} {visit : ℕ → GameWorld ι → ι → Except LoopFailure (GameWorld ι × α)} {k : ℕ} {e : ι}
    {w₁ : GameWorld ι} {a : α} (hvisit : visit k { w with nextTraverseEntity := w.nextTypeEntity e } e = .ok (w₁, a))
    (n : ℕ) : forEach visit (n + 1) k (some e) w =
      (forEach visit n (k + 1) w₁.nextTraverseEntity w₁).map fun r => (r.1, a :: r.2) := by
  rw [forEach, hvisit]
  simp only [bind, Except.bind]
  cases forEach visit n (k + 1) w₁.nextTraverseEntity w₁ <;> rfl

/-! ### Well-linked worlds -/

/-- All lists are linked in both directions, and an entity outside its list is linked to nothing. -/
structure Listed (objType : ι → EntType) (w : GameWorld ι) (L : EntType → List ι) : Prop where
  isList : ∀ t, (w.typeList t).IsList (L t)
  typed : ∀ t, ∀ e ∈ L t, objType e = t
  free : ∀ e, e ∉ L (objType e) → w.nextTypeEntity e = none ∧ w.prevTypeEntity e = none

namespace Listed

/-! ### Changing one list -/

lemma cursor (h : Listed objType w L) (c : Option ι) : Listed objType { w with nextTraverseEntity := c } L :=
  ⟨h.isList, h.typed, h.free⟩

lemma first (h : Listed objType w L) (t : EntType) : w.firstEntityTypes t = (L t).head? := (h.isList t).head

lemma notMem (h : Listed objType w L) {t : EntType} {e : ι} (ht : objType e ≠ t) : e ∉ L t :=
  fun he => ht (h.typed t e he)

/-- A new list of one type: the others keep their entities. -/
lemma setTypeList (h : Listed objType w L) {t : EntType} {l : DList ι} {xs : List ι} (hl : l.IsList xs)
    (hsame : ∀ e, objType e ≠ t → l.next e = w.nextTypeEntity e ∧ l.prev e = w.prevTypeEntity e)
    (htyped : ∀ e ∈ xs, objType e = t) (hfree : ∀ e, objType e = t → e ∉ xs → l.next e = none ∧ l.prev e = none) :
    Listed objType (w.setTypeList t l) (update L t xs) where
  isList t' := by
    by_cases ht : t' = t
    · subst ht
      rw [update_self]
      have hhead : (w.setTypeList t' l).firstEntityTypes t' = l.head := by simp [GameWorld.setTypeList]
      exact ⟨hhead.trans hl.head, hl.linked, hl.nodup⟩
    · rw [update_of_ne ht]
      refine ⟨?_, ?_, (h.isList t').nodup⟩
      · have hhead : (w.setTypeList t l).firstEntityTypes t' = w.firstEntityTypes t' := by simp [GameWorld.setTypeList, ht]
        exact hhead.trans (h.first t')
      · refine (linked_congr fun e he => ?_).2 (h.isList t').linked
        exact hsame e fun heq => ht ((h.typed t' e he).symm.trans heq)
  typed t' e he := by
    by_cases ht : t' = t
    · subst ht
      rw [update_self] at he
      exact htyped e he
    · rw [update_of_ne ht] at he
      exact h.typed t' e he
  free e he := by
    by_cases ht : objType e = t
    · rw [ht, update_self] at he
      exact hfree e ht he
    · rw [update_of_ne ht] at he
      have hfree' := h.free e he
      exact ⟨(hsame e ht).1.trans hfree'.1, (hsame e ht).2.trans hfree'.2⟩

lemma inList_iff (h : Listed objType w L) {e : ι} : w.inList objType e = true ↔ e ∈ L (objType e) := by
  constructor
  · intro hin
    by_contra he
    obtain ⟨hnext, hprev⟩ := h.free e he
    simp only [inList, hnext, hprev, Option.isSome_none, Bool.false_or, decide_eq_true_eq, h.first] at hin
    exact he (List.mem_of_head? hin)
  · intro he
    obtain ⟨as, bs, hsplit⟩ := List.append_of_mem he
    have hlist := h.isList (objType e)
    rw [hsplit] at hlist
    obtain ⟨-, hprev, -, -⟩ := hlist.split
    cases as with
    | nil =>
      have hfirst : w.firstEntityTypes (objType e) = some e := hlist.head
      simp [inList, hfirst]
    | cons a as =>
      have hsome : (w.prevTypeEntity e).isSome = true := by
        rw [show w.prevTypeEntity e = (a :: as).getLast? from hprev]
        simp [List.getLast?_cons]
      simp [inList, hsome]

/-- `InsertEntity` puts a free entity in front of its list. -/
lemma insertEntity (h : Listed objType w L) {e : ι} (he : e ∉ L (objType e)) :
    Listed objType (w.insertEntity objType e) (update L (objType e) (e :: L (objType e))) := by
  obtain ⟨hlist, hsame⟩ := DList.pushFront_spec (h.isList (objType e)) he
  have hother : ∀ y, y ∉ e :: L (objType e) →
      ((w.typeList (objType e)).pushFront e).next y = w.nextTypeEntity y ∧
        ((w.typeList (objType e)).pushFront e).prev y = w.prevTypeEntity y := hsame
  refine h.setTypeList hlist (fun y hy => hother y ?_) ?_ (fun y hy hnot => ?_)
  · rw [List.mem_cons, not_or]
    exact ⟨fun heq => hy (by rw [heq]), h.notMem hy⟩
  · rintro y hy
    rcases List.mem_cons.mp hy with rfl | hy
    · rfl
    · exact h.typed _ y hy
  · rw [(hother y hnot).1, (hother y hnot).2]
    refine h.free y ?_
    rw [hy]
    exact fun hmem => hnot (List.mem_cons_of_mem _ hmem)

/-- Without the entity `e` only its own list is another one. -/
lemma filter_ne (h : Listed objType w L) {t : EntType} {e : ι} {as bs : List ι} (hsplit : L t = as ++ e :: bs) :
    update L t (as ++ bs) = fun t' => (L t').filter (· ≠ e) := by
  have hnodup := (h.isList t).nodup
  rw [hsplit] at hnodup
  obtain ⟨-, hnodup', hdisjoint⟩ := List.nodup_append.1 hnodup
  ext1 t'
  by_cases ht : t' = t
  · have has : as.filter (· ≠ e) = as := List.filter_eq_self.mpr fun y hy => by
      simpa using fun heq : y = e => hdisjoint y hy e List.mem_cons_self heq
    have hbs : bs.filter (· ≠ e) = bs := List.filter_eq_self.mpr fun y hy => by
      simpa using fun heq : y = e => (List.nodup_cons.1 hnodup').1 (heq ▸ hy)
    rw [ht, update_self, hsplit, List.filter_append, List.filter_cons_of_neg (by simp), has, hbs]
  · have he : objType e = t := h.typed t e (by rw [hsplit]; simp)
    rw [update_of_ne ht, List.filter_eq_self.mpr fun y hy => by
      simpa using fun heq : y = e => ht ((h.typed t' y hy).symm.trans (by rw [heq, he]))]

/-- `RemoveEntity` takes the entity out of its list, and moves the cursor on if it was there. -/
lemma removeEntity (h : Listed objType w L) (e : ι) :
    Listed objType (w.removeEntity objType e) (fun t => (L t).filter (· ≠ e)) ∧
      (w.removeEntity objType e).nextTraverseEntity =
        if e ∈ L (objType e) ∧ w.nextTraverseEntity = some e then w.nextTypeEntity e else w.nextTraverseEntity := by
  by_cases he : e ∈ L (objType e)
  · obtain ⟨as, bs, hsplit⟩ := List.append_of_mem he
    have hlist := h.isList (objType e)
    rw [hsplit] at hlist
    obtain ⟨hunlink, hsame⟩ := DList.unlink_spec hlist
    obtain ⟨-, hnodup', hdisjoint⟩ := List.nodup_append.1 hlist.nodup
    have hnot : e ∉ as ++ bs := by
      rw [List.mem_append, not_or]
      exact ⟨fun hmem => hdisjoint e hmem e List.mem_cons_self rfl, (List.nodup_cons.1 hnodup').1⟩
    -- the list after the pointers of the entity have been reset
    let l : DList ι := ⟨((w.typeList (objType e)).unlink e).head, update ((w.typeList (objType e)).unlink e).next e none,
      update ((w.typeList (objType e)).unlink e).prev e none⟩
    have hne : ∀ y, y ≠ e → l.next y = ((w.typeList (objType e)).unlink e).next y ∧
        l.prev y = ((w.typeList (objType e)).unlink e).prev y := fun y hy => by
      simp only [l, update_of_ne hy, and_self]
    have hl : l.IsList (as ++ bs) :=
      ⟨hunlink.head, (linked_congr fun y hy => hne y fun heq => hnot (heq ▸ hy)).2 hunlink.linked, hunlink.nodup⟩
    have hfilter := h.filter_ne hsplit
    have hset : Listed objType (w.setTypeList (objType e) l) (update L (objType e) (as ++ bs)) := by
      refine h.setTypeList hl (fun y hy => ?_) (fun y hy => h.typed _ y ?_) (fun y hy hmem => ?_)
      · rw [(hne y fun heq => hy (by rw [heq])).1, (hne y fun heq => hy (by rw [heq])).2]
        refine hsame y fun hmem => hy (h.typed _ y ?_)
        rw [hsplit]
        simp only [List.mem_append, List.mem_cons] at hmem ⊢
        tauto
      · rw [hsplit]
        simp only [List.mem_append, List.mem_cons] at hy ⊢
        tauto
      · by_cases hye : y = e
        · simp only [l, hye, update_self, and_self]
        · rw [(hne y hye).1, (hne y hye).2]
          have hfree := h.free y (by
            rw [hy, hsplit]
            simp only [List.mem_append, List.mem_cons] at hmem ⊢
            tauto)
          have hsame' := hsame y hmem
          exact ⟨hsame'.1.trans hfree.1, hsame'.2.trans hfree.2⟩
    rw [GameWorld.removeEntity, if_neg (by rw [h.inList_iff.mpr he]; simp)]
    refine ⟨?_, ?_⟩
    · rw [← hfilter]
      exact hset.cursor _
    · simp [he]
  · have hout : w.inList objType e = false := by
      rw [← Bool.not_eq_true, h.inList_iff]
      exact he
    rw [GameWorld.removeEntity, if_pos hout]
    refine ⟨?_, by simp [he]⟩
    have hsame : (fun t => (L t).filter (· ≠ e)) = L := by
      ext1 t
      refine List.filter_eq_self.mpr fun y hy => ?_
      simpa using fun heq : y = e => he (by rw [heq] at hy; rwa [h.typed t e hy])
    rwa [hsame]

/-- What stands behind an entity of a list. -/
lemma next_eq (h : Listed objType w L) {t : EntType} {e : ι} {as bs : List ι} (hsplit : L t = as ++ e :: bs) :
    w.nextTypeEntity e = bs.head? := by
  have hlist := h.isList t
  rw [hsplit] at hlist
  exact hlist.split.2.2.1

/-! ### The loops that remove entities -/

/-- The rest of a list is gone through: the entities with `p` go, and the cursor ends up null. -/
lemma removeLoop (h : Listed objType w L) (p : ι → Bool) {t : EntType} {pre rest : List ι} (hsplit : L t = pre ++ rest)
    {n : ℕ} (hn : rest.length ≤ n) (k : ℕ) :
    ∃ w' removed, forEach (removeVisit objType p) n k rest.head? w = .ok (w', removed) ∧
      Listed objType w' (update L t (pre ++ rest.filter fun e => !p e)) ∧
      w'.nextTraverseEntity = (if rest = [] then w.nextTraverseEntity else none) ∧
      removed.flatten = rest.filter p := by
  induction rest generalizing w L pre n k with
  | nil =>
    refine ⟨w, [], forEach_none n k, ?_, rfl, rfl⟩
    rw [List.filter_nil, ← hsplit, update_eq_self]
    exact h
  | cons e rest ih =>
    obtain ⟨n, rfl⟩ := Nat.exists_eq_add_of_le' (Nat.one_le_of_lt hn)
    have hnext := h.next_eq hsplit
    have hhead : rest.head? ≠ some e := by
      have hnodup := (h.isList t).nodup
      rw [hsplit] at hnodup
      intro heq
      exact (List.nodup_cons.1 (List.nodup_append.1 hnodup).2.1).1 (List.mem_of_head? heq)
    rw [List.head?_cons]
    by_cases he : p e = true
    · -- the entity goes, and the cursor is already behind it
      obtain ⟨hlisted, hcursor⟩ := (h.cursor (w.nextTypeEntity e)).removeEntity e
      rw [← h.filter_ne hsplit] at hlisted
      rw [if_neg fun hand => hhead (hnext ▸ hand.2)] at hcursor
      obtain ⟨w', removed, hloop, hlisted', hcursor', hremoved⟩ :=
        ih hlisted (update_self t (pre ++ rest) L) (Nat.le_of_succ_le_succ hn) (k + 1)
      refine ⟨w', [e] :: removed, ?_, ?_, ?_, ?_⟩
      · rw [forEach_some (if_pos he), hcursor, hnext]
        rw [hnext] at hloop
        rw [hloop]
        rfl
      · rw [update_idem] at hlisted'
        rwa [List.filter_cons_of_neg (by simp [he])]
      · rw [hcursor', hcursor]
        cases rest with
        | nil => exact hnext
        | cons y rest => rfl
      · rw [List.flatten_cons, hremoved, List.filter_cons_of_pos he, List.singleton_append]
    · obtain ⟨w', removed, hloop, hlisted', hcursor', hremoved⟩ :=
        ih (h.cursor (w.nextTypeEntity e)) (hsplit.trans (List.append_cons pre e rest)) (Nat.le_of_succ_le_succ hn) (k + 1)
      refine ⟨w', [] :: removed, ?_, ?_, ?_, ?_⟩
      · rw [forEach_some (if_neg he), hnext]
        rw [hnext] at hloop
        rw [hloop]
        rfl
      · rwa [List.filter_cons_of_pos (by simpa using he), List.append_cons]
      · rw [hcursor']
        cases rest with
        | nil => exact hnext
        | cons y rest => rfl
      · rw [List.flatten_cons, hremoved, List.filter_cons_of_neg he, List.nil_append]

variable [Fintype ι]

lemma length_le (h : Listed objType w L) (t : EntType) : (L t).length ≤ Fintype.card ι :=
  (h.isList t).nodup.length_le_card

end Listed

end GameWorld

end DDNet
