/-
The favorite servers (`CFavorites`, `engine/client/favorites.cpp`).

A favorite has several addresses.  The entries lie in a vector, and `m_ByAddr` gives the index of the entry for an
address.  An entry is removed by moving the last one into its place.  `Add` takes the addresses out of the entries that
have them, but leaves them in `m_ByAddr` until the new entry is there.  So an address that the list repeats is looked up
again with an index that is out of date (`not_add_repeated`).

When every address of the list that is a favorite already is repeated in it as often as in its entry, this does not
happen, and the index stays consistent over all calls (`run_index_consistent`).

The functions return `none` where the code does something undefined.
-/
import DDNet.Base.NetAddr
import DDNet.Lib.SwapRemove
import Mathlib.Data.List.Nodup

namespace DDNet

open Lib

/-- `IFavorites::CEntry`; the addresses are the first `m_NumAddrs` ones of `m_aAddrs`. -/
structure FavoriteEntry where
  addrs : List NETADDR
  allowPing : Bool

/-- `MAX_SERVER_ADDRESSES`. -/
def maxServerAddresses : ℕ := 16

/-- `CFavorites`. -/
structure CFavorites where
  /-- `m_vEntries`. -/
  entries : List FavoriteEntry
  /-- `m_ByAddr`. -/
  byAddr : NETADDR → Option ℕ

namespace CFavorites

/-- `Entry`, which returns a pointer into the vector, here its index. -/
def entry (f : CFavorites) (addr : NETADDR) : Option (Option ℕ) :=
  match f.byAddr addr with
  | none => some none
  | some index => if index < f.entries.length then some (some index) else none

/-- `m_ByAddr.at(..) = Index` for the addresses of an entry; `at` throws for an address that is not there. -/
def reindex (byAddr : NETADDR → Option ℕ) (index : ℕ) : List NETADDR → Option (NETADDR → Option ℕ)
  | [] => some byAddr
  | addr :: addrs =>
      if (byAddr addr).isSome then reindex (Function.update byAddr addr (some index)) index addrs else none

/-- `RemoveEntry`. -/
def removeEntry (f : CFavorites) (index : ℕ) : Option CFavorites :=
  let entries := swapRemove f.entries index
  match entries[index]? with
  | none => some { f with entries := entries }
  | some moved => (reindex f.byAddr index moved.addrs).map fun byAddr => ⟨entries, byAddr⟩

/-- An address is taken out of the addresses of an entry, if it is there. -/
def dropAddr (addrs : List NETADDR) (addr : NETADDR) : List NETADDR :=
  if addr ∈ addrs then swapRemove addrs (addrs.idxOf addr) else addrs

/-- The first loop of `Add`, for one address. -/
def release (f : CFavorites) (addr : NETADDR) : Option CFavorites :=
  (f.entry addr).bind fun entry =>
    match entry with
    | none => some f
    | some index =>
        let f := { f with entries := f.entries.modify index fun e => { e with addrs := dropAddr e.addrs addr } }
        -- the entry has become empty
        if f.entries[index]?.any fun e => e.addrs = [] then f.removeEntry index else some f

/-- `Add`. -/
def add (f : CFavorites) (addrs : List NETADDR) : Option CFavorites :=
  (addrs.foldlM release f).map fun f =>
    let newAddrs := addrs.take maxServerAddresses
    ⟨f.entries ++ [⟨newAddrs, false⟩], fun addr => if addr ∈ newAddrs then some f.entries.length else f.byAddr addr⟩

/-- The loop of `AllowPing`, for one address. -/
def setAllowPing (allow : Bool) (f : CFavorites) (addr : NETADDR) : Option CFavorites :=
  (f.entry addr).map fun entry =>
    match entry with
    | none => f
    | some index => { f with entries := f.entries.modify index fun e => { e with allowPing := allow } }

/-- `AllowPing`. -/
def allowPing (f : CFavorites) (addrs : List NETADDR) (allow : Bool) : Option CFavorites :=
  addrs.foldlM (setAllowPing allow) f

/-- The loop of `Remove`, for one address. -/
def removeListing (f : CFavorites) (addr : NETADDR) : Option CFavorites :=
  (f.entry addr).bind fun entry =>
    match entry with
    | none => some f
    | some index =>
        let listed := (f.entries[index]?.map FavoriteEntry.addrs).getD []
        removeEntry { f with byAddr := fun addr => if addr ∈ listed then none else f.byAddr addr } index

/-- `Remove`. -/
def remove (f : CFavorites) (addrs : List NETADDR) : Option CFavorites := addrs.foldlM removeListing f

/-- No favorites. -/
def empty : CFavorites := ⟨[], fun _ => none⟩

/-! ### The index -/

/-- The index gives the entries for the addresses that are listed in them.  Besides that it may have addresses that are
`stale`, which are not listed in any entry. -/
structure Indexed (f : CFavorites) (stale : NETADDR → Prop) : Prop where
  listed : ∀ ⦃index : ℕ⦄ ⦃e : FavoriteEntry⦄, f.entries[index]? = some e → ∀ addr ∈ e.addrs, f.byAddr addr = some index
  found : ∀ ⦃addr index⦄, f.byAddr addr = some index → ¬stale addr → ∃ e, f.entries[index]? = some e ∧ addr ∈ e.addrs
  ne_nil : ∀ ⦃index : ℕ⦄ ⦃e : FavoriteEntry⦄, f.entries[index]? = some e → e.addrs ≠ []

/-- There are no stale addresses. -/
abbrev Consistent (f : CFavorites) : Prop := f.Indexed fun _ => False

variable {f : CFavorites} {stale : NETADDR → Prop}

lemma Indexed.entry_eq (h : f.Indexed stale) {addr : NETADDR} (haddr : ¬stale addr) :
    f.entry addr = some (f.byAddr addr) := by
  rw [entry]
  rcases hindex : f.byAddr addr with _ | index
  · rfl
  · obtain ⟨e, he, -⟩ := h.found hindex haddr
    exact if_pos (List.getElem?_eq_some_iff.1 he).1

/-- No address is listed in two entries. -/
lemma Indexed.unique (h : f.Indexed stale) {i j : ℕ} {e e' : FavoriteEntry} {addr : NETADDR}
    (hi : f.entries[i]? = some e) (hj : f.entries[j]? = some e') (haddr : addr ∈ e.addrs) (haddr' : addr ∈ e'.addrs) :
    i = j :=
  Option.some.inj ((h.listed hi addr haddr).symm.trans (h.listed hj addr haddr'))

lemma reindex_eq {byAddr : NETADDR → Option ℕ} (index : ℕ) {addrs : List NETADDR}
    (h : ∀ addr ∈ addrs, (byAddr addr).isSome) :
    reindex byAddr index addrs = some fun addr => if addr ∈ addrs then some index else byAddr addr := by
  induction addrs generalizing byAddr with
  | nil => simp [reindex]
  | cons a addrs ih =>
    rw [reindex, if_pos (h a List.mem_cons_self), ih]
    · congr 1
      ext1 addr
      by_cases hmem : addr ∈ addrs
      · simp [hmem]
      · by_cases ha : addr = a
        · simp [ha]
        · simp [hmem, ha]
    · intro addr haddr
      by_cases ha : addr = a
      · simp [ha]
      · rw [Function.update_of_ne ha]
        exact h addr (List.mem_cons_of_mem _ haddr)

/-- An entry whose addresses are not in the index is removed. -/
lemma removeEntry_indexed {k : ℕ} (hk : k < f.entries.length)
    (hlisted : ∀ ⦃index : ℕ⦄ ⦃e : FavoriteEntry⦄, index ≠ k → f.entries[index]? = some e →
      ∀ addr ∈ e.addrs, f.byAddr addr = some index)
    (hfound : ∀ ⦃addr index⦄, f.byAddr addr = some index → ¬stale addr →
      index ≠ k ∧ ∃ e, f.entries[index]? = some e ∧ addr ∈ e.addrs)
    (hne : ∀ ⦃index : ℕ⦄ ⦃e : FavoriteEntry⦄, index ≠ k → f.entries[index]? = some e → e.addrs ≠ []) :
    ∃ f', f.removeEntry k = some f' ∧ f'.Indexed stale ∧ f'.entries.Perm (f.entries.eraseIdx k) := by
  have hget := getElem?_swapRemove hk
  have hperm := swapRemove_perm hk
  rw [removeEntry]
  by_cases hlast : k < f.entries.length - 1
  · -- the last entry is moved
    obtain ⟨moved, hmoved⟩ : ∃ e, f.entries[f.entries.length - 1]? = some e :=
      ⟨_, List.getElem?_eq_getElem (by omega)⟩
    have hk' : (swapRemove f.entries k)[k]? = some moved := by rw [hget, if_pos hlast, if_pos rfl, hmoved]
    have hindex : ∀ addr ∈ moved.addrs, f.byAddr addr = some (f.entries.length - 1) := hlisted (by omega) hmoved
    rw [hk']
    dsimp only
    rw [reindex_eq k fun addr haddr => by rw [hindex addr haddr]; rfl]
    refine ⟨_, rfl, ⟨?_, ?_, ?_⟩, hperm⟩
    · intro index e he addr haddr
      dsimp only at he ⊢
      rw [hget] at he
      split_ifs at he with hlt heq
      · rw [hmoved, Option.some.injEq] at he
        rw [he, if_pos haddr, heq]
      · have hold := hlisted heq he addr haddr
        rw [if_neg (fun hmem => by rw [hindex addr hmem, Option.some.injEq] at hold; omega), hold]
    · intro addr index hi hstale
      dsimp only at hi ⊢
      rw [hget]
      split_ifs at hi with hmem
      · obtain rfl : k = index := by simpa using hi
        exact ⟨moved, by rw [if_pos hlast, if_pos rfl, hmoved], hmem⟩
      · obtain ⟨hik, e, he, haddr⟩ := hfound hi hstale
        have hlt := (List.getElem?_eq_some_iff.1 he).1
        refine ⟨e, ?_, haddr⟩
        rw [if_pos, if_neg hik, he]
        by_contra hge
        obtain rfl : index = f.entries.length - 1 := by omega
        rw [hmoved, Option.some.injEq] at he
        exact hmem (he ▸ haddr)
    · intro index e he
      dsimp only at he
      rw [hget] at he
      split_ifs at he with hlt heq
      · exact hne (by omega) he
      · exact hne heq he
  · have hk' : (swapRemove f.entries k)[k]? = none := by rw [hget, if_neg hlast]
    rw [hk']
    refine ⟨_, rfl, ⟨?_, ?_, ?_⟩, hperm⟩
    · intro index e he addr haddr
      dsimp only at he ⊢
      rw [hget] at he
      split_ifs at he with hlt heq
      · omega
      · exact hlisted heq he addr haddr
    · intro addr index hi hstale
      obtain ⟨hik, e, he, haddr⟩ := hfound hi hstale
      have hlt := (List.getElem?_eq_some_iff.1 he).1
      refine ⟨e, ?_, haddr⟩
      dsimp only
      rw [hget, if_pos (by omega), if_neg hik, he]
    · intro index e he
      dsimp only at he
      rw [hget] at he
      split_ifs at he with hlt heq
      · omega
      · exact hne heq he

lemma dropAddr_perm (addrs : List NETADDR) (addr : NETADDR) : (dropAddr addrs addr).Perm (addrs.erase addr) := by
  rw [dropAddr]
  split_ifs with h
  · exact swapRemove_idxOf_perm h
  · rw [List.erase_of_not_mem h]

lemma Indexed.mono (h : f.Indexed stale) {stale' : NETADDR → Prop} (hle : ∀ addr, stale addr → stale' addr) :
    f.Indexed stale' :=
  ⟨h.listed, fun _ _ hi hnot => h.found hi fun hs => hnot (hle _ hs), h.ne_nil⟩

/-- One address in the first loop of `Add`: one occurrence of it is taken out of the entry that has it, and it is stale if
there was no other. -/
lemma release_step (h : f.Indexed stale) {addr : NETADDR} (haddr : ¬stale addr) :
    ∃ f', f.release addr = some f' ∧
      f'.Indexed (fun a => stale a ∨ a = addr ∧ ∃ e ∈ f.entries, addr ∈ e.addrs ∧ addr ∉ e.addrs.erase addr) ∧
      ∀ e' ∈ f'.entries, ∃ e ∈ f.entries, e'.addrs.Perm (e.addrs.erase addr) := by
  rw [release, h.entry_eq haddr, Option.bind_some]
  rcases hindex : f.byAddr addr with _ | k
  · refine ⟨f, rfl, h.mono fun _ hs => Or.inl hs, fun e he => ⟨e, he, ?_⟩⟩
    obtain ⟨i, hi⟩ := List.mem_iff_getElem?.1 he
    rw [List.erase_of_not_mem fun hmem => absurd (hindex.symm.trans (h.listed hi addr hmem)) (by simp)]
  · obtain ⟨e, he, hmem⟩ := h.found hindex haddr
    -- the other entries do not have the address
    have hother : ∀ i e', i ≠ k → f.entries[i]? = some e' → addr ∉ e'.addrs := fun i e' hik he' hmem' =>
      hik (h.unique he' he hmem' hmem)
    have hget : ∀ i, (f.entries.modify k fun e => { e with addrs := dropAddr e.addrs addr })[i]? =
        if i = k then some { e with addrs := dropAddr e.addrs addr } else f.entries[i]? := by
      intro i
      rw [List.getElem?_modify]
      split_ifs with hki hik hik
      · rw [← hki, he]
        rfl
      · exact absurd hki.symm hik
      · exact absurd hik.symm hki
      · simp
    have hperm := dropAddr_perm e.addrs addr
    dsimp only
    generalize hmodified : f.entries.modify k (fun e => { e with addrs := dropAddr e.addrs addr }) = entries at hget ⊢
    have hk : k < entries.length := by
      rw [← hmodified, List.length_modify]
      exact (List.getElem?_eq_some_iff.1 he).1
    have hfrom : ∀ e' ∈ entries, ∃ e ∈ f.entries, e'.addrs.Perm (e.addrs.erase addr) := by
      intro e' he'
      obtain ⟨i, hi⟩ := List.mem_iff_getElem?.1 he'
      rw [hget] at hi
      split_ifs at hi with hik
      · obtain rfl := Option.some.inj hi
        exact ⟨e, List.mem_of_getElem? he, hperm⟩
      · refine ⟨e', List.mem_of_getElem? hi, ?_⟩
        rw [List.erase_of_not_mem (hother i e' hik hi)]
    rw [hget k, if_pos rfl, Option.any_some]
    by_cases hempty : dropAddr e.addrs addr = []
    · rw [if_pos (by simpa using hempty)]
      rw [hempty] at hperm
      obtain ⟨f', hremove, hindexed, hleft⟩ := @removeEntry_indexed
        { f with entries := entries } (fun a => stale a ∨ a = addr) _ hk
        (fun i e' hik he' => by
          rw [hget, if_neg hik] at he'
          exact h.listed he')
        (fun a i hi hnot => by
          rw [not_or] at hnot
          obtain ⟨e', he', ha⟩ := h.found hi hnot.1
          have hik : i ≠ k := by
            rintro rfl
            obtain rfl := Option.some.inj (he.symm.trans he')
            have hmem' : a ∈ e.addrs.erase addr := (List.mem_erase_of_ne hnot.2).2 ha
            exact absurd (hperm.mem_iff.2 hmem') (by simp)
          exact ⟨hik, e', by rw [hget, if_neg hik, he'], ha⟩)
        (fun i e' hik he' => by
          rw [hget, if_neg hik] at he'
          exact h.ne_nil he')
      refine ⟨f', hremove, hindexed.mono ?_, fun e' he' => hfrom e' (List.mem_of_mem_eraseIdx (hleft.mem_iff.1 he'))⟩
      rintro a (hs | rfl)
      · exact Or.inl hs
      · exact Or.inr ⟨rfl, e, List.mem_of_getElem? he, hmem, fun hmem' => absurd (hperm.mem_iff.2 hmem') (by simp)⟩
    · rw [if_neg (by simpa using hempty)]
      refine ⟨_, rfl, ⟨?_, ?_, ?_⟩, hfrom⟩
      · intro i e' he' a ha
        dsimp only at he' ⊢
        rw [hget] at he'
        split_ifs at he' with hik
        · obtain rfl := Option.some.inj he'
          rw [hik]
          exact h.listed he a (List.mem_of_mem_erase (hperm.mem_iff.1 ha))
        · exact h.listed he' a ha
      · intro a i hi hnot
        dsimp only at hi hnot ⊢
        rw [not_or] at hnot
        obtain ⟨e', he', ha⟩ := h.found hi hnot.1
        rw [hget]
        split_ifs with hik
        · subst hik
          obtain rfl := Option.some.inj (he.symm.trans he')
          refine ⟨_, rfl, hperm.mem_iff.2 ?_⟩
          by_cases heq : a = addr
          · subst heq
            by_contra hnone
            exact hnot.2 ⟨rfl, e, List.mem_of_getElem? he, hmem, hnone⟩
          · exact (List.mem_erase_of_ne heq).2 ha
        · exact ⟨e', he', ha⟩
      · intro i e' he'
        dsimp only at he'
        rw [hget] at he'
        split_ifs at he' with hik
        · obtain rfl := Option.some.inj he'
          exact hempty
        · exact h.ne_nil he'

/-- Every address of the list that is listed in an entry is repeated in the list as often as in the entry. -/
def Matches (f : CFavorites) (addrs : List NETADDR) : Prop :=
  ∀ e ∈ f.entries, ∀ addr ∈ addrs, addr ∈ e.addrs → e.addrs.count addr = addrs.count addr

/-- The first loop of `Add` takes the addresses out of all entries. -/
lemma release_all {addrs rest : List NETADDR} (h : f.Indexed stale) (hfresh : ∀ a, stale a → a ∈ addrs ∧ a ∉ rest)
    (hrest : ∀ a ∈ rest, a ∈ addrs)
    (hcount : ∀ e ∈ f.entries, ∀ a ∈ addrs, a ∈ e.addrs → e.addrs.count a = rest.count a) :
    ∃ f', rest.foldlM release f = some f' ∧ f'.Indexed (· ∈ addrs) ∧ (∀ e ∈ f'.entries, ∀ a ∈ addrs, a ∉ e.addrs) ∧
      ∀ e' ∈ f'.entries, ∃ e ∈ f.entries, e'.addrs.Subperm e.addrs := by
  induction rest generalizing f stale with
  | nil =>
    refine ⟨f, rfl, h.mono fun a hs => (hfresh a hs).1, fun e he a ha hmem => ?_, fun e he => ⟨e, he, .refl _⟩⟩
    have hzero := hcount e he a ha hmem
    rw [List.count_nil, List.count_eq_zero] at hzero
    exact hzero hmem
  | cons a rest ih =>
    have ha : ¬stale a := fun hs => (hfresh a hs).2 List.mem_cons_self
    obtain ⟨f₁, hrelease, h₁, hfrom⟩ := release_step h ha
    have hnext := ih h₁ ?_ (fun b hb => hrest b (List.mem_cons_of_mem _ hb)) ?_
    · obtain ⟨f', hfold, h', hgone, hsub⟩ := hnext
      rw [List.foldlM_cons, hrelease]
      refine ⟨f', hfold, h', hgone, fun e' he' => ?_⟩
      obtain ⟨e₁, he₁, hsub₁⟩ := hsub e' he'
      obtain ⟨e, he, hperm⟩ := hfrom e₁ he₁
      exact ⟨e, he, hsub₁.trans (hperm.subperm.trans (List.erase_sublist ..).subperm)⟩
    · rintro b (hs | ⟨rfl, e, he, hmem, hgone⟩)
      · exact ⟨(hfresh b hs).1, fun hb => (hfresh b hs).2 (List.mem_cons_of_mem _ hb)⟩
      · have hb := hrest b List.mem_cons_self
        refine ⟨hb, fun hagain => hgone ?_⟩
        -- it comes again in the list, so it was in the entry more than once
        have heq := hcount e he b hb hmem
        have hpos : 0 < rest.count b := List.count_pos_iff.2 hagain
        rw [← List.count_pos_iff, List.count_erase_self, heq, List.count_cons_self]
        omega
    · intro e' he' b hb hmem
      obtain ⟨e, he, hperm⟩ := hfrom e' he'
      have heq := hcount e he b hb (List.mem_of_mem_erase (hperm.mem_iff.1 hmem))
      rw [hperm.count_eq]
      by_cases hba : b = a
      · rw [hba, List.count_erase_self, ← hba, heq, hba, List.count_cons_self, Nat.add_sub_cancel]
      · rw [List.count_erase_of_ne hba, heq, List.count_cons_of_ne (Ne.symm hba)]

lemma add_consistent (h : f.Consistent) {addrs : List NETADDR} (hne : addrs ≠ [])
    (hlen : addrs.length ≤ maxServerAddresses) (hmatches : f.Matches addrs) :
    ∃ f', f.add addrs = some f' ∧ f'.Consistent ∧
      ∀ e' ∈ f'.entries, e'.addrs = addrs ∨ ∃ e ∈ f.entries, e'.addrs.Subperm e.addrs := by
  obtain ⟨f₁, hrelease, h₁, hgone, hsub⟩ := release_all h (fun a hs => hs.elim) (fun a ha => ha) hmatches
  have htake : addrs.take maxServerAddresses = addrs := List.take_of_length_le hlen
  rw [add, hrelease, Option.map_some, htake]
  have hget : ∀ i e, (f₁.entries ++ [⟨addrs, false⟩])[i]? = some e →
      f₁.entries[i]? = some e ∨ i = f₁.entries.length ∧ e = ⟨addrs, false⟩ := by
    intro i e he
    rcases Nat.lt_or_ge i f₁.entries.length with hlt | hge
    · rw [List.getElem?_append_left hlt] at he
      exact Or.inl he
    · have hi := (List.getElem?_eq_some_iff.1 he).1
      rw [List.length_append, List.length_singleton] at hi
      obtain rfl : i = f₁.entries.length := by omega
      rw [List.getElem?_concat_length, Option.some.injEq] at he
      exact Or.inr ⟨rfl, he.symm⟩
  refine ⟨_, rfl, ⟨?_, ?_, ?_⟩, ?_⟩
  · intro i e he a ha
    dsimp only at he ⊢
    rcases hget i e he with hold | ⟨rfl, rfl⟩
    · rw [if_neg fun hmem => hgone e (List.mem_of_getElem? hold) a hmem ha]
      exact h₁.listed hold a ha
    · exact if_pos ha
  · intro a i hi _
    dsimp only at hi ⊢
    split_ifs at hi with hmem
    · obtain rfl := Option.some.inj hi
      exact ⟨_, List.getElem?_concat_length, hmem⟩
    · obtain ⟨e, he, ha⟩ := h₁.found hi hmem
      refine ⟨e, ?_, ha⟩
      rw [List.getElem?_append_left (List.getElem?_eq_some_iff.1 he).1, he]
  · intro i e he
    rcases hget i e he with hold | ⟨rfl, rfl⟩
    · exact h₁.ne_nil hold
    · exact hne

  · intro e he
    rcases List.mem_append.1 he with hold | hnew
    · exact Or.inr (hsub e hold)
    · rw [List.mem_singleton] at hnew
      exact Or.inl (by rw [hnew])

/-! ### Changing and removing entries -/

lemma setAllowPing_consistent (h : f.Consistent) (allow : Bool) (addr : NETADDR) :
    ∃ f', f.setAllowPing allow addr = some f' ∧ f'.Consistent ∧
      f'.entries.map FavoriteEntry.addrs = f.entries.map FavoriteEntry.addrs := by
  rw [setAllowPing, h.entry_eq not_false, Option.map_some]
  rcases f.byAddr addr with _ | k
  · exact ⟨f, rfl, h, rfl⟩
  · dsimp only
    have hmap : (f.entries.modify k fun e => { e with allowPing := allow }).map FavoriteEntry.addrs =
        f.entries.map FavoriteEntry.addrs := by
      refine List.ext_getElem? fun i => ?_
      rw [List.getElem?_map, List.getElem?_modify, List.getElem?_map]
      split_ifs
      · simp [Function.comp_def]
      · simp
    -- the entries at one index have the same addresses
    have hsame : ∀ {l l' : List FavoriteEntry}, l.map FavoriteEntry.addrs = l'.map FavoriteEntry.addrs →
        ∀ {i : ℕ} {e : FavoriteEntry}, l[i]? = some e → ∃ e', l'[i]? = some e' ∧ e'.addrs = e.addrs := by
      intro l l' hll i e he
      have hi := congrArg (·[i]?) hll
      simp only [List.getElem?_map, he, Option.map_some] at hi
      exact Option.map_eq_some_iff.1 hi.symm
    refine ⟨_, rfl, ⟨?_, ?_, ?_⟩, hmap⟩
    · intro i e he b hb
      obtain ⟨e', he', heq⟩ := hsame hmap he
      exact h.listed he' b (heq ▸ hb)
    · intro b i hi hnot
      obtain ⟨e, he, hb⟩ := h.found hi hnot
      obtain ⟨e', he', heq⟩ := hsame hmap.symm he
      exact ⟨e', he', heq ▸ hb⟩
    · intro i e he
      obtain ⟨e', he', heq⟩ := hsame hmap he
      exact heq ▸ h.ne_nil he'

lemma allowPing_consistent (h : f.Consistent) (addrs : List NETADDR) (allow : Bool) :
    ∃ f', f.allowPing addrs allow = some f' ∧ f'.Consistent ∧
      f'.entries.map FavoriteEntry.addrs = f.entries.map FavoriteEntry.addrs := by
  rw [allowPing]
  induction addrs generalizing f with
  | nil => exact ⟨f, rfl, h, rfl⟩
  | cons a addrs ih =>
    obtain ⟨f₁, hstep, h₁, hsame₁⟩ := setAllowPing_consistent h allow a
    obtain ⟨f', hfold, h', hsame'⟩ := ih h₁
    rw [List.foldlM_cons, hstep]
    exact ⟨f', hfold, h', hsame'.trans hsame₁⟩

/-- All but one are left by a filter. -/
lemma filter_eq_eraseIdx {α : Type*} {p : α → Bool} {l : List α} {k : ℕ} (hk : k < l.length) (hdrop : p l[k] = false)
    (hkeep : ∀ i x, i ≠ k → l[i]? = some x → p x = true) : l.filter p = l.eraseIdx k := by
  have hsplit : l.take k ++ l[k] :: l.drop (k + 1) = l := by
    rw [← List.drop_eq_getElem_cons hk, List.take_append_drop]
  have htake : (l.take k).filter p = l.take k := by
    refine List.filter_eq_self.2 fun x hx => ?_
    obtain ⟨i, hi⟩ := List.mem_iff_getElem?.1 hx
    rw [List.getElem?_take] at hi
    split_ifs at hi with hik
    exact hkeep i x (by omega) hi
  have hrest : (l.drop (k + 1)).filter p = l.drop (k + 1) := by
    refine List.filter_eq_self.2 fun x hx => ?_
    obtain ⟨i, hi⟩ := List.mem_iff_getElem?.1 hx
    rw [List.getElem?_drop] at hi
    exact hkeep (k + 1 + i) x (by omega) hi
  conv_lhs => rw [← hsplit]
  rw [List.filter_append, List.filter_cons_of_neg (by simp [hdrop]), htake, hrest, List.eraseIdx_eq_take_drop_succ]

/-- One address is enough for its entry to be removed. -/
lemma removeListing_consistent (h : f.Consistent) (addr : NETADDR) :
    ∃ f', f.removeListing addr = some f' ∧ f'.Consistent ∧
      f'.entries.Perm (f.entries.filter fun e => addr ∉ e.addrs) := by
  rw [removeListing, h.entry_eq not_false, Option.bind_some]
  rcases hindex : f.byAddr addr with _ | k
  · refine ⟨f, rfl, h, ?_⟩
    rw [List.filter_eq_self.2 fun e he => ?_]
    obtain ⟨i, hi⟩ := List.mem_iff_getElem?.1 he
    simpa using fun hmem => absurd (hindex.symm.trans (h.listed hi addr hmem)) (by simp)
  · obtain ⟨e, he, hmem⟩ := h.found hindex not_false
    have hk := (List.getElem?_eq_some_iff.1 he).1
    dsimp only
    rw [he, Option.map_some, Option.getD_some]
    obtain ⟨f₁, hremove, h₁, hperm⟩ := @removeEntry_indexed
      { f with byAddr := fun addr => if addr ∈ e.addrs then none else f.byAddr addr } (fun _ => False) _ hk
      (fun i e' hik he' b hb => by
        dsimp only
        rw [if_neg fun hb' => hik (h.unique he' he hb hb')]
        exact h.listed he' b hb)
      (fun b i hi hnot => by
        dsimp only at hi
        split_ifs at hi with hb
        obtain ⟨e', he', hb'⟩ := h.found hi hnot
        refine ⟨?_, e', he', hb'⟩
        rintro rfl
        exact hb (Option.some.inj (he.symm.trans he') ▸ hb'))
      (fun i e' _ he' => h.ne_nil he')
    refine ⟨f₁, hremove, h₁, ?_⟩
    rw [filter_eq_eraseIdx hk]
    · exact hperm
    · rw [(List.getElem?_eq_some_iff.1 he).2]
      simpa using hmem
    · intro i e' hik he'
      simpa using fun hmem' => hik (h.unique he' he hmem' hmem)

/-- `Remove` leaves the entries that list none of the addresses. -/
lemma remove_consistent (h : f.Consistent) (addrs : List NETADDR) :
    ∃ f', f.remove addrs = some f' ∧ f'.Consistent ∧
      f'.entries.Perm (f.entries.filter fun e => ∀ a ∈ addrs, a ∉ e.addrs) := by
  rw [remove]
  induction addrs generalizing f with
  | nil => exact ⟨f, rfl, h, by simp⟩
  | cons a addrs ih =>
    obtain ⟨f₁, hstep, h₁, hleft⟩ := removeListing_consistent h a
    obtain ⟨f', hfold, h', hperm⟩ := ih h₁
    rw [List.foldlM_cons, hstep]
    refine ⟨f', hfold, h', hperm.trans ((hleft.filter _).trans ?_)⟩
    rw [List.filter_filter]
    simp [Bool.and_comm]

/-! ### All calls -/

/-- A call. -/
inductive Call where
  | add (addrs : List NETADDR)
  | allowPing (addrs : List NETADDR) (allow : Bool)
  | remove (addrs : List NETADDR)

namespace Call

def exec (f : CFavorites) : Call → Option CFavorites
  | add addrs => f.add addrs
  | allowPing addrs allow => f.allowPing addrs allow
  | remove addrs => f.remove addrs

/-- The list of addresses. -/
def addrs : Call → List NETADDR
  | add addrs => addrs
  | allowPing addrs _ => addrs
  | remove addrs => addrs

/-- `Add` does not look up an address again that it has taken out, and takes out every occurrence of it. -/
def Clean (f : CFavorites) : Call → Prop
  | add addrs => f.Matches addrs
  | _ => True

end Call

/-- A sequence of calls. -/
def run (f : CFavorites) (cs : List Call) : Option CFavorites := cs.foldlM Call.exec f

/-- Every call is clean when it is made. -/
def CleanRun : CFavorites → List Call → Prop
  | _, [] => True
  | f, c :: cs => c.Clean f ∧ ∀ f', c.exec f = some f' → CleanRun f' cs

lemma exec_consistent (h : f.Consistent) {c : Call} (hne : c.addrs ≠ []) (hlen : c.addrs.length ≤ maxServerAddresses)
    (hclean : c.Clean f) :
    ∃ f', c.exec f = some f' ∧ f'.Consistent ∧
      ∀ e' ∈ f'.entries, e'.addrs = c.addrs ∨ ∃ e ∈ f.entries, e'.addrs.Subperm e.addrs := by
  cases c with
  | add addrs => exact add_consistent h hne hlen hclean
  | allowPing addrs allow =>
    obtain ⟨f', hallow, h', hsame⟩ := allowPing_consistent h addrs allow
    refine ⟨f', hallow, h', fun e' he' => Or.inr ?_⟩
    have hmem : e'.addrs ∈ f.entries.map FavoriteEntry.addrs := hsame ▸ List.mem_map_of_mem he'
    obtain ⟨e, he, heq⟩ := List.mem_map.1 hmem
    exact ⟨e, he, heq ▸ .refl _⟩
  | remove addrs =>
    obtain ⟨f', hremove, h', hperm⟩ := remove_consistent h addrs
    exact ⟨f', hremove, h', fun e' he' => Or.inr ⟨e', List.mem_of_mem_filter (hperm.mem_iff.1 he'), .refl _⟩⟩

lemma run_cons (f : CFavorites) (c : Call) (cs : List Call) : f.run (c :: cs) = (c.exec f).bind fun f => f.run cs := by
  rw [run, List.foldlM_cons]
  rfl

lemma empty_consistent : empty.Consistent where
  listed := by intro i e he; simp [empty] at he
  found := by intro a i hi; simp [empty] at hi
  ne_nil := by intro i e he; simp [empty] at he

lemma run_consistent_of_clean (h : f.Consistent) {cs : List Call}
    (hlists : ∀ c ∈ cs, c.addrs ≠ [] ∧ c.addrs.length ≤ maxServerAddresses) (hclean : CleanRun f cs) :
    ∃ f', f.run cs = some f' ∧ f'.Consistent := by
  induction cs generalizing f with
  | nil => exact ⟨f, rfl, h⟩
  | cons c cs ih =>
    obtain ⟨hne, hlen⟩ := hlists c List.mem_cons_self
    obtain ⟨f₁, hexec, h₁, -⟩ := exec_consistent h hne hlen hclean.1
    rw [run_cons, hexec]
    exact ih h₁ (fun c hc => hlists c (List.mem_cons_of_mem _ hc)) (hclean.2 f₁ hexec)

/-- After every sequence of clean calls the index has exactly the addresses that are listed in the entries, each with the
entry that lists it, which is the only one.  No entry is empty, and removing addresses of an entry removes this entry. -/
theorem run_index_consistent (cs : List Call) (hlists : ∀ c ∈ cs, c.addrs ≠ [] ∧ c.addrs.length ≤ maxServerAddresses)
    (hclean : CleanRun empty cs) :
    ∃ f, run empty cs = some f ∧
      (∀ addr index, f.byAddr addr = some index → ∃ e, f.entries[index]? = some e ∧ addr ∈ e.addrs) ∧
      (∀ index e, f.entries[index]? = some e → e.addrs ≠ [] ∧ ∀ addr ∈ e.addrs, f.byAddr addr = some index) ∧
      (∀ (i j : ℕ) (e e' : FavoriteEntry) (addr : NETADDR), f.entries[i]? = some e →
        f.entries[j]? = some e' → addr ∈ e.addrs → addr ∈ e'.addrs → i = j) ∧
      ∀ (index : ℕ) (e : FavoriteEntry) (addrs : List NETADDR), f.entries[index]? = some e → addrs ≠ [] →
        (∀ addr ∈ addrs, addr ∈ e.addrs) → ∃ f', f.remove addrs = some f' ∧ f'.entries.Perm (f.entries.eraseIdx index) := by
  obtain ⟨f, hrun, h⟩ := run_consistent_of_clean empty_consistent hlists hclean
  refine ⟨f, hrun, fun addr index hi => h.found hi not_false, fun index e he => ⟨h.ne_nil he, h.listed he⟩,
    fun i j e e' addr hi hj => h.unique hi hj, ?_⟩
  intro index e addrs he hne hsub
  obtain ⟨f', hremove, -, hperm⟩ := remove_consistent h addrs
  refine ⟨f', hremove, ?_⟩
  have hk := (List.getElem?_eq_some_iff.1 he).1
  rw [filter_eq_eraseIdx hk] at hperm
  · exact hperm
  · rw [(List.getElem?_eq_some_iff.1 he).2]
    obtain ⟨a, ha⟩ := List.exists_mem_of_ne_nil addrs hne
    simpa using ⟨a, ha, hsub a ha⟩
  · intro i e' hik he'
    simpa using fun a ha hmem => hik (h.unique he' he hmem (hsub a ha))

/-- Lists without repetitions are clean. -/
theorem cleanRun_of_nodup (cs : List Call) (hlists : ∀ c ∈ cs, c.addrs ≠ [] ∧ c.addrs.length ≤ maxServerAddresses)
    (hnodup : ∀ c ∈ cs, c.addrs.Nodup) : CleanRun empty cs := by
  suffices hmain : ∀ f : CFavorites, f.Consistent → (∀ e ∈ f.entries, e.addrs.Nodup) → CleanRun f cs from
    hmain empty empty_consistent (by simp [empty])
  induction cs with
  | nil => exact fun _ _ _ => trivial
  | cons c cs ih =>
    intro f h hentries
    have hc := hnodup c List.mem_cons_self
    have hclean : c.Clean f := by
      cases c with
      | add addrs =>
        intro e he a ha hmem
        have haddrs : addrs.Nodup := hc
        rw [List.count_eq_one_of_mem (hentries e he) hmem, List.count_eq_one_of_mem haddrs ha]
      | allowPing => trivial
      | remove => trivial
    refine ⟨hclean, fun f' hexec => ?_⟩
    obtain ⟨hne, hlen⟩ := hlists c List.mem_cons_self
    obtain ⟨f₁, hexec₁, h₁, hfrom⟩ := exec_consistent h hne hlen hclean
    rw [hexec, Option.some.injEq] at hexec₁
    subst hexec₁
    refine ih (fun c hc => hlists c (List.mem_cons_of_mem _ hc)) (fun c hc => hnodup c (List.mem_cons_of_mem _ hc)) f' h₁ ?_
    intro e' he'
    rcases hfrom e' he' with heq | ⟨e, he, hsub⟩
    · rwa [heq]
    · obtain ⟨l, hperm, hsublist⟩ := hsub
      exact hperm.nodup_iff.1 ((hentries e he).sublist hsublist)

/-- The address 127.0.0.1 with a port. -/
def localhost (port : UInt16) : NETADDR := ⟨nettypeIpv4, #v[127, 0, 0, 1, 0, 0, 0, 0, 0, 0, 0, 0, 0, 0, 0, 0], port⟩

/-- Two lists that overlap, and one of the addresses is removed. -/
theorem run_index_consistent_localhost :
    ∃ f, run empty [.add [localhost 8303, localhost 8304], .add [localhost 8304, localhost 8305],
        .remove [localhost 8303]] = some f ∧
      (∀ addr index, f.byAddr addr = some index → ∃ e, f.entries[index]? = some e ∧ addr ∈ e.addrs) ∧
      (∀ index e, f.entries[index]? = some e → e.addrs ≠ [] ∧ ∀ addr ∈ e.addrs, f.byAddr addr = some index) ∧
      (∀ (i j : ℕ) (e e' : FavoriteEntry) (addr : NETADDR), f.entries[i]? = some e →
        f.entries[j]? = some e' → addr ∈ e.addrs → addr ∈ e'.addrs → i = j) ∧
      ∀ (index : ℕ) (e : FavoriteEntry) (addrs : List NETADDR), f.entries[index]? = some e → addrs ≠ [] →
        (∀ addr ∈ addrs, addr ∈ e.addrs) → ∃ f', f.remove addrs = some f' ∧ f'.entries.Perm (f.entries.eraseIdx index) :=
  run_index_consistent
    [.add [localhost 8303, localhost 8304], .add [localhost 8304, localhost 8305], .remove [localhost 8303]]
    (by decide) (cleanRun_of_nodup _ (by decide) (by decide))

/-- A list that repeats the address of the last entry: the entry is removed, and the address is looked up again with its
index. -/
theorem not_add_repeated : (run empty [.add [localhost 8303], .add [localhost 8303, localhost 8303]]).isNone := by decide

end CFavorites

end DDNet
