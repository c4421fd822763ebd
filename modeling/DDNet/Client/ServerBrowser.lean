/-
The requests of the server browser (`CServerBrowser`, `engine/client/serverbrowser.cpp`).

The entries of the servers are linked in a list of those that are asked for their infos.  `QueueRequest` puts an entry
behind the last one without a look whether it is in the list already, and `RemoveRequest` takes an entry for one of the
list if it has a neighbour or is the first one.  The list stays a list as long as `leak_ip_address_to_all_servers`
chooses no entry that is in it (`wellFormed_of_run`).

An entry is given by its index in `m_ppServerlist`; it is only freed with all others, in `CleanUp`.
-/
import DDNet.Client.Favorites
import DDNet.Lib.LinkedList
import DDNet.Lib.Transition
import Mathlib.Data.List.Forall2
import Mathlib.Data.List.Range

namespace DDNet

open Lib

/-- `CServerEntry`. -/
structure CServerEntry where
  addresses : List NETADDR
  requestTime : ℤ
  requestIgnoreInfo : Bool

/-- `CServerBrowser`. -/
structure CServerBrowser where
  /-- `m_ppServerlist`. -/
  servers : List CServerEntry
  byAddr : NETADDR → Option ℕ
  /-- `m_pFirstReqServer`, and `m_pNextReq` and `m_pPrevReq` of the entries. -/
  requests : DList ℕ
  lastReqServer : Option ℕ
  numRequests : ℤ
  currentMaxRequests : ℤ

namespace CServerBrowser

/-- `CleanUp`. -/
def cleanUp (brMaxRequests : ℤ) : CServerBrowser where
  servers := []
  byAddr _ := none
  requests := ⟨none, fun _ => none, fun _ => none⟩
  lastReqServer := none
  numRequests := 0
  currentMaxRequests := brMaxRequests

/-- `Find`. -/
def find (s : CServerBrowser) (addr : NETADDR) : Option ℕ := s.byAddr addr

/-- `Add`; the entry has the index `s.servers.length`. -/
def add (s : CServerBrowser) (addrs : List NETADDR) : CServerBrowser :=
  let index := s.servers.length
  { s with
    servers := s.servers ++ [⟨addrs, 0, false⟩]
    byAddr := fun addr => if addr ∈ addrs then some index else s.byAddr addr
    requests := ⟨s.requests.head, Function.update s.requests.next index none,
      Function.update s.requests.prev index none⟩ }

def setRequestTime (s : CServerBrowser) (entry : ℕ) (time : ℤ) : CServerBrowser :=
  { s with servers := s.servers.modify entry fun e => { e with requestTime := time } }

def setRequestIgnoreInfo (s : CServerBrowser) (entry : ℕ) : CServerBrowser :=
  { s with servers := s.servers.modify entry fun e => { e with requestIgnoreInfo := true } }

/-- What `RemoveRequest` takes for a sign that an entry is in the list. -/
def isQueued (s : CServerBrowser) (entry : ℕ) : Bool :=
  (s.requests.prev entry).isSome || (s.requests.next entry).isSome || s.requests.head == some entry

/-- `RemoveRequest`. -/
def removeRequest (s : CServerBrowser) (entry : ℕ) : CServerBrowser :=
  if s.isQueued entry then
    let unlinked := s.requests.unlink entry
    { s with
      requests := ⟨unlinked.head, Function.update unlinked.next entry none, Function.update unlinked.prev entry none⟩
      lastReqServer := if (s.requests.next entry).isSome then s.lastReqServer else s.requests.prev entry
      numRequests := s.numRequests - 1 }
  else s

/-- `QueueRequest`. -/
def queueRequest (s : CServerBrowser) (entry : ℕ) : CServerBrowser :=
  { s with
    requests := ⟨if s.lastReqServer.isSome then s.requests.head else some entry,
      Function.update (setAt s.requests.next s.lastReqServer (some entry)) entry none,
      Function.update s.requests.prev entry s.lastReqServer⟩
    lastReqServer := some entry
    numRequests := s.numRequests + 1 }

/-! ### Building the list -/

/-- A server of the HTTP list. -/
def addServer (s : CServerBrowser) (addrs : List NETADDR) : CServerBrowser :=
  (s.add addrs).setRequestIgnoreInfo s.servers.length

/-- A favorite, with `pFavorites->m_AllowPing`. -/
def addFavorite (allowPing : Bool) (s : CServerBrowser) (favorite : FavoriteEntry) : CServerBrowser :=
  if favorite.addrs.any fun addr => (s.find addr).isSome then s
  else
    let index := s.servers.length
    let s := s.add favorite.addrs
    if allowPing then s.queueRequest index else s

/-- `pFavorites->m_AllowPing`: the one of the first favorite. -/
def firstAllowPing (favorites : List FavoriteEntry) : Bool := favorites.head?.any FavoriteEntry.allowPing

/-- `UpdateFromHttp`; the favorites are only there for the list of favorites. -/
def updateFromHttp (s : CServerBrowser) (servers : List (List NETADDR)) (want : List NETADDR → Bool)
    (favorites : Option (List FavoriteEntry)) : CServerBrowser :=
  let s := (servers.filter want).foldl addServer s
  match favorites with
  | none => s
  | some favorites => favorites.foldl (addFavorite (firstAllowPing favorites)) s

/-! ### Leaking the address -/

/-- The address that is considered, without its port. -/
def leakAddr (s : CServerBrowser) (entry : ℕ) : NETADDR :=
  let addrs := (s.servers[entry]?.map CServerEntry.addresses).getD []
  { addrs.headD ⟨0, Vector.replicate 16 0, 0⟩ with port := 0 }

/-- `net_addr_comp` of these addresses. -/
def leakComp (s : CServerBrowser) (i j : ℕ) : Ordering := memComp (s.leakAddr i).bytes (s.leakAddr j).bytes

/-- The entries with the address of `start`, of which there are some already, and the groups behind them. -/
def leakGroupsFrom (s : CServerBrowser) (start : ℕ) (group : List ℕ) : List ℕ → List (List ℕ)
  | [] => [group]
  | i :: rest =>
    if s.leakComp start i ≠ .eq then group :: leakGroupsFrom s i [i] rest
    else leakGroupsFrom s start (group ++ [i]) rest

/-- The sorted entries in groups of the same address. -/
def leakGroups (s : CServerBrowser) : List ℕ → List (List ℕ)
  | [] => []
  | i :: rest => s.leakGroupsFrom i [i] rest

/-- What may be chosen: an entry of each group, the entries being sorted in some way. -/
def IsChoice (s : CServerBrowser) (chosen : List ℕ) : Prop :=
  ∃ order : List ℕ, order.Perm (List.range s.servers.length) ∧ order.Pairwise (fun i j => s.leakComp j i ≠ .lt) ∧
    List.Forall₂ (· ∈ ·) chosen (s.leakGroups order)

/-- `Con_LeakIpAddress`. -/
def conLeakIpAddress (s : CServerBrowser) (chosen : List ℕ) : CServerBrowser :=
  chosen.foldl (fun s entry => (s.setRequestIgnoreInfo entry).queueRequest entry) s

/-! ### Answers and time -/

/-- `OnServerInfoUpdate`, with whether the token is wrong. -/
def onServerInfoUpdate (s : CServerBrowser) (lan drop : Bool) (addr : NETADDR) : CServerBrowser :=
  if drop then s
  else
    match s.find addr with
    | none => if lan then (s.add [addr]).removeRequest s.servers.length else s
    | some entry =>
      let requestTime := (s.servers[entry]?.map CServerEntry.requestTime).getD 0
      let s := if !lan && decide (requestTime > 0) then s.setRequestTime entry (-1) else s
      s.removeRequest entry

/-- The loop of `Update` that sends requests, for some number of rounds; `none` if it goes on. -/
def sendLoop (now timeout sent : ℤ) : ℕ → Option ℕ → ℤ → CServerBrowser → Option (ℤ × CServerBrowser)
  | _, none, count, s => some (count, s)
  | 0, some _, _, _ => none
  | rounds + 1, some entry, count, s =>
    let requestTime := (s.servers[entry]?.map CServerEntry.requestTime).getD 0
    if requestTime ≠ 0 ∧ requestTime + timeout < now then
      sendLoop now timeout sent rounds (s.requests.next entry) count s
    else if count = s.currentMaxRequests then some (count, s)
    else
      let s := if requestTime = 0 then s.setRequestTime entry sent else s
      sendLoop now timeout sent rounds (s.requests.next entry) (count + 1) s

/-- The loop that lets all requests be sent again. -/
def resetLoop : ℕ → Option ℕ → CServerBrowser → Option CServerBrowser
  | _, none, s => some s
  | 0, some _, _ => none
  | rounds + 1, some entry, s => resetLoop rounds (s.requests.next entry) (s.setRequestTime entry 0)

/-- The loop that gives up all requests. -/
def releaseLoop : ℕ → Option ℕ → CServerBrowser → Option CServerBrowser
  | _, none, s => some s
  | 0, some _, _ => none
  | rounds + 1, some entry, s => releaseLoop rounds (s.requests.next entry) (s.removeRequest entry)

/-- `Update` without a new list, with loops of some number of rounds. -/
def update (rounds : ℕ) (now timeout sent : ℤ) (s : CServerBrowser) : Option CServerBrowser :=
  (sendLoop now timeout sent rounds s.requests.head 0 s).bind fun (count, s) =>
    if s.requests.head.isSome ∧ count = 0 ∧ s.currentMaxRequests > 1 then
      (resetLoop rounds s.requests.head s).map fun s =>
        { s with currentMaxRequests := if s.currentMaxRequests / 2 < 1 then 1 else s.currentMaxRequests / 2 }
    else if count = 0 ∧ s.currentMaxRequests = 1 then releaseLoop rounds s.requests.head s
    else some s

/-! ### Runs -/

/-- What happens to the browser. -/
inductive Event
  | cleanUp (brMaxRequests : ℤ)
  | rebuild (brMaxRequests : ℤ) (servers : List (List NETADDR)) (want : List NETADDR → Bool)
      (favorites : Option (List FavoriteEntry))
  | leak (chosen : List ℕ)
  | info (lan drop : Bool) (addr : NETADDR)
  | tick (now timeout sent : ℤ)

/-- A step of the browser. -/
def Step (s : CServerBrowser) : Event → CServerBrowser → Prop
  | .cleanUp brMaxRequests, s' => s' = cleanUp brMaxRequests
  | .rebuild brMaxRequests servers want favorites, s' =>
      s' = (cleanUp brMaxRequests).updateFromHttp servers want favorites
  | .leak chosen, s' => s.IsChoice chosen ∧ s' = s.conLeakIpAddress chosen
  | .info lan drop addr, s' => s' = s.onServerInfoUpdate lan drop addr
  | .tick now timeout sent, s' => ∃ rounds, s.update rounds now timeout sent = some s'

/-- The favorites that none of the servers before them are. -/
def missing (known : List NETADDR) : List FavoriteEntry → List FavoriteEntry
  | [] => []
  | favorite :: favorites =>
    if favorite.addrs.any fun addr => addr ∈ known then missing known favorites
    else favorite :: missing (known ++ favorite.addrs) favorites

/-- The step chooses no entry that is in the list, and the favorites that are missing allow pings as the first one
does. -/
def Allowed (s : CServerBrowser) : Event → Prop
  | .leak chosen => ∀ entry ∈ chosen, s.isQueued entry = false
  | .rebuild _ servers want (some favorites) =>
      ∀ favorite ∈ missing (servers.filter want).flatten favorites, favorite.allowPing = firstAllowPing favorites
  | _ => True

/-- The requests are a doubly linked list of entries, none of them twice, of this length. -/
structure WellFormed (s : CServerBrowser) (entries : List ℕ) : Prop where
  list : s.requests.IsList entries
  last : s.lastReqServer = entries.getLast?
  count : s.numRequests = entries.length
  exist : ∀ entry ∈ entries, entry < s.servers.length

/-- Besides, the other entries have no neighbours. -/
structure Holds (s : CServerBrowser) (entries : List ℕ) : Prop extends WellFormed s entries where
  outside : ∀ entry ∉ entries, s.requests.next entry = none ∧ s.requests.prev entry = none

variable {s : CServerBrowser} {entries : List ℕ} {entry : ℕ}

/-! ### Taking out and putting in -/

/-- The list of requests and the number of entries are the same. -/
structure Same (s s' : CServerBrowser) : Prop where
  requests : s'.requests = s.requests
  last : s'.lastReqServer = s.lastReqServer
  count : s'.numRequests = s.numRequests
  length : s'.servers.length = s.servers.length

lemma Same.refl (s : CServerBrowser) : Same s s := ⟨rfl, rfl, rfl, rfl⟩

lemma Same.trans {s s' s'' : CServerBrowser} (h : Same s s') (h' : Same s' s'') : Same s s'' :=
  ⟨h'.requests.trans h.requests, h'.last.trans h.last, h'.count.trans h.count, h'.length.trans h.length⟩

lemma Same.setRequestTime (s : CServerBrowser) (entry : ℕ) (time : ℤ) : Same s (s.setRequestTime entry time) :=
  ⟨rfl, rfl, rfl, List.length_modify _ _ _⟩

lemma Same.setRequestIgnoreInfo (s : CServerBrowser) (entry : ℕ) : Same s (s.setRequestIgnoreInfo entry) :=
  ⟨rfl, rfl, rfl, List.length_modify _ _ _⟩

lemma Holds.congr {s' : CServerBrowser} (h : s.Holds entries) (hsame : Same s s') : s'.Holds entries where
  list := hsame.requests ▸ h.list
  last := hsame.last.trans h.last
  count := hsame.count.trans h.count
  exist entry hentry := hsame.length ▸ h.exist entry hentry
  outside := hsame.requests ▸ h.outside

lemma holds_cleanUp (brMaxRequests : ℤ) : (cleanUp brMaxRequests).Holds [] where
  list := ⟨rfl, trivial, List.nodup_nil⟩
  last := rfl
  count := rfl
  exist _ hentry := absurd hentry List.not_mem_nil
  outside _ _ := ⟨rfl, rfl⟩

/-- The sign that an entry is in the list is right. -/
lemma Holds.isQueued_iff (h : s.Holds entries) (entry : ℕ) : s.isQueued entry = true ↔ entry ∈ entries := by
  constructor
  · rintro hqueued
    by_contra hnot
    obtain ⟨hnext, hprev⟩ := h.outside entry hnot
    rw [isQueued, hprev, hnext, h.list.head] at hqueued
    exact hnot (List.mem_of_head? (beq_iff_eq.1 hqueued))
  · rintro hmem
    obtain ⟨front, behind, rfl⟩ := List.append_of_mem hmem
    obtain ⟨-, hprev, -, -⟩ := h.list.split
    rw [isQueued, hprev, h.list.head]
    rcases List.eq_nil_or_concat' front with rfl | ⟨front, last, rfl⟩
    · simp
    · simp

/-- An entry is taken out of the list, if it is in it. -/
lemma Holds.removeRequest (h : s.Holds entries) (entry : ℕ) : (s.removeRequest entry).Holds (entries.erase entry) := by
  by_cases hmem : entry ∈ entries
  · have hqueued := (h.isQueued_iff entry).2 hmem
    obtain ⟨front, behind, rfl⟩ := List.append_of_mem hmem
    obtain ⟨-, hprev, hnext, -⟩ := h.list.split
    obtain ⟨hlist, hsame⟩ := DList.unlink_spec h.list
    have hnot : entry ∉ front ++ behind := (List.nodup_cons.1 (List.nodup_middle.1 h.list.nodup)).1
    have herase : (front ++ entry :: behind).erase entry = front ++ behind := by
      rw [List.erase_append_right _ fun hfront => hnot (List.mem_append_left _ hfront), List.erase_cons_head]
    have hpointers : ∀ (f : ℕ → Option ℕ), ∀ y ≠ entry, Function.update f entry none y = f y := fun f y hy =>
      Function.update_of_ne hy _ _
    rw [CServerBrowser.removeRequest, if_pos hqueued, herase]
    constructor
    · constructor
      · refine ⟨hlist.head, (linked_congr fun y hy => ?_).2 hlist.linked, hlist.nodup⟩
        have hy' : y ≠ entry := fun heq => hnot (heq ▸ hy)
        exact ⟨hpointers _ y hy', hpointers _ y hy'⟩
      · dsimp only
        rw [hnext, hprev, h.last]
        rcases behind with _ | ⟨b, behind⟩
        · simp
        · simp [List.getLast?_cons]
      · dsimp only
        rw [h.count, List.length_append, List.length_append, List.length_cons]
        omega
      · rintro y hy
        exact h.exist y (List.mem_append.2 ((List.mem_append.1 hy).imp id (List.mem_cons_of_mem _)))
    · rintro y hy
      by_cases hy' : y = entry
      · rw [hy']
        exact ⟨Function.update_self _ _ _, Function.update_self _ _ _⟩
      · have hout : y ∉ front ++ entry :: behind := by
          rw [List.mem_append, List.mem_cons]
          rw [List.mem_append] at hy
          tauto
        refine ⟨(hpointers _ y hy').trans ((hsame y hy).1.trans (h.outside y hout).1),
          (hpointers _ y hy').trans ((hsame y hy).2.trans (h.outside y hout).2)⟩
  · have hqueued : ¬s.isQueued entry = true := fun hqueued => hmem ((h.isQueued_iff entry).1 hqueued)
    rw [CServerBrowser.removeRequest, if_neg hqueued, List.erase_of_not_mem hmem]
    exact h

/-- An entry that is not in the list becomes the last one. -/
lemma Holds.queueRequest (h : s.Holds entries) (hnot : entry ∉ entries) (hentry : entry < s.servers.length) :
    (s.queueRequest entry).Holds (entries ++ [entry]) := by
  have hlast : ∀ y ∈ s.lastReqServer, y ∈ entries := fun y hy => by
    rw [h.last] at hy
    exact List.mem_of_getLast? hy
  have hpush : (s.queueRequest entry).requests = s.requests.pushBack entries.getLast? entry := by
    rw [CServerBrowser.queueRequest, DList.pushBack, ← h.last]
    dsimp only
    rcases hlastReq : s.lastReqServer with _ | y
    · rfl
    · have hne : y ≠ entry := fun heq => hnot (heq ▸ hlast y hlastReq)
      simp only [setAt]
      rw [Function.update_comm hne]
  constructor
  · constructor
    · rw [hpush]
      exact DList.pushBack_spec h.list hnot
    · exact (List.getLast?_concat ..).symm
    · rw [CServerBrowser.queueRequest, h.count, List.length_append, List.length_singleton]
      rfl
    · rintro y hy
      rcases List.mem_append.1 hy with hy | hy
      · exact h.exist y hy
      · rw [List.mem_singleton.1 hy]
        exact hentry
  · rintro y hy
    rw [List.mem_append, List.mem_singleton, not_or] at hy
    obtain ⟨hnext, hprev⟩ := h.outside y hy.1
    constructor
    · exact (Function.update_of_ne hy.2 _ _).trans ((setAt_of_ne fun heq => hy.1 (hlast y heq.symm)).trans hnext)
    · exact (Function.update_of_ne hy.2 _ _).trans hprev

/-- A new entry is not in the list. -/
lemma Holds.add (h : s.Holds entries) (addrs : List NETADDR) : (s.add addrs).Holds entries := by
  have hne : ∀ y ∈ entries, y ≠ s.servers.length := fun y hy heq => lt_irrefl _ (heq ▸ h.exist y hy)
  constructor
  · constructor
    · refine ⟨h.list.head, (linked_congr fun y hy => ?_).2 h.list.linked, h.list.nodup⟩
      exact ⟨Function.update_of_ne (hne y hy) _ _, Function.update_of_ne (hne y hy) _ _⟩
    · exact h.last
    · exact h.count
    · rintro y hy
      rw [CServerBrowser.add, List.length_append]
      exact Nat.lt_add_right _ (h.exist y hy)
  · rintro y hy
    obtain ⟨hnext, hprev⟩ := h.outside y hy
    rw [CServerBrowser.add]
    refine ⟨?_, ?_⟩
    · exact (Function.update_apply _ _ _ _).trans (by split_ifs <;> [rfl; exact hnext])
    · exact (Function.update_apply _ _ _ _).trans (by split_ifs <;> [rfl; exact hprev])

/-! ### The choice -/

lemma flatten_leakGroupsFrom (s : CServerBrowser) (start : ℕ) (group order : List ℕ) :
    (s.leakGroupsFrom start group order).flatten = group ++ order := by
  induction order generalizing start group with
  | nil => simp [leakGroupsFrom]
  | cons i rest ih =>
    rw [leakGroupsFrom]
    split_ifs
    · rw [List.flatten_cons, ih]
      rfl
    · rw [ih, List.append_assoc]
      rfl

lemma flatten_leakGroups (s : CServerBrowser) (order : List ℕ) : (s.leakGroups order).flatten = order := by
  rcases order with _ | ⟨i, rest⟩
  · rfl
  · exact flatten_leakGroupsFrom s i [i] rest

/-- Members of disjoint groups are different. -/
lemma nodup_of_forall₂ {chosen : List ℕ} {groups : List (List ℕ)} (h : List.Forall₂ (· ∈ ·) chosen groups)
    (hnodup : groups.flatten.Nodup) : chosen.Nodup ∧ ∀ entry ∈ chosen, entry ∈ groups.flatten := by
  induction h with
  | nil => exact ⟨List.nodup_nil, fun entry hentry => absurd hentry List.not_mem_nil⟩
  | @cons entry group chosen groups hmem _ ih =>
    rw [List.flatten_cons] at hnodup
    obtain ⟨-, hnodup', hdisjoint⟩ := List.nodup_append.1 hnodup
    obtain ⟨hchosen, hmem'⟩ := ih hnodup'
    refine ⟨List.nodup_cons.2 ⟨fun hentry => ?_, hchosen⟩, ?_⟩
    · exact hdisjoint entry hmem entry (hmem' entry hentry) rfl
    · rw [List.flatten_cons]
      exact List.forall_mem_cons.2 ⟨List.mem_append_left _ hmem, fun y hy => List.mem_append_right _ (hmem' y hy)⟩

/-- What is chosen are different entries. -/
lemma IsChoice.nodup {chosen : List ℕ} (h : s.IsChoice chosen) :
    chosen.Nodup ∧ ∀ entry ∈ chosen, entry < s.servers.length := by
  obtain ⟨order, hperm, -, hchosen⟩ := h
  have hnodup : (s.leakGroups order).flatten.Nodup := by
    rw [flatten_leakGroups]
    exact hperm.nodup_iff.2 List.nodup_range
  obtain ⟨hnodup', hmem⟩ := nodup_of_forall₂ hchosen hnodup
  refine ⟨hnodup', fun entry hentry => ?_⟩
  have horder := hmem entry hentry
  rw [flatten_leakGroups] at horder
  exact List.mem_range.1 (hperm.mem_iff.1 horder)

/-- Entries that are not in the list are queued. -/
lemma Holds.leak (h : s.Holds entries) {chosen : List ℕ} (hnodup : chosen.Nodup)
    (hnot : ∀ entry ∈ chosen, entry ∉ entries)
    (hlt : ∀ entry ∈ chosen, entry < s.servers.length) : (s.conLeakIpAddress chosen).Holds (entries ++ chosen) := by
  induction chosen generalizing s entries with
  | nil =>
    rw [List.append_nil]
    exact h
  | cons entry chosen ih =>
    rw [List.forall_mem_cons] at hnot hlt
    obtain ⟨hentry, hnodup⟩ := List.nodup_cons.1 hnodup
    have hsame := Same.setRequestIgnoreInfo s entry
    have hqueue := (h.congr hsame).queueRequest hnot.1 (hsame.length ▸ hlt.1)
    have hrest := ih hqueue hnodup
      (fun y hy hmem => by
        rcases List.mem_append.1 hmem with hmem | hmem
        · exact hnot.2 y hy hmem
        · exact hentry (List.mem_singleton.1 hmem ▸ hy))
      (fun y hy => hsame.length ▸ hlt.2 y hy)
    rw [List.append_assoc] at hrest
    exact hrest

/-! ### The favorites -/

lemma Holds.addServer (h : s.Holds entries) (addrs : List NETADDR) : (s.addServer addrs).Holds entries :=
  (h.add addrs).congr (Same.setRequestIgnoreInfo _ _)

/-- The addresses that are found. -/
def Knows (s : CServerBrowser) (known : List NETADDR) : Prop := ∀ addr, (s.find addr).isSome ↔ addr ∈ known

lemma Knows.add {known : List NETADDR} (h : s.Knows known) (addrs : List NETADDR) :
    (s.add addrs).Knows (known ++ addrs) := by
  rintro addr
  rw [List.mem_append, or_comm, ← h addr, CServerBrowser.add, find, find]
  dsimp only
  split_ifs with hmem
  · exact iff_of_true rfl (.inl hmem)
  · exact (or_iff_right hmem).symm

/-- The addresses of the entries. -/
def addresses (s : CServerBrowser) : List (List NETADDR) := s.servers.map CServerEntry.addresses

lemma addresses_add (s : CServerBrowser) (addrs : List NETADDR) : (s.add addrs).addresses = s.addresses ++ [addrs] :=
  List.map_append

lemma addresses_addServer (s : CServerBrowser) (addrs : List NETADDR) :
    (s.addServer addrs).addresses = s.addresses ++ [addrs] := by
  rw [← addresses_add]
  refine List.ext_getElem? fun i => ?_
  rw [addresses, addresses, CServerBrowser.addServer, setRequestIgnoreInfo, List.getElem?_map, List.getElem?_map,
    List.getElem?_modify]
  rcases (s.add addrs).servers[i]? with _ | e
  · rfl
  · refine congrArg some ?_
    dsimp only
    split_ifs <;> rfl

/-- The servers of the HTTP list are added, and not queued. -/
lemma foldl_addServer (h : s.Holds entries) {known : List NETADDR} (hknows : s.Knows known)
    (servers : List (List NETADDR)) :
    (servers.foldl addServer s).Holds entries ∧ (servers.foldl addServer s).Knows (known ++ servers.flatten) ∧
      (servers.foldl addServer s).addresses = s.addresses ++ servers := by
  induction servers generalizing s known with
  | nil =>
    rw [List.flatten_nil, List.append_nil, List.append_nil]
    exact ⟨h, hknows, rfl⟩
  | cons addrs servers ih =>
    obtain ⟨hholds, hknows', haddresses⟩ := ih (h.addServer addrs) (hknows.add addrs)
    rw [List.append_assoc] at hknows'
    rw [addresses_addServer, List.append_assoc] at haddresses
    exact ⟨hholds, hknows', haddresses⟩

lemma length_addresses (s : CServerBrowser) : s.addresses.length = s.servers.length := List.length_map _

/-- The favorites that are missing are added, and all of them are queued or none. -/
lemma foldl_addFavorite (allowPing : Bool) (h : s.Holds entries) {known : List NETADDR} (hknows : s.Knows known)
    (favorites : List FavoriteEntry) :
    (favorites.foldl (addFavorite allowPing) s).Holds (entries ++
        if allowPing then List.range' s.servers.length (missing known favorites).length else []) ∧
      (favorites.foldl (addFavorite allowPing) s).addresses =
        s.addresses ++ (missing known favorites).map FavoriteEntry.addrs := by
  induction favorites generalizing s entries known with
  | nil =>
    rw [missing, List.length_nil, List.range'_zero, ite_self, List.append_nil, List.map_nil, List.append_nil]
    exact ⟨h, rfl⟩
  | cons favorite favorites ih =>
    have hfound : (favorite.addrs.any fun addr => (s.find addr).isSome) = favorite.addrs.any fun addr => addr ∈ known :=
      congrArg favorite.addrs.any (funext fun addr => Bool.eq_iff_iff.2 ((hknows addr).trans (by simp)))
    rw [List.foldl_cons, missing, addFavorite, hfound]
    by_cases hknown : (favorite.addrs.any fun addr => addr ∈ known) = true
    · rw [if_pos hknown, if_pos hknown]
      exact ih h hknows
    rw [if_neg hknown, if_neg hknown]
    have hadd := h.add favorite.addrs
    have hlength : (s.add favorite.addrs).servers.length = s.servers.length + 1 := List.length_append
    cases allowPing
    · obtain ⟨hholds, haddresses⟩ := ih hadd (hknows.add favorite.addrs)
      rw [addresses_add, List.append_assoc] at haddresses
      exact ⟨hholds, haddresses⟩
    · have hnot : s.servers.length ∉ entries := fun hmem => lt_irrefl _ (h.exist _ hmem)
      have hqueue := hadd.queueRequest hnot (by omega)
      obtain ⟨hholds, haddresses⟩ := ih hqueue (hknows.add favorite.addrs)
      have hqueueLength : ((s.add favorite.addrs).queueRequest s.servers.length).servers.length =
          s.servers.length + 1 := hlength
      rw [if_pos rfl, hqueueLength, List.append_assoc] at hholds
      have hqueueAddresses : ((s.add favorite.addrs).queueRequest s.servers.length).addresses =
          s.addresses ++ [favorite.addrs] := addresses_add s favorite.addrs
      rw [hqueueAddresses, List.append_assoc] at haddresses
      rw [if_pos rfl, List.length_cons, List.range'_succ]
      exact ⟨hholds, haddresses⟩

/-- The list after a rebuild. -/
lemma holds_updateFromHttp (brMaxRequests : ℤ) (servers : List (List NETADDR)) (want : List NETADDR → Bool)
    (favorites : Option (List FavoriteEntry)) :
    ∃ entries, ((cleanUp brMaxRequests).updateFromHttp servers want favorites).Holds entries := by
  have hknows : (cleanUp brMaxRequests).Knows [] := fun addr => by simp [find, cleanUp]
  obtain ⟨hservers, hknows', -⟩ := foldl_addServer (holds_cleanUp brMaxRequests) hknows (servers.filter want)
  rcases favorites with _ | favorites
  · exact ⟨_, hservers⟩
  · exact ⟨_, (foldl_addFavorite (firstAllowPing favorites) hservers hknows' favorites).1⟩

/-- The favorites that are missing have entries behind the ones of the servers, and the entries are in the list if the
first favorite allows pings. -/
lemma updateFromHttp_favorites (brMaxRequests : ℤ) (servers : List (List NETADDR)) (want : List NETADDR → Bool)
    (favorites : List FavoriteEntry) (k : ℕ) (favorite : FavoriteEntry)
    (hk : (missing (servers.filter want).flatten favorites)[k]? = some favorite) :
    ((cleanUp brMaxRequests).updateFromHttp servers want (some favorites)).addresses[
        (servers.filter want).length + k]? = some favorite.addrs ∧
      (((cleanUp brMaxRequests).updateFromHttp servers want (some favorites)).isQueued
        ((servers.filter want).length + k) = true ↔ firstAllowPing favorites = true) := by
  have hknows : (cleanUp brMaxRequests).Knows [] := fun addr => by simp [find, cleanUp]
  obtain ⟨hservers, hknows', haddresses⟩ := foldl_addServer (holds_cleanUp brMaxRequests) hknows (servers.filter want)
  obtain ⟨hholds, haddresses'⟩ := foldl_addFavorite (firstAllowPing favorites) hservers hknows' favorites
  have hempty : (cleanUp brMaxRequests).addresses = [] := rfl
  have hlength : ((servers.filter want).foldl addServer (cleanUp brMaxRequests)).servers.length =
      (servers.filter want).length := by
    rw [← length_addresses, haddresses, hempty, List.nil_append]
  rw [hlength, List.nil_append, List.nil_append] at hholds
  rw [haddresses, hempty, List.nil_append, List.nil_append] at haddresses'
  have hlt := (List.getElem?_eq_some_iff.1 hk).1
  constructor
  · refine (congrArg (·[(servers.filter want).length + k]?) haddresses').trans ?_
    rw [List.getElem?_append_right (Nat.le_add_right _ _), Nat.add_sub_cancel_left, List.getElem?_map, hk]
    rfl
  · refine (hholds.isQueued_iff _).trans ?_
    split_ifs with hping
    · exact iff_of_true (List.mem_range'_1.2 ⟨Nat.le_add_right _ _, Nat.add_lt_add_left hlt _⟩) hping
    · exact iff_of_false List.not_mem_nil hping

/-! ### The loops -/

lemma sendLoop_same {now timeout sent : ℤ} {rounds : ℕ} {start : Option ℕ} {count count' : ℤ} {s' : CServerBrowser}
    (h : sendLoop now timeout sent rounds start count s = some (count', s')) : Same s s' := by
  induction rounds generalizing start count s with
  | zero =>
    rcases start with _ | entry
    · exact (Prod.mk.inj (Option.some.inj h)).2 ▸ Same.refl s
    · exact nomatch h
  | succ rounds ih =>
    rcases start with _ | entry
    · exact (Prod.mk.inj (Option.some.inj h)).2 ▸ Same.refl s
    · rw [sendLoop] at h
      split_ifs at h with hold hmax hnew
      · exact ih h
      · exact (Prod.mk.inj (Option.some.inj h)).2 ▸ Same.refl s
      · exact (Same.setRequestTime s entry sent).trans (ih h)
      · exact ih h

lemma resetLoop_same {rounds : ℕ} {start : Option ℕ} {s' : CServerBrowser} (h : resetLoop rounds start s = some s') :
    Same s s' := by
  induction rounds generalizing start s with
  | zero =>
    rcases start with _ | entry
    · exact Option.some.inj h ▸ Same.refl s
    · exact nomatch h
  | succ rounds ih =>
    rcases start with _ | entry
    · exact Option.some.inj h ▸ Same.refl s
    · exact (Same.setRequestTime s entry 0).trans (ih h)

lemma releaseLoop_holds {rounds : ℕ} {start : Option ℕ} {s' : CServerBrowser} (hs : s.Holds entries)
    (h : releaseLoop rounds start s = some s') : ∃ entries', s'.Holds entries' := by
  induction rounds generalizing start s entries with
  | zero =>
    rcases start with _ | entry
    · exact ⟨entries, Option.some.inj h ▸ hs⟩
    · exact nomatch h
  | succ rounds ih =>
    rcases start with _ | entry
    · exact ⟨entries, Option.some.inj h ▸ hs⟩
    · exact ih (hs.removeRequest entry) h

/-- A walk over entries that are linked ends. -/
lemma sendLoop_ends (now timeout sent : ℤ) {p : Option ℕ} (h : Linked s.requests.next s.requests.prev p entries none)
    (count : ℤ) : ∃ result, sendLoop now timeout sent entries.length entries.head? count s = some result := by
  induction entries generalizing p count s with
  | nil => exact ⟨_, rfl⟩
  | cons entry entries ih =>
    obtain ⟨-, hnext, hrest⟩ := linked_cons.1 h
    rw [Option.or_none] at hnext
    have hsent := ih (s := s.setRequestTime entry sent) hrest (count + 1)
    have hkept := ih hrest (count + 1)
    have hskipped := ih hrest count
    rw [← hnext] at hsent hkept hskipped
    rw [List.length_cons, List.head?_cons, sendLoop]
    split_ifs
    · exact hskipped
    · exact ⟨_, rfl⟩
    · exact hsent
    · exact hkept

lemma resetLoop_ends {p : Option ℕ} (h : Linked s.requests.next s.requests.prev p entries none) :
    ∃ result, resetLoop entries.length entries.head? s = some result := by
  induction entries generalizing p s with
  | nil => exact ⟨_, rfl⟩
  | cons entry entries ih =>
    obtain ⟨-, hnext, hrest⟩ := linked_cons.1 h
    rw [Option.or_none] at hnext
    rw [List.length_cons, List.head?_cons, resetLoop, hnext]
    exact ih (s := s.setRequestTime entry 0) hrest

/-- The first entry is taken out, and the walk goes on with the list without it. -/
lemma releaseLoop_ends (h : s.Holds entries) : ∃ result, releaseLoop entries.length entries.head? s = some result := by
  induction entries generalizing s with
  | nil => exact ⟨_, rfl⟩
  | cons entry entries ih =>
    obtain ⟨-, hnext, -⟩ := linked_cons.1 h.list.linked
    rw [Option.or_none] at hnext
    have hremove := h.removeRequest entry
    rw [List.erase_cons_head] at hremove
    rw [List.length_cons, List.head?_cons, releaseLoop, hnext]
    exact ih hremove

lemma update_holds {rounds : ℕ} {now timeout sent : ℤ} {s' : CServerBrowser} (hs : s.Holds entries)
    (h : s.update rounds now timeout sent = some s') : ∃ entries', s'.Holds entries' := by
  obtain ⟨⟨count, s₁⟩, hsend, h⟩ := Option.bind_eq_some_iff.1 h
  have hs₁ := hs.congr (sendLoop_same hsend)
  dsimp only at h
  split_ifs at h
  · obtain ⟨s₂, hreset, rfl⟩ := Option.map_eq_some_iff.1 h
    exact ⟨entries, hs₁.congr ((resetLoop_same hreset).trans ⟨rfl, rfl, rfl, rfl⟩)⟩
  · exact releaseLoop_holds hs₁ h
  · exact ⟨entries, Option.some.inj h ▸ hs₁⟩

/-- The loops of `Update` end. -/
lemma update_ends (h : s.Holds entries) (now timeout sent : ℤ) :
    ∃ rounds s', s.update rounds now timeout sent = some s' := by
  obtain ⟨⟨count, s₁⟩, hsend⟩ := sendLoop_ends now timeout sent h.list.linked 0
  have hs₁ := h.congr (sendLoop_same hsend)
  obtain ⟨s₂, hreset⟩ := resetLoop_ends hs₁.list.linked
  obtain ⟨s₃, hrelease⟩ := releaseLoop_ends hs₁
  refine ⟨entries.length, ?_⟩
  rw [update, h.list.head, hsend, Option.bind_some]
  dsimp only
  rw [hs₁.list.head, hreset, hrelease]
  split_ifs
  · exact ⟨_, rfl⟩
  · exact ⟨_, rfl⟩
  · exact ⟨_, rfl⟩

/-! ### All runs -/

/-- A step that is allowed keeps the list well formed. -/
lemma Holds.step {event : Event} {s' : CServerBrowser} (h : s.Holds entries) (hallowed : s.Allowed event)
    (hstep : s.Step event s') : ∃ entries', s'.Holds entries' := by
  cases event with
  | cleanUp brMaxRequests => exact ⟨[], hstep ▸ holds_cleanUp brMaxRequests⟩
  | rebuild brMaxRequests servers want favorites =>
    exact hstep ▸ holds_updateFromHttp brMaxRequests servers want favorites
  | leak chosen =>
    obtain ⟨hchoice, rfl⟩ := hstep
    obtain ⟨hnodup, hlt⟩ := hchoice.nodup
    refine ⟨_, h.leak hnodup (fun entry hentry hmem => ?_) hlt⟩
    exact Bool.false_ne_true ((hallowed entry hentry).symm.trans ((h.isQueued_iff entry).2 hmem))
  | info lan drop addr =>
    rw [hstep, onServerInfoUpdate]
    by_cases hdrop : drop = true
    · rw [if_pos hdrop]
      exact ⟨entries, h⟩
    rw [if_neg hdrop]
    rcases s.find addr with _ | entry
    · dsimp only
      split_ifs
      · exact ⟨_, (h.add [addr]).removeRequest _⟩
      · exact ⟨entries, h⟩
    · dsimp only
      split_ifs
      · exact ⟨_, (h.congr (Same.setRequestTime s entry (-1))).removeRequest entry⟩
      · exact ⟨_, h.removeRequest entry⟩
  | tick now timeout sent =>
    obtain ⟨rounds, hupdate⟩ := hstep
    exact update_holds h hupdate

/-- Steps that meet the condition. -/
def AllowedStep (s s' : CServerBrowser) : Prop := ∃ event, s.Allowed event ∧ s.Step event s'

lemma exists_holds_of_run {brMaxRequests : ℤ} {n : ℕ} (hrun : RunOf AllowedStep (cleanUp brMaxRequests) n s) :
    ∃ entries, s.Holds entries := by
  refine @RunOf.invariant _ AllowedStep _ (fun s => ∃ entries, Holds s entries) ⟨[], holds_cleanUp brMaxRequests⟩ ?_ n s
    hrun
  rintro b c ⟨entries, hb⟩ ⟨event, hallowed, hstep⟩
  exact hb.step hallowed hstep

/-- As long as no step chooses an entry that is in the list already, the requests are a list and the loops over them end;
and after a rebuild, exactly the missing favorites that allow pings are in the list, if and only if these allow them as
the first favorite does. -/
theorem wellFormed_of_run (brMaxRequests : ℤ) :
    (∀ (n : ℕ) (s : CServerBrowser), RunOf AllowedStep (cleanUp brMaxRequests) n s →
      (∃ entries, s.WellFormed entries) ∧
      ∀ now timeout sent : ℤ, ∃ rounds s', s.update rounds now timeout sent = some s') ∧
    ∀ (servers : List (List NETADDR)) (want : List NETADDR → Bool) (favorites : List FavoriteEntry),
      (∀ (k : ℕ) (favorite : FavoriteEntry),
        (missing (servers.filter want).flatten favorites)[k]? = some favorite →
          ((cleanUp brMaxRequests).updateFromHttp servers want (some favorites)).addresses[
              (servers.filter want).length + k]? = some favorite.addrs ∧
            (((cleanUp brMaxRequests).updateFromHttp servers want (some favorites)).isQueued
              ((servers.filter want).length + k) = true ↔ favorite.allowPing = true)) ↔
        ∀ favorite ∈ missing (servers.filter want).flatten favorites,
          favorite.allowPing = firstAllowPing favorites := by
  refine ⟨fun n s hrun => ?_, fun servers want favorites => ⟨?_, ?_⟩⟩
  · obtain ⟨entries, h⟩ := exists_holds_of_run hrun
    exact ⟨⟨entries, h.toWellFormed⟩, update_ends h⟩
  · rintro h favorite hfavorite
    obtain ⟨k, hk⟩ := List.mem_iff_getElem?.1 hfavorite
    have hqueued := (updateFromHttp_favorites brMaxRequests servers want favorites k favorite hk).2
    exact Bool.eq_iff_iff.2 (((h k favorite hk).2).symm.trans hqueued)
  · rintro h k favorite hk
    obtain ⟨haddrs, hqueued⟩ := updateFromHttp_favorites brMaxRequests servers want favorites k favorite hk
    rw [h favorite (List.mem_iff_getElem?.2 ⟨k, hk⟩)]
    exact ⟨haddrs, hqueued⟩

/-! ### Samples -/

lemma isChoice_single (h : s.servers.length = 1) : s.IsChoice [0] := by
  refine ⟨[0], ?_, List.pairwise_singleton _ _, .cons (List.mem_singleton.2 rfl) .nil⟩
  rw [h]
  exact .refl _

/-- A list with one server. -/
def sampleList : CServerBrowser :=
  (cleanUp 10).updateFromHttp [[⟨nettypeIpv4, Vector.replicate 16 1, 8303⟩]] (fun _ => true) none

/-- After the command, the server is in a list of requests whose loops end. -/
theorem wellFormed_of_run_sample :
    (∃ entries, (sampleList.conLeakIpAddress [0]).WellFormed entries) ∧
      ∀ now timeout sent : ℤ, ∃ rounds s', (sampleList.conLeakIpAddress [0]).update rounds now timeout sent = some s' :=
  (wellFormed_of_run 10).1 2 (sampleList.conLeakIpAddress [0])
    (.snoc (.snoc .nil ⟨.rebuild 10 [[⟨nettypeIpv4, Vector.replicate 16 1, 8303⟩]] (fun _ => true) none, trivial, rfl⟩)
      ⟨.leak [0], (by decide : ∀ entry ∈ [0], sampleList.isQueued entry = false), isChoice_single rfl, rfl⟩)

/-- The second command puts the server into the list again. -/
theorem not_wellFormed_of_run :
    ¬∀ (brMaxRequests : ℤ) (n : ℕ) (s : CServerBrowser),
      RunOf (fun s s' => ∃ event, Step s event s') (cleanUp brMaxRequests) n s → ∃ entries, s.WellFormed entries := by
  rintro h
  obtain ⟨entries, hlist⟩ := h 10 3 ((sampleList.conLeakIpAddress [0]).conLeakIpAddress [0])
    (.snoc (.snoc (.snoc .nil
      ⟨.rebuild 10 [[⟨nettypeIpv4, Vector.replicate 16 1, 8303⟩]] (fun _ => true) none, rfl⟩)
      ⟨.leak [0], isChoice_single rfl, rfl⟩)
      ⟨.leak [0], isChoice_single rfl, rfl⟩)
  have hcount : (2 : ℤ) = entries.length := hlist.count
  have hexist : ∀ entry ∈ entries, entry < 1 := hlist.exist
  have hsub : entries ⊆ [0] := fun entry hentry => List.mem_singleton.2 (Nat.lt_one_iff.1 (hexist entry hentry))
  have hlength := (List.subperm_of_subset hlist.list.nodup hsub).length_le
  rw [List.length_singleton] at hlength
  omega

end CServerBrowser

end DDNet
