/-
The number of different addresses of the clients in game (`CServer::DistinctClientCount`, `engine/server/server.cpp`).

The addresses are copied to an array, those of clients in game only, but each of them is compared with all entries of
lower slots.  An entry that was not filled holds what was in memory before; if this is the address of a client in game,
then the client may not be counted (`distinctClientCount_eq_iff`).
-/
import DDNet.Lib.FirstOccurrence
import DDNet.Server.ClientNames
import DDNet.Server.Connlimit

namespace DDNet

open Lib Finset

namespace CServer

-- `m_aClients[i].m_State` and `*m_NetServer.ClientAddr(i)`
variable (state : ClientId → ClientState) (clientAddr : ClientId → NETADDR)

def clientIngame (clientId : ClientId) : Bool := state clientId = .ingame

/-- `GetClientAddr`, which leaves the address alone unless the client is in game. -/
def getClientAddr (clientId : ClientId) (addr : NETADDR) : NETADDR :=
  if state clientId = .ingame then clientAddr clientId else addr

/-- `aAddresses` after the first loop, from what is in its memory before. -/
def addresses (memory : ClientId → NETADDR) : ClientId → NETADDR :=
  (List.finRange maxClients).foldl
    (fun addresses i =>
      if state i ≠ .empty then Function.update addresses i (getClientAddr state clientAddr i (addresses i))
      else addresses)
    memory

/-- `DistinctClientCount`. -/
def distinctClientCount (memory : ClientId → NETADDR) : ℕ :=
  let addresses := addresses state clientAddr memory
  (List.finRange maxClients).foldl
    (fun count i =>
      if clientIngame state i then
        if ((List.finRange maxClients).filter (· < i)).any
            fun j => netAddrCompNoport (addresses i) (addresses j) then count + 1 - 1
        else count + 1
      else count)
    0

/-- The addresses of the clients in game. -/
def distinctAddresses : Finset NETADDR :=
  (univ.filter fun i => state i = .ingame).image fun i => (clientAddr i).noPort

variable {state clientAddr} {memory : ClientId → NETADDR}

/-- One round of the first loop. -/
lemma fill_eq (a : ClientId → NETADDR) (i k : ClientId) :
    (if state k ≠ .empty then Function.update a k (getClientAddr state clientAddr k (a k)) else a) i =
      if i = k ∧ state i = .ingame then clientAddr i else a i := by
  by_cases hik : i = k
  · subst hik
    rw [getClientAddr]
    by_cases hstate : state i = .ingame
    · rw [if_pos (by rw [hstate]; decide), Function.update_self, if_pos hstate,
        if_pos ⟨rfl, hstate⟩]
    · rw [if_neg hstate, Function.update_eq_self, ite_self, if_neg fun h => hstate h.2]
  · rw [if_neg fun h : i = k ∧ _ => hik h.1]
    by_cases hstate : state k = .empty
    · rw [if_neg fun h => h hstate]
    · rw [if_pos hstate, Function.update_of_ne hik]

/-- Only the entries of clients in game are filled. -/
lemma addresses_eq (i : ClientId) :
    addresses state clientAddr memory i = if state i = .ingame then clientAddr i else memory i := by
  have hloop : ∀ (l : List ClientId) (a : ClientId → NETADDR), l.foldl (fun addresses i =>
      if state i ≠ .empty then Function.update addresses i (getClientAddr state clientAddr i (addresses i))
      else addresses) a i = if i ∈ l ∧ state i = .ingame then clientAddr i else a i := by
    intro l
    induction l with
    | nil => intro a; simp
    | cons k l ih =>
      intro a
      rw [List.foldl_cons, ih, fill_eq]
      simp only [List.mem_cons]
      split_ifs with h1 h2 h3 h4 <;> tauto
  rw [addresses, hloop]
  simp

/-- The clients that are counted. -/
def counted (state : ClientId → ClientState) (clientAddr memory : ClientId → NETADDR) : Finset ClientId :=
  univ.filter fun i => state i = .ingame ∧ ∀ j < i,
    (if state j = .ingame then clientAddr j else memory j).noPort ≠ (clientAddr i).noPort

lemma mem_counted {i : ClientId} : i ∈ counted state clientAddr memory ↔ state i = .ingame ∧ ∀ j < i,
    (if state j = .ingame then clientAddr j else memory j).noPort ≠ (clientAddr i).noPort := by
  rw [counted, mem_filter, and_iff_right (mem_univ i)]

/-- One round of the second loop. -/
lemma count_eq (count : ℕ) (i : ClientId) :
    (if clientIngame state i then
      if ((List.finRange maxClients).filter (· < i)).any
        fun j => netAddrCompNoport (addresses state clientAddr memory i) (addresses state clientAddr memory j)
      then count + 1 - 1 else count + 1 else count) =
      if i ∈ counted state clientAddr memory then count + 1 else count := by
  simp only [clientIngame, mem_counted, addresses_eq, netAddrCompNoport, decide_eq_true_eq]
  by_cases hstate : state i = .ingame
  · rw [if_pos hstate, if_pos hstate]
    by_cases hany : ∃ j < i, (if state j = .ingame then clientAddr j else memory j).noPort = (clientAddr i).noPort
    · obtain ⟨j, hj, hsame⟩ := hany
      rw [if_pos, if_neg]
      · rfl
      · exact fun h => h.2 j hj hsame
      · refine List.any_eq_true.2 ⟨j, List.mem_filter.2 ⟨List.mem_finRange j, decide_eq_true hj⟩, ?_⟩
        exact decide_eq_true hsame.symm
    · rw [if_neg, if_pos]
      · exact ⟨hstate, fun j hj hsame => hany ⟨j, hj, hsame⟩⟩
      · intro h
        obtain ⟨j, hj, hsame⟩ := List.any_eq_true.1 h
        exact hany ⟨j, of_decide_eq_true (List.mem_filter.1 hj).2, (of_decide_eq_true hsame).symm⟩
  · rw [if_neg hstate, if_neg fun h => hstate h.1]

lemma distinctClientCount_eq_card :
    distinctClientCount state clientAddr memory = #(counted state clientAddr memory) := by
  have hloop : ∀ (l : List ClientId) (count : ℕ),
      l.foldl (fun count i => if i ∈ counted state clientAddr memory then count + 1 else count) count =
        count + l.countP (· ∈ counted state clientAddr memory) := by
    intro l
    induction l with
    | nil => intro count; rfl
    | cons i l ih =>
      intro count
      rw [List.foldl_cons, ih, List.countP_cons]
      by_cases hi : i ∈ counted state clientAddr memory
      · simp only [hi, if_true, decide_true]
        omega
      · simp only [hi, if_false, decide_false, Bool.false_eq_true, Nat.add_zero]
  have hset : counted state clientAddr memory =
      ((List.finRange maxClients).filter (· ∈ counted state clientAddr memory)).toFinset := by
    ext i
    simp
  rw [distinctClientCount]
  simp only [count_eq]
  rw [hloop, Nat.zero_add, List.countP_eq_length_filter,
    ← List.toFinset_card_of_nodup ((List.nodup_finRange maxClients).filter _), ← hset]

/-- The number is right if and only if no client in game has an address that is only found in memory that the clients
before it have not filled. -/
theorem distinctClientCount_eq_iff :
    distinctClientCount state clientAddr memory = #(distinctAddresses state clientAddr) ↔
      ∀ i, state i = .ingame → ∀ j < i, state j ≠ .ingame → (memory j).noPort = (clientAddr i).noPort →
        ∃ k < i, state k = .ingame ∧ (clientAddr k).noPort = (clientAddr i).noPort := by
  have hfirst := card_firstOccurrences (fun i => state i = .ingame) fun i => (clientAddr i).noPort
  rw [distinctAddresses, ← hfirst, distinctClientCount_eq_card]
  -- what is counted comes first among the clients in game
  have hsub : counted state clientAddr memory ⊆
      firstOccurrences (fun i => state i = .ingame) fun i => (clientAddr i).noPort := by
    intro i hi
    obtain ⟨hstate, hne⟩ := mem_counted.1 hi
    refine mem_firstOccurrences.2 ⟨hstate, fun j hj hstatej => ?_⟩
    have h := hne j hj
    rwa [if_pos hstatej] at h
  constructor
  · intro heq i hstate j hj hstatej hsame
    by_contra hnone
    have hmem : i ∈ firstOccurrences (fun i => state i = .ingame) fun i => (clientAddr i).noPort :=
      mem_firstOccurrences.2 ⟨hstate, fun k hk hstatek hsame => hnone ⟨k, hk, hstatek, hsame⟩⟩
    rw [← Finset.eq_of_subset_of_card_le hsub heq.ge] at hmem
    have h := (mem_counted.1 hmem).2 j hj
    rw [if_neg hstatej] at h
    exact h hsame
  · intro hcond
    congr 1
    refine Finset.Subset.antisymm hsub fun i hi => ?_
    obtain ⟨hstate, hne⟩ := mem_firstOccurrences.1 hi
    refine mem_counted.2 ⟨hstate, fun j hj hsame => ?_⟩
    split_ifs at hsame with hstatej
    · exact hne j hj hstatej hsame
    · obtain ⟨k, hk, hstatek, hsame⟩ := hcond i hstate j hj hstatej hsame
      exact hne k hk hstatek hsame

/-- One client in game, in the second slot, while another one connects. -/
def oneIngame (i : ClientId) : ClientState :=
  if i = 0 then .connecting else if i = 1 then .ingame else .empty

def oneAddr : NETADDR := ⟨nettypeIpv4, Vector.replicate 16 10, 0⟩

/-- The memory still holds the addresses of an earlier call. -/
theorem distinctClientCount_leftover : distinctClientCount oneIngame (fun _ => oneAddr) (fun _ => oneAddr) ≠
    #(distinctAddresses oneIngame fun _ => oneAddr) := by
  decide +kernel

end CServer

end DDNet
