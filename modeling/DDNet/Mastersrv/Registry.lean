/-
The two maps of the registry index each other.

Every call on the registry comes down to changes of single addresses: one `add` or one `remove`.
This module proves what one such change does: it keeps the two maps inverse to each other, never
panics, and touches the address, its old server and its new server only.
-/
import DDNet.Lib.InverseIndex
import DDNet.Mastersrv.Servers

open Function

namespace DDNet.Mastersrv

variable {addr : Addr} {aInfo : AddrInfo} {secret : ShortString} {infoSerial : ℤ} {info : Option RawValue}
variable {addresses : Std.HashMap Addr AddrInfo} {servers : Std.HashMap ShortString Server} {server : Server}

/-! ### The invariant -/

/-- The registry is sound: each of the two maps leads back to the other one. -/
structure Servers.Inv (s : Servers) : Prop where
  /-- The secret of an address names a server that lists the address exactly once. -/
  addresses : ∀ (addr : Addr) (aInfo : AddrInfo), s.addresses[addr]? = some aInfo →
    ∃ server, s.servers[aInfo.secret]? = some server ∧ server.addresses.count addr = 1
  /-- A server has a non-empty, sorted list of different addresses, and all of them carry its secret. -/
  servers : ∀ (secret : ShortString) (server : Server), s.servers[secret]? = some server →
    server.addresses ≠ [] ∧ server.addresses.Pairwise (· ≤ ·) ∧ server.addresses.Nodup ∧
      ∀ addr ∈ server.addresses, ∃ aInfo, s.addresses[addr]? = some aInfo ∧ aInfo.secret = secret

/-- The secret each address maps to. -/
def owner (addresses : Std.HashMap Addr AddrInfo) (addr : Addr) : Option ShortString :=
  addresses[addr]?.map (·.secret)

/-- The addresses of the server with each secret. -/
def members (servers : Std.HashMap ShortString Server) (secret : ShortString) : Option (List Addr) :=
  servers[secret]?.map (·.addresses)

lemma owner_of (h : addresses[addr]? = some aInfo) : owner addresses addr = some aInfo.secret := by
  rw [owner, h, Option.map_some]

lemma members_of (h : servers[secret]? = some server) : members servers secret = some server.addresses := by
  rw [members, h, Option.map_some]

lemma owner_eq_some : owner addresses addr = some secret ↔ ∃ aInfo, addresses[addr]? = some aInfo ∧ aInfo.secret = secret := by
  simp [owner]

lemma members_eq_some {l : List Addr} :
    members servers secret = some l ↔ ∃ server, servers[secret]? = some server ∧ server.addresses = l := by
  simp [members]

@[simp] lemma owner_insert : owner (addresses.insert addr aInfo) = update (owner addresses) addr (some aInfo.secret) := by
  ext1 a
  by_cases ha : a = addr
  · simp [owner, ha]
  · simp [owner, Std.HashMap.getElem?_insert, Ne.symm ha, update_of_ne ha]

@[simp] lemma owner_erase : owner (addresses.erase addr) = update (owner addresses) addr none := by
  ext1 a
  by_cases ha : a = addr
  · simp [owner, ha]
  · simp [owner, Std.HashMap.getElem?_erase, Ne.symm ha, update_of_ne ha]

@[simp] lemma members_insert : members (servers.insert secret server) = update (members servers) secret (some server.addresses) := by
  ext1 k
  by_cases hk : k = secret
  · simp [members, hk]
  · simp [members, Std.HashMap.getElem?_insert, Ne.symm hk, update_of_ne hk]

@[simp] lemma members_erase : members (servers.erase secret) = update (members servers) secret none := by
  ext1 k
  by_cases hk : k = secret
  · simp [members, hk]
  · simp [members, Std.HashMap.getElem?_erase, Ne.symm hk, update_of_ne hk]

/-- The invariant says that the addresses of the servers are the inverse of the secrets of the addresses. -/
theorem inv_iff {s : Servers} : s.Inv ↔ Inverse (owner s.addresses) (members s.servers) := by
  constructor
  · intro h
    refine ⟨fun k a => ⟨?_, fun ha => ?_⟩, ?_, ?_⟩
    · rintro ⟨l, hl, ha⟩
      obtain ⟨server, hserver, rfl⟩ := members_eq_some.mp hl
      exact owner_eq_some.mpr ((h.servers k server hserver).2.2.2 a ha)
    · obtain ⟨aInfo, haddr, rfl⟩ := owner_eq_some.mp ha
      obtain ⟨server, hserver, hcount⟩ := h.addresses a aInfo haddr
      exact ⟨_, members_of hserver, List.count_pos_iff.mp (by omega)⟩
    · rintro k l hl
      obtain ⟨server, hserver, rfl⟩ := members_eq_some.mp hl
      exact (h.servers k server hserver).1
    · rintro k l hl
      obtain ⟨server, hserver, rfl⟩ := members_eq_some.mp hl
      obtain ⟨-, hle, hnodup, -⟩ := h.servers k server hserver
      exact (hle.and hnodup).imp fun hxy => lt_of_le_of_ne hxy.1 hxy.2
  · intro h
    refine ⟨fun a aInfo ha => ?_, fun k server hk => ?_⟩
    · obtain ⟨l, hl, -⟩ := h.exists_members (owner_of ha)
      obtain ⟨server, hserver, rfl⟩ := members_eq_some.mp hl
      exact ⟨server, hserver, h.count hl (owner_of ha)⟩
    · have hl := members_of hk
      exact ⟨h.ne_nil k _ hl, (h.sorted k _ hl).imp le_of_lt, (h.sorted k _ hl).imp ne_of_lt,
        fun a ha => owner_eq_some.mp ((h.mem hl).mp ha)⟩

/-! ### One change -/

/-- A change of one address. -/
inductive Change
  | add (addr : Addr) (aInfo : AddrInfo) (infoSerial : ℤ) (info : Option RawValue)
  | remove (addr : Addr) (secret : ShortString)

namespace Change

def apply (s : Servers) : Change → Option Servers
  | .add addr aInfo infoSerial info => (s.add addr aInfo infoSerial info).map (·.2)
  | .remove addr secret => (s.remove addr secret).map (·.2)

def target : Change → Addr
  | .add addr _ _ _ => addr
  | .remove addr _ => addr

def newSecret : Change → ShortString
  | .add _ aInfo _ _ => aInfo.secret
  | .remove _ secret => secret

/-- The change submits the info that `server` has, with its serial, for the server with this secret. -/
def Submits (secret : ShortString) (server : Server) : Change → Prop
  | .add _ aInfo infoSerial info =>
    aInfo.secret = secret ∧ infoSerial = server.infoSerial ∧ info = some server.info
  | .remove _ _ => False

/-- Only the address of the change differs, only its old and its new server do, and no server is left with
an older or a made up info. -/
structure Follows (s : Servers) (c : Change) (s' : Servers) : Prop where
  addresses : ∀ addr ≠ c.target, s'.addresses[addr]? = s.addresses[addr]?
  servers : ∀ secret ≠ c.newSecret, owner s.addresses c.target ≠ some secret → s'.servers[secret]? = s.servers[secret]?
  info : ∀ secret server', s'.servers[secret]? = some server' →
    (∃ server, s.servers[secret]? = some server ∧ server.infoSerial = server'.infoSerial ∧
      server.info = server'.info) ∨
    (c.Submits secret server' ∧ ∀ server, s.servers[secret]? = some server → server.infoSerial < server'.infoSerial)

lemma Follows.refl (s : Servers) (c : Change) : c.Follows s s :=
  ⟨fun _ _ => rfl, fun _ _ _ => rfl, fun _ server' h => .inl ⟨server', h, rfl, rfl⟩⟩

/-- While a server lives its serial never decreases. -/
lemma Follows.serial {s s' : Servers} {c : Change} {server' : Server} (h : c.Follows s s')
    (hs : s.servers[secret]? = some server) (hs' : s'.servers[secret]? = some server') :
    server.infoSerial ≤ server'.infoSerial := by
  rcases h.info secret server' hs' with ⟨old, hold, hserial, -⟩ | ⟨-, hnewer⟩
  · rw [← hserial, Option.some.inj (hs.symm.trans hold)]
  · exact (hnewer server hs).le

end Change

/-! ### The two halves of a change -/

/-- What `retain` and the removal of an empty server leave under each secret. -/
lemma retainOthers_spec (h : servers[secret]? = some server) (addr : Addr) :
    ∃ rest, retainOthers servers addr secret = some rest ∧ (∀ k ≠ secret, rest[k]? = servers[k]?) ∧
      (∀ server', rest[secret]? = some server' → server.infoSerial = server'.infoSerial ∧ server.info = server'.info) ∧
      members rest = update (members servers) secret
        (if server.addresses.filter (· ≠ addr) = [] then none else some (server.addresses.filter (· ≠ addr))) := by
  by_cases hnil : server.addresses.filter (· ≠ addr) = []
  · refine ⟨servers.erase secret, ?_, fun k hk => ?_, fun server' h' => ?_, ?_⟩
    · simp only [retainOthers, h, if_pos hnil]
    · simp [Std.HashMap.getElem?_erase, Ne.symm hk]
    · simp at h'
    · rw [members_erase, if_pos hnil]
  · refine ⟨servers.insert secret { server with addresses := server.addresses.filter (· ≠ addr) }, ?_, fun k hk => ?_,
      fun server' h' => ?_, ?_⟩
    · simp only [retainOthers, h, if_neg hnil]
    · simp [Std.HashMap.getElem?_insert, Ne.symm hk]
    · rw [Std.HashMap.getElem?_insert_self] at h'
      rw [← Option.some.inj h']
      exact ⟨rfl, rfl⟩
    · rw [members_insert, if_neg hnil]

/-- Taking an address away from its server keeps the two maps inverse. -/
lemma retainOthers_inverse {own : Addr → Option ShortString} (h : Inverse own (members servers))
    (ha : own addr = some secret) :
    ∃ rest, retainOthers servers addr secret = some rest ∧ Inverse (update own addr none) (members rest) ∧
      (∀ k ≠ secret, rest[k]? = servers[k]?) ∧
      ∀ (k : ShortString) (server' : Server), rest[k]? = some server' →
        ∃ server, servers[k]? = some server ∧ server.infoSerial = server'.infoSerial ∧ server.info = server'.info := by
  obtain ⟨l, hl, -⟩ := h.exists_members ha
  obtain ⟨server, hserver, rfl⟩ := members_eq_some.mp hl
  obtain ⟨rest, hrest, hframe, hinfo, hmembers⟩ := retainOthers_spec hserver addr
  refine ⟨rest, hrest, ?_, hframe, fun k server' hk => ?_⟩
  · rw [hmembers]
    exact h.detach hl ha
  · by_cases hks : k = secret
    · rw [hks] at hk ⊢
      exact ⟨server, hserver, hinfo server' hk⟩
    · exact ⟨server', by rw [← hframe k hks, hk], rfl, rfl⟩

/-- `enterEntry` finds what it unwraps: the info is there when the entry is missing or older. -/
lemma enterEntry_spec {entry : Option Server} {insertAddr : Bool}
    (hinfo : (∀ server, entry = some server → server.infoSerial < infoSerial) → info.isSome)
    (hinsert : entry = none → insertAddr = true) (addr : Addr) :
    ∃ server', enterEntry entry addr infoSerial info insertAddr = some server' ∧
      (server'.addresses = entry.elim [addr] fun server =>
        if insertAddr then (server.addresses ++ [addr]).mergeSort (· ≤ ·) else server.addresses) ∧
      ((∃ server, entry = some server ∧ server.infoSerial = server'.infoSerial ∧ server.info = server'.info) ∨
        (infoSerial = server'.infoSerial ∧ info = some server'.info ∧
          ∀ server, entry = some server → server.infoSerial < server'.infoSerial)) := by
  cases entry with
  | none =>
    obtain ⟨text, rfl⟩ := Option.isSome_iff_exists.mp (hinfo fun _ h => nomatch h)
    obtain rfl := hinsert rfl
    exact ⟨_, rfl, rfl, .inr ⟨rfl, rfl, fun _ h => nomatch h⟩⟩
  | some server =>
    by_cases hnewer : server.infoSerial < infoSerial
    · obtain ⟨text, rfl⟩ := Option.isSome_iff_exists.mp (hinfo fun _ h => Option.some.inj h ▸ hnewer)
      refine ⟨⟨_, infoSerial, text⟩, (if_pos hnewer).trans rfl, rfl, .inr ⟨rfl, rfl, ?_⟩⟩
      rintro server' h
      rwa [← Option.some.inj h]
    · exact ⟨{ server with addresses := _ }, if_neg hnewer, rfl, .inl ⟨server, rfl, rfl, rfl⟩⟩

/-- Entering a free address in a server keeps the two maps inverse. -/
lemma enterServer_inverse {own : Addr → Option ShortString} (h : Inverse own (members servers))
    (ha : own addr = none)
    (hinfo : (∀ server, servers[secret]? = some server → server.infoSerial < infoSerial) → info.isSome) :
    ∃ servers', enterServer servers addr secret infoSerial info true = some servers' ∧
      Inverse (update own addr (some secret)) (members servers') ∧
      (∀ k ≠ secret, servers'[k]? = servers[k]?) ∧
      ∀ server', servers'[secret]? = some server' →
        (∃ server, servers[secret]? = some server ∧ server.infoSerial = server'.infoSerial ∧
          server.info = server'.info) ∨
        (infoSerial = server'.infoSerial ∧ info = some server'.info ∧
          ∀ server, servers[secret]? = some server → server.infoSerial < server'.infoSerial) := by
  obtain ⟨server', hentry, haddresses, hinfo'⟩ := @enterEntry_spec infoSerial info servers[secret]? true hinfo (fun _ => rfl) addr
  refine ⟨servers.insert secret server', by rw [enterServer, hentry, Option.map_some], ?_, fun k hk => ?_, ?_⟩
  · rw [members_insert, haddresses]
    cases hserver : servers[secret]? with
    | none => exact h.attach_new ha (by rw [members, hserver, Option.map_none])
    | some server => exact h.attach_push ha (members_of hserver)
  · simp [Std.HashMap.getElem?_insert, Ne.symm hk]
  · rintro server'' h''
    rw [Std.HashMap.getElem?_insert_self] at h''
    rwa [← Option.some.inj h'']

/-! ### Adding and removing an address -/

lemma needInfo_eq_true {s : Servers} :
    s.needInfo secret infoSerial = true ↔ ∀ server, s.servers[secret]? = some server → server.infoSerial < infoSerial := by
  rw [Servers.needInfo]
  cases s.servers[secret]? with
  | none => simp
  | some server => simp

namespace Servers.Inv

variable {s : Servers}

/-- A refreshed address stays with its server. -/
lemma refresh (h : s.Inv) {old : AddrInfo} (hold : s.addresses[addr]? = some old) (hsecret : old.secret = aInfo.secret)
    (hinfo : s.needInfo aInfo.secret infoSerial = true → info.isSome) :
    ∃ servers, enterServer s.servers addr aInfo.secret infoSerial info false = some servers ∧
      Inv ⟨s.addresses.insert addr aInfo, servers⟩ ∧
      (Change.add addr aInfo infoSerial info).Follows s ⟨s.addresses.insert addr aInfo, servers⟩ := by
  have howner : owner s.addresses addr = some aInfo.secret := by rw [owner_of hold, hsecret]
  obtain ⟨l, hl, -⟩ := (inv_iff.mp h).exists_members howner
  obtain ⟨server, hserver, rfl⟩ := members_eq_some.mp hl
  obtain ⟨server', hentry, haddresses, hkept⟩ :=
    @enterEntry_spec infoSerial info s.servers[aInfo.secret]? false (fun hnew => hinfo (needInfo_eq_true.mpr hnew))
      (fun hnone => nomatch hserver.symm.trans hnone) addr
  refine ⟨s.servers.insert aInfo.secret server', by rw [enterServer, hentry, Option.map_some], ?_, ?_, ?_, ?_⟩
  · -- neither index has changed
    have hsame : server'.addresses = server.addresses := by simpa [hserver] using haddresses
    rw [inv_iff, owner_insert, members_insert, hsame, ← howner, ← hl, update_eq_self, update_eq_self]
    exact inv_iff.mp h
  · rintro a (ha : a ≠ addr)
    simp [Std.HashMap.getElem?_insert, Ne.symm ha]
  · rintro k (hk : k ≠ aInfo.secret) -
    simp [Std.HashMap.getElem?_insert, Ne.symm hk]
  · rintro k server'' hk
    by_cases hks : k = aInfo.secret
    · rw [hks, Std.HashMap.getElem?_insert_self] at hk
      rw [hks, ← Option.some.inj hk]
      rcases hkept with hkept | ⟨hserial, htext, hnewer⟩
      · exact .inl hkept
      · exact .inr ⟨⟨rfl, hserial, htext⟩, hnewer⟩
    · rw [Std.HashMap.getElem?_insert, if_neg (by simpa using Ne.symm hks)] at hk
      exact .inl ⟨server'', hk, rfl, rfl⟩

/-- An address that is in no list of `rest` is entered with its new server. -/
lemma enter (h : s.Inv) {rest : Std.HashMap ShortString Server}
    (hrest : Inverse (update (owner s.addresses) addr none) (members rest))
    (hframe : ∀ k, owner s.addresses addr ≠ some k → rest[k]? = s.servers[k]?)
    (hkept : ∀ (k : ShortString) (server' : Server), rest[k]? = some server' →
      ∃ server, s.servers[k]? = some server ∧ server.infoSerial = server'.infoSerial ∧ server.info = server'.info)
    (hnew : owner s.addresses addr ≠ some aInfo.secret)
    (hinfo : s.needInfo aInfo.secret infoSerial = true → info.isSome) :
    ∃ servers, enterServer rest addr aInfo.secret infoSerial info true = some servers ∧
      Inv ⟨s.addresses.insert addr aInfo, servers⟩ ∧
      (Change.add addr aInfo infoSerial info).Follows s ⟨s.addresses.insert addr aInfo, servers⟩ := by
  have hentry : rest[aInfo.secret]? = s.servers[aInfo.secret]? := hframe _ hnew
  obtain ⟨servers, henter, hinverse, hothers, hthis⟩ :=
    @enterServer_inverse addr aInfo.secret infoSerial info rest _ hrest (update_self addr none (owner s.addresses))
      (fun hnewer => hinfo (needInfo_eq_true.mpr (by rwa [← hentry])))
  refine ⟨servers, henter, ?_, ?_, ?_, ?_⟩
  · rw [update_idem] at hinverse
    rwa [inv_iff, owner_insert]
  · rintro a (ha : a ≠ addr)
    simp [Std.HashMap.getElem?_insert, Ne.symm ha]
  · rintro k (hk : k ≠ aInfo.secret) howner
    rw [hothers k hk, hframe k howner]
  · rintro k server' hk
    by_cases hks : k = aInfo.secret
    · rw [hks] at hk ⊢
      rcases hthis server' hk with hold | ⟨hserial, htext, hnewer⟩
      · rw [hentry] at hold
        exact .inl hold
      · rw [hentry] at hnewer
        exact .inr ⟨⟨rfl, hserial, htext⟩, hnewer⟩
    · rw [hothers k hks] at hk
      exact .inl (hkept k server' hk)

/-- `add` never panics and does what a change may do. -/
theorem add (h : s.Inv) (addr : Addr) (aInfo : AddrInfo) (infoSerial : ℤ) (info : Option RawValue) :
    ∃ r s', s.add addr aInfo infoSerial info = some (r, s') ∧ s'.Inv ∧
      (Change.add addr aInfo infoSerial info).Follows s s' := by
  rw [Servers.add]
  by_cases hneed : (s.needInfo aInfo.secret infoSerial && info.isNone) = true
  · rw [if_pos hneed]
    exact ⟨_, s, rfl, h, .refl s _⟩
  have hinfo : s.needInfo aInfo.secret infoSerial = true → info.isSome := by
    intro hn
    rw [hn, Bool.true_and] at hneed
    rwa [Option.isNone_iff_eq_none, ← ne_eq, Option.ne_none_iff_isSome] at hneed
  rw [if_neg hneed]
  cases hold : s.addresses[addr]? with
  | none =>
    have howner : owner s.addresses addr = none := by rw [owner, hold, Option.map_none]
    have hrest : Inverse (update (owner s.addresses) addr none) (members s.servers) := by
      rw [← howner, update_eq_self]
      exact inv_iff.mp h
    obtain ⟨servers, henter, hinv, hfollows⟩ :=
      h.enter hrest (fun _ _ => rfl) (fun k server' hk => ⟨server', hk, rfl, rfl⟩) (by simp [howner]) hinfo
    exact ⟨.added, _, by rw [henter]; rfl, hinv, hfollows⟩
  | some old =>
    simp only
    split_ifs with hkind htime hsecret
    · exact ⟨_, s, rfl, h, .refl s _⟩
    · exact ⟨_, s, rfl, h, .refl s _⟩
    · obtain ⟨rest, hrest, hinverse, hframe, hkept⟩ := retainOthers_inverse (inv_iff.mp h) (owner_of hold)
      have hother : ∀ k, owner s.addresses addr ≠ some k → rest[k]? = s.servers[k]? := by
        intro k hk
        refine hframe k fun heq => hk ?_
        rw [owner_of hold, heq]
      obtain ⟨servers, henter, hinv, hfollows⟩ := h.enter hinverse hother hkept (by simpa [owner_of hold]) hinfo
      refine ⟨.added, _, ?_, hinv, hfollows⟩
      rw [hrest, Option.bind_eq_bind, Option.bind_some, henter]
      rfl
    · obtain ⟨servers, henter, hinv, hfollows⟩ := h.refresh hold (not_not.mp hsecret) hinfo
      exact ⟨.refreshed, _, by rw [henter]; rfl, hinv, hfollows⟩

/-- `remove` never panics and does what a change may do. -/
theorem remove (h : s.Inv) (addr : Addr) (secret : ShortString) :
    ∃ r s', s.remove addr secret = some (r, s') ∧ s'.Inv ∧ (Change.remove addr secret).Follows s s' ∧
      (owner s.addresses addr = some secret → s.pruneAddr addr = some s' ∧ s'.addresses = s.addresses.erase addr) := by
  rw [Servers.remove]
  cases hold : s.addresses[addr]? with
  | none => exact ⟨_, s, rfl, h, .refl s _, fun howner => by simp [owner, hold] at howner⟩
  | some aInfo =>
    by_cases hsecret : secret = aInfo.secret
    · have howner : owner s.addresses addr = some secret := by rw [owner_of hold, hsecret]
      obtain ⟨rest, hrest, hinverse, hframe, hkept⟩ := retainOthers_inverse (inv_iff.mp h) howner
      refine ⟨.removed, ⟨s.addresses.erase addr, rest⟩, ?_, ?_, ⟨?_, ?_, ?_⟩, ?_⟩
      · simp only [if_pos hsecret, hrest]
        rfl
      · rwa [inv_iff, owner_erase]
      · rintro a (ha : a ≠ addr)
        simp [Std.HashMap.getElem?_erase, Ne.symm ha]
      · rintro k hk -
        exact hframe k hk
      · rintro k server' hk
        exact .inl (hkept k server' hk)
      · rintro -
        rw [Servers.pruneAddr, hold]
        simp only [Option.bind_eq_bind, Option.bind_some, ← hsecret, hrest]
        exact ⟨rfl, trivial⟩
    · refine ⟨_, s, if_neg hsecret, h, .refl s _, fun howner => ?_⟩
      rw [owner_of hold] at howner
      exact absurd (Option.some.inj howner).symm hsecret

end Servers.Inv

/-- Every change keeps the registry sound and never panics. -/
theorem Change.apply_spec {s : Servers} (h : s.Inv) (c : Change) : ∃ s', c.apply s = some s' ∧ s'.Inv ∧ c.Follows s s' := by
  cases c with
  | add addr aInfo infoSerial info =>
    obtain ⟨r, s', hadd, hinv, hfollows⟩ := h.add addr aInfo infoSerial info
    exact ⟨s', by rw [Change.apply, hadd, Option.map_some], hinv, hfollows⟩
  | remove addr secret =>
    obtain ⟨r, s', hremove, hinv, hfollows, -⟩ := h.remove addr secret
    exact ⟨s', by rw [Change.apply, hremove, Option.map_some], hinv, hfollows⟩

end DDNet.Mastersrv
