/-
Registries written into dumps and read back (`Servers::from_dump`).

A dump leaves out the address lists of the servers.  They are collected again from the addresses; a secret without a
server and a server without an address are errors.
-/
import DDNet.Lib.MapOfList
import DDNet.Mastersrv.RegistryRuns

namespace DDNet.Mastersrv

open Lib

structure FromDumpError

/-- Push the address to the list of its server. -/
def pushAddr (servers : Std.HashMap ShortString Server) (entry : Addr × AddrInfo) :
    Except FromDumpError (Std.HashMap ShortString Server) :=
  match servers[entry.2.secret]? with
  | none => .error ⟨⟩
  | some server => .ok (servers.insert entry.2.secret { server with addresses := server.addresses ++ [entry.1] })

def Servers.fromDump (dump : Dump) : Except FromDumpError Servers := do
  let addresses := Std.HashMap.ofList dump.addresses.toList
  let servers := Std.HashMap.ofList
    (dump.servers.toList.map fun (secret, server) => (secret, Server.mk [] server.infoSerial server.info))
  let servers ← addresses.toList.foldlM pushAddr servers
  if servers.toList.any fun entry => entry.2.addresses.isEmpty then throw ⟨⟩
  return ⟨addresses, servers.map fun _ server => { server with addresses := server.addresses.mergeSort (· ≤ ·) }⟩

/-- Two registries have the same entries. -/
structure Servers.Same (s s' : Servers) : Prop where
  addresses : ∀ addr : Addr, s.addresses[addr]? = s'.addresses[addr]?
  servers : ∀ secret : ShortString, s.servers[secret]? = s'.servers[secret]?

structure Dump.Same (dump dump' : Dump) : Prop where
  now : dump.now = dump'.now
  addresses : ∀ addr : Addr, dump.addresses[addr]? = dump'.addresses[addr]?
  servers : ∀ secret : ShortString, dump.servers[secret]? = dump'.servers[secret]?

variable {dump : Dump} {s : Servers} {servers servers' : Std.HashMap ShortString Server} {secret : ShortString}
variable {entries : List (Addr × AddrInfo)}

/-! ### The maps of a dump -/

/-- What a dump keeps of a server. -/
def Server.dumped (server : Server) : DumpServer := ⟨server.infoSerial, server.info⟩

lemma Dump.new_addresses_eq (now : Timestamp) (s : Servers) (addr : Addr) :
    (Dump.new now s).addresses[addr]? = s.addresses[addr]? := by
  refine treeMap_ofList_eq (g := fun addr : Addr => s.addresses[addr]?) ?_ (fun k v => ?_) addr
  · exact s.addresses.distinct_keys_toList.imp fun hxy => by simpa using hxy
  · exact Std.HashMap.mem_toList_iff_getElem?_eq_some

lemma Dump.new_servers_eq (now : Timestamp) (s : Servers) (secret : ShortString) :
    (Dump.new now s).servers[secret]? = s.servers[secret]?.map Server.dumped := by
  refine treeMap_ofList_eq (g := fun secret : ShortString => s.servers[secret]?.map Server.dumped) ?_ (fun k v => ?_) secret
  · rw [List.pairwise_map]
    exact s.servers.distinct_keys_toList.imp fun hxy => by simpa using hxy
  · simp only [List.mem_map, Option.map_eq_some_iff, Prod.mk.injEq, Prod.exists, Std.HashMap.mem_toList_iff_getElem?_eq_some]
    constructor
    · rintro ⟨k', server, hserver, rfl, rfl⟩
      exact ⟨server, hserver, rfl⟩
    · rintro ⟨server, hserver, rfl⟩
      exact ⟨k, server, hserver, rfl, rfl⟩

/-- The address map that `from_dump` starts with. -/
lemma addresses_ofDump (dump : Dump) (addr : Addr) :
    (Std.HashMap.ofList dump.addresses.toList)[addr]? = dump.addresses[addr]? := by
  refine hashMap_ofList_eq (g := fun addr : Addr => dump.addresses[addr]?) ?_ (fun k v => ?_) addr
  · exact dump.addresses.distinct_keys_toList.imp fun hxy => by simpa using hxy
  · exact Std.TreeMap.mem_toList_iff_getElem?_eq_some

/-- The servers that `from_dump` starts with have no addresses. -/
lemma servers_ofDump (dump : Dump) (secret : ShortString) :
    (Std.HashMap.ofList
      (dump.servers.toList.map fun entry => (entry.1, Server.mk [] entry.2.infoSerial entry.2.info)))[secret]? =
      dump.servers[secret]?.map fun server => ⟨[], server.infoSerial, server.info⟩ := by
  refine hashMap_ofList_eq
    (g := fun secret : ShortString => dump.servers[secret]?.map fun server => Server.mk [] server.infoSerial server.info) ?_
    (fun k v => ?_) secret
  · rw [List.pairwise_map]
    exact dump.servers.distinct_keys_toList.imp fun hxy => by simpa using hxy
  · simp only [List.mem_map, Option.map_eq_some_iff, Prod.mk.injEq, Prod.exists, Std.TreeMap.mem_toList_iff_getElem?_eq_some]
    constructor
    · rintro ⟨k', server, hserver, rfl, rfl⟩
      exact ⟨server, hserver, rfl⟩
    · rintro ⟨server, hserver, rfl⟩
      exact ⟨k, server, hserver, rfl, rfl⟩

/-! ### Collecting the address lists -/

/-- The addresses with a secret, in the order of the entries. -/
def addressesOf (entries : List (Addr × AddrInfo)) (secret : ShortString) : List Addr :=
  (entries.filter fun entry => entry.2.secret = secret).map (·.1)

lemma addressesOf_cons (entry : Addr × AddrInfo) (entries : List (Addr × AddrInfo)) (secret : ShortString) :
    addressesOf (entry :: entries) secret =
      (if entry.2.secret = secret then [entry.1] else []) ++ addressesOf entries secret := by
  by_cases h : entry.2.secret = secret
  · rw [addressesOf, List.filter_cons_of_pos (by simpa using h), if_pos h]
    rfl
  · rw [addressesOf, List.filter_cons_of_neg (by simpa using h), if_neg h]
    rfl

/-- The servers after the addresses have been pushed. -/
lemma pushAll_ok (h : entries.foldlM pushAddr servers = .ok servers') :
    (∀ entry ∈ entries, (servers[entry.2.secret]?).isSome) ∧
      ∀ secret : ShortString, servers'[secret]? =
        servers[secret]?.map fun server => { server with addresses := server.addresses ++ addressesOf entries secret } := by
  induction entries generalizing servers with
  | nil =>
    obtain rfl := Except.ok.inj h
    refine ⟨fun _ hmem => (nomatch hmem), fun secret => ?_⟩
    cases servers[secret]? <;> simp [addressesOf]
  | cons entry entries ih =>
    rw [List.foldlM_cons, pushAddr] at h
    cases hserver : servers[entry.2.secret]? with
    | none =>
      rw [hserver] at h
      exact nomatch h
    | some server =>
      rw [hserver] at h
      obtain ⟨hall, hlookup⟩ := ih h
      constructor
      · rintro e he
        rcases List.mem_cons.mp he with rfl | he
        · exact Option.isSome_of_eq_some hserver
        · have hsome := hall e he
          rw [Std.HashMap.getElem?_insert] at hsome
          by_cases heq : entry.2.secret = e.2.secret
          · rw [← heq]
            exact Option.isSome_of_eq_some hserver
          · rwa [if_neg (by simpa using heq)] at hsome
      · rintro secret
        rw [hlookup, Std.HashMap.getElem?_insert, addressesOf_cons]
        by_cases heq : entry.2.secret = secret
        · subst heq
          simp [hserver]
        · simp [heq]

lemma exists_pushAll (h : ∀ entry ∈ entries, (servers[entry.2.secret]?).isSome) :
    ∃ servers', entries.foldlM pushAddr servers = .ok servers' := by
  induction entries generalizing servers with
  | nil => exact ⟨servers, rfl⟩
  | cons entry entries ih =>
    obtain ⟨server, hserver⟩ := Option.isSome_iff_exists.mp (h entry List.mem_cons_self)
    rw [List.foldlM_cons, pushAddr, hserver]
    refine ih fun e he => ?_
    rw [Std.HashMap.getElem?_insert]
    split
    · rfl
    · exact h e (List.mem_cons_of_mem _ he)

/-! ### Reading a dump -/

/-- The address list of a server that is read from a dump. -/
def sortedAddresses (entries : List (Addr × AddrInfo)) (secret : ShortString) : List Addr :=
  (addressesOf entries secret).mergeSort (· ≤ ·)

/-- The entries of the address map that `from_dump` goes through. -/
def Dump.addrEntries (dump : Dump) : List (Addr × AddrInfo) := (Std.HashMap.ofList dump.addresses.toList).toList

lemma Dump.mem_addrEntries {entry : Addr × AddrInfo} : entry ∈ dump.addrEntries ↔ dump.addresses[entry.1]? = some entry.2 := by
  rw [Dump.addrEntries, Std.HashMap.mem_toList_iff_getElem?_eq_some, addresses_ofDump]

lemma Dump.mem_addressesOf {addr : Addr} : addr ∈ addressesOf dump.addrEntries secret ↔
    ∃ aInfo, dump.addresses[addr]? = some aInfo ∧ aInfo.secret = secret := by
  simp only [addressesOf, List.mem_map, List.mem_filter, decide_eq_true_eq, Prod.exists, Dump.mem_addrEntries]
  constructor
  · rintro ⟨a, aInfo, ⟨haddr, hsecret⟩, rfl⟩
    exact ⟨aInfo, haddr, hsecret⟩
  · rintro ⟨aInfo, haddr, hsecret⟩
    exact ⟨addr, aInfo, ⟨haddr, hsecret⟩, rfl⟩

lemma Dump.nodup_addressesOf (dump : Dump) (secret : ShortString) : (addressesOf dump.addrEntries secret).Nodup := by
  have hkeys : (dump.addrEntries.map (·.1)).Nodup := by
    refine List.pairwise_map.mpr ?_
    exact (Std.HashMap.ofList dump.addresses.toList).distinct_keys_toList.imp fun hxy => by simpa using hxy
  exact hkeys.sublist (List.Sublist.map _ List.filter_sublist)

/-- Every address of the dump has a server, and every server an address. -/
structure Dump.Consistent (dump : Dump) : Prop where
  server : ∀ (addr : Addr) (aInfo : AddrInfo), dump.addresses[addr]? = some aInfo →
    (dump.servers[aInfo.secret]?).isSome
  address : ∀ secret : ShortString, (dump.servers[secret]?).isSome →
    ∃ (addr : Addr) (aInfo : AddrInfo), dump.addresses[addr]? = some aInfo ∧ aInfo.secret = secret

/-- What a successfully read registry consists of. -/
structure ReadFrom (dump : Dump) (s : Servers) : Prop where
  addresses : ∀ addr : Addr, s.addresses[addr]? = dump.addresses[addr]?
  servers : ∀ secret : ShortString, s.servers[secret]? =
    dump.servers[secret]?.map fun server => ⟨sortedAddresses dump.addrEntries secret, server.infoSerial, server.info⟩

/-- The servers of the dump, without addresses. -/
def Dump.bareServers (dump : Dump) : Std.HashMap ShortString Server :=
  Std.HashMap.ofList
    (dump.servers.toList.map fun entry => (entry.1, Server.mk [] entry.2.infoSerial entry.2.info))

lemma fromDump_eq (dump : Dump) : Servers.fromDump dump =
    (dump.addrEntries.foldlM pushAddr dump.bareServers).bind fun servers =>
      if servers.toList.any fun entry => entry.2.addresses.isEmpty then .error ⟨⟩
      else .ok ⟨Std.HashMap.ofList dump.addresses.toList,
        servers.map fun _ server => { server with addresses := server.addresses.mergeSort (· ≤ ·) }⟩ := by
  rw [Servers.fromDump, Dump.addrEntries, Dump.bareServers]
  cases (Std.HashMap.ofList dump.addresses.toList).toList.foldlM pushAddr _ with
  | error e => rfl
  | ok servers =>
    simp only [bind, Except.bind]
    split <;> rfl

lemma pushed_eq (h : dump.addrEntries.foldlM pushAddr dump.bareServers = .ok servers) (secret : ShortString) :
    servers[secret]? = dump.servers[secret]?.map fun server =>
      ⟨addressesOf dump.addrEntries secret, server.infoSerial, server.info⟩ := by
  rw [(pushAll_ok h).2, Dump.bareServers, servers_ofDump, Option.map_map]
  rfl

/-- A server is left without an address if no address of the dump has its secret. -/
lemma any_isEmpty_iff (h : dump.addrEntries.foldlM pushAddr dump.bareServers = .ok servers) :
    (servers.toList.any fun entry => entry.2.addresses.isEmpty) = true ↔
      ∃ secret : ShortString, (dump.servers[secret]?).isSome ∧ addressesOf dump.addrEntries secret = [] := by
  simp only [List.any_eq_true, Prod.exists, Std.HashMap.mem_toList_iff_getElem?_eq_some, pushed_eq h,
    Option.map_eq_some_iff, List.isEmpty_iff]
  constructor
  · rintro ⟨secret, _, ⟨server, hserver, rfl⟩, hnil⟩
    exact ⟨secret, Option.isSome_of_eq_some hserver, hnil⟩
  · rintro ⟨secret, hsome, hnil⟩
    obtain ⟨server, hserver⟩ := Option.isSome_iff_exists.mp hsome
    exact ⟨secret, _, ⟨server, hserver, rfl⟩, hnil⟩

/-- A dump that is read is consistent. -/
lemma fromDump_ok (h : Servers.fromDump dump = .ok s) : dump.Consistent ∧ ReadFrom dump s := by
  rw [fromDump_eq] at h
  cases hpush : dump.addrEntries.foldlM pushAddr dump.bareServers with
  | error e =>
    rw [hpush] at h
    exact nomatch h
  | ok servers =>
    rw [hpush, Except.bind] at h
    split_ifs at h with hany
    obtain rfl := Except.ok.inj h
    rw [any_isEmpty_iff hpush] at hany
    refine ⟨⟨fun addr aInfo haddr => ?_, fun secret hsecret => ?_⟩, addresses_ofDump dump, fun secret => ?_⟩
    · have hsome := (pushAll_ok hpush).1 (addr, aInfo) (Dump.mem_addrEntries.mpr haddr)
      rwa [Dump.bareServers, servers_ofDump, Option.isSome_map] at hsome
    · have hne : addressesOf dump.addrEntries secret ≠ [] := fun hnil => hany ⟨secret, hsecret, hnil⟩
      obtain ⟨addr, haddr⟩ := List.exists_mem_of_ne_nil _ hne
      exact ⟨addr, Dump.mem_addressesOf.mp haddr⟩
    · rw [Std.HashMap.getElem?_map, pushed_eq hpush, Option.map_map]
      rfl

/-- A consistent dump is read. -/
lemma exists_fromDump (h : dump.Consistent) : ∃ s, Servers.fromDump dump = .ok s := by
  obtain ⟨servers, hpush⟩ := @exists_pushAll dump.bareServers dump.addrEntries fun entry hmem => by
    rw [Dump.bareServers, servers_ofDump, Option.isSome_map]
    exact h.server entry.1 entry.2 (Dump.mem_addrEntries.mp hmem)
  rw [fromDump_eq, hpush, Except.bind, if_neg]
  · exact ⟨_, rfl⟩
  · rw [any_isEmpty_iff hpush]
    rintro ⟨secret, hsecret, hnil⟩
    obtain ⟨addr, haddr⟩ := h.address secret hsecret
    exact List.not_mem_nil (hnil ▸ Dump.mem_addressesOf.mpr haddr)

/-! ### Round trips -/

lemma ReadFrom.sorted (dump : Dump) (secret : ShortString) :
    (sortedAddresses dump.addrEntries secret).Pairwise (· < ·) :=
  Inverse.pairwise_lt_mergeSort (dump.nodup_addressesOf secret)

lemma mem_sortedAddresses {addr : Addr} : addr ∈ sortedAddresses dump.addrEntries secret ↔
    ∃ aInfo, dump.addresses[addr]? = some aInfo ∧ aInfo.secret = secret := by
  rw [sortedAddresses, (List.mergeSort_perm _ _).mem_iff, Dump.mem_addressesOf]

/-- A registry read from a consistent dump is sound. -/
lemma ReadFrom.inv (h : ReadFrom dump s) (hdump : dump.Consistent) : s.Inv where
  addresses addr aInfo haddr := by
    rw [h.addresses] at haddr
    obtain ⟨server, hserver⟩ := Option.isSome_iff_exists.mp (hdump.server addr aInfo haddr)
    refine ⟨_, by rw [h.servers, hserver, Option.map_some], ?_⟩
    exact List.count_eq_one_of_mem ((ReadFrom.sorted dump _).imp ne_of_lt) (mem_sortedAddresses.mpr ⟨aInfo, haddr, rfl⟩)
  servers secret server hserver := by
    rw [h.servers, Option.map_eq_some_iff] at hserver
    obtain ⟨dumped, hdumped, rfl⟩ := hserver
    obtain ⟨addr, haddr⟩ := hdump.address secret (Option.isSome_of_eq_some hdumped)
    refine ⟨List.ne_nil_of_mem (mem_sortedAddresses.mpr haddr), (ReadFrom.sorted dump secret).imp le_of_lt,
      (ReadFrom.sorted dump secret).imp ne_of_lt, fun addr haddr => ?_⟩
    simp only [h.addresses]
    exact mem_sortedAddresses.mp haddr

/-- A sound registry has a consistent dump. -/
lemma Servers.Inv.consistent (h : s.Inv) (now : Timestamp) : (Dump.new now s).Consistent where
  server addr aInfo haddr := by
    rw [Dump.new_addresses_eq] at haddr
    obtain ⟨server, hserver, -⟩ := h.addresses addr aInfo haddr
    rw [Dump.new_servers_eq, hserver]
    rfl
  address secret hsecret := by
    rw [Dump.new_servers_eq, Option.isSome_map] at hsecret
    obtain ⟨server, hserver⟩ := Option.isSome_iff_exists.mp hsecret
    obtain ⟨hne, -, -, hall⟩ := h.servers secret server hserver
    obtain ⟨addr, haddr⟩ := List.exists_mem_of_ne_nil _ hne
    obtain ⟨aInfo, haInfo, hsame⟩ := hall addr haddr
    exact ⟨addr, aInfo, by rw [Dump.new_addresses_eq, haInfo], hsame⟩

/-- The address list of a server is the sorted list of the addresses with its secret. -/
lemma Servers.Inv.sortedAddresses_eq (h : s.Inv) (now : Timestamp) {server : Server}
    (hserver : s.servers[secret]? = some server) :
    sortedAddresses (Dump.new now s).addrEntries secret = server.addresses := by
  obtain ⟨-, hle, hnodup, hall⟩ := h.servers secret server hserver
  refine List.Perm.eq_of_pairwise (fun x y _ _ hxy hyx => le_antisymm hxy hyx)
    ((ReadFrom.sorted _ secret).imp le_of_lt) hle ?_
  refine (List.perm_ext_iff_of_nodup ((ReadFrom.sorted _ secret).imp ne_of_lt) hnodup).mpr fun addr => ?_
  rw [mem_sortedAddresses]
  constructor
  · rintro ⟨aInfo, haddr, rfl⟩
    rw [Dump.new_addresses_eq] at haddr
    obtain ⟨server', hserver', hcount⟩ := h.addresses addr aInfo haddr
    obtain rfl := Option.some.inj (hserver.symm.trans hserver')
    exact List.count_pos_iff.mp (by omega)
  · rintro haddr
    obtain ⟨aInfo, haInfo, hsame⟩ := hall addr haddr
    exact ⟨aInfo, by rw [Dump.new_addresses_eq, haInfo], hsame⟩

/-- The dump of a sound registry is read back as the same registry, and a dump that can be read at all is the dump of
the sound registry it is read as. -/
theorem dump_roundTrip :
    (∀ (s : Servers) (now : Timestamp), s.Inv →
      ∃ s', Servers.fromDump (Dump.new now s) = .ok s' ∧ s'.Same s) ∧
    ∀ (dump : Dump) (s : Servers), Servers.fromDump dump = .ok s → s.Inv ∧ (Dump.new dump.now s).Same dump := by
  constructor
  · intro s now h
    obtain ⟨s', hs'⟩ := exists_fromDump (h.consistent now)
    obtain ⟨-, hread⟩ := fromDump_ok hs'
    refine ⟨s', hs', fun addr => ?_, fun secret => ?_⟩
    · rw [hread.addresses, Dump.new_addresses_eq]
    · rw [hread.servers, Dump.new_servers_eq]
      cases hserver : s.servers[secret]? with
      | none => rfl
      | some server =>
        rw [h.sortedAddresses_eq now hserver]
        rfl
  · intro dump s h
    obtain ⟨hconsistent, hread⟩ := fromDump_ok h
    refine ⟨hread.inv hconsistent, rfl, fun addr => ?_, fun secret => ?_⟩
    · rw [Dump.new_addresses_eq, hread.addresses]
    · rw [Dump.new_servers_eq, hread.servers]
      cases dump.servers[secret]? <;> rfl

theorem dump_roundTrip_oneServer :
    ∃ s', Servers.fromDump (Dump.new 10 oneServer) = .ok s' ∧ s'.Same oneServer ∧ s'.Inv ∧
      (Dump.new 10 s').Same (Dump.new 10 oneServer) := by
  obtain ⟨s', hs', hsame⟩ := dump_roundTrip.1 oneServer 10 oneServer_inv
  obtain ⟨hinv, hdump⟩ := dump_roundTrip.2 (Dump.new 10 oneServer) s' hs'
  exact ⟨s', hs', hsame, hinv, hdump⟩

end DDNet.Mastersrv
