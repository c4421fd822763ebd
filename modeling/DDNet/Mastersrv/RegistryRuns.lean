/-
Whole sequences of calls on the registry.

`Servers.changes` says which single-address changes a call consists of; a log of these changes tells
how the registry came about.  Over the log one can say what happened while a server lived: `merge`
may drop a server and create it again within one call.
-/
import DDNet.Mastersrv.Registry

open Function

namespace DDNet.Mastersrv

variable {Value : Type} {s s' : Servers} {call : Call Value} {calls : List (Call Value)}
variable {addr : Addr} {secret : ShortString} {server : Server}

/-! ### The changes a call consists of -/

/-- The change of one round of `merge`. -/
def mergeChange (other : Dump) (entry : Addr × AddrInfo) : Option Change :=
  other.servers[entry.2.secret]?.map fun server => .add entry.1 entry.2 server.infoSerial (some server.info)

/-- The change a register request makes: none when it is refused before `add`. -/
def registerChanges (shared : Shared Value) (remoteAddr : IpAddr) (request : Register Value) : List Change :=
  let addr := request.address.withIp remoteAddr
  match connlessToken shared request, correctChallenge (shared.challengeForAddr addr) request, rawInfo shared request with
  | .ok _, true, .ok raw => [.add addr (registerInfo shared addr request) request.infoSerial raw]
  | _, _, _ => []

def Servers.changes (s : Servers) : Call Value → List Change
  | .add addr aInfo infoSerial info => [.add addr aInfo infoSerial info]
  | .remove addr secret => [.remove addr secret]
  | .pruneBefore time => (s.timedOut time).map fun entry => .remove entry.1 entry.2.secret
  | .merge other => other.addresses.toList.filterMap (mergeChange other)
  | .register shared remoteAddr request => registerChanges shared remoteAddr request

def Servers.applyAll (s : Servers) (changes : List Change) : Option Servers := changes.foldlM Change.apply s

/-- The changes of a sequence of calls. -/
def changesOf (s : Servers) : List (Call Value) → List Change
  | [] => []
  | call :: calls => s.changes call ++
    match s.exec call with
    | some s' => changesOf s' calls
    | none => []

/-! ### Dumps -/

/-- Every address of a dump carries the secret of one of its servers. -/
def Dump.Closed (other : Dump) : Prop :=
  ∀ (addr : Addr) (aInfo : AddrInfo), other.addresses[addr]? = some aInfo → (other.servers[aInfo.secret]?).isSome

/-- The dump was written by a sound registry; its times may have been moved since. -/
def Dump.OfSound (other : Dump) : Prop :=
  ∃ (registry : Servers) (now newNow : Timestamp), registry.Inv ∧ other = (Dump.new now registry).fixupTimestamps newNow

/-- The dump of a registry has the same addresses. -/
lemma Dump.new_addresses {registry : Servers} {now : Timestamp} {aInfo : AddrInfo}
    (h : (Dump.new now registry).addresses[addr]? = some aInfo) : registry.addresses[addr]? = some aInfo := by
  have hcontains : (Std.TreeMap.ofList registry.addresses.toList).contains addr = true := by
    rw [Std.TreeMap.contains_eq_isSome_getElem?]
    exact Option.isSome_of_eq_some h
  rw [Std.TreeMap.contains_ofList, List.contains_iff_mem, List.mem_map] at hcontains
  obtain ⟨⟨a, aInfo'⟩, hmem, rfl⟩ := hcontains
  have hkeys : registry.addresses.toList.Pairwise fun x y => ¬compare x.1 y.1 = .eq :=
    registry.addresses.distinct_keys_toList.imp fun hxy => by simpa using hxy
  have hself : compare a a = .eq := compare_eq_iff_eq.mpr rfl
  have hget := Std.TreeMap.getElem?_ofList_of_mem hself hkeys hmem
  rw [← Option.some.inj (hget.symm.trans h)]
  exact Std.HashMap.mem_toList_iff_getElem?_eq_some.mp hmem

/-- The dump of a registry has the same servers. -/
lemma Dump.new_servers {registry : Servers} {now : Timestamp} (h : registry.servers[secret]? = some server) :
    ((Dump.new now registry).servers[secret]?).isSome := by
  rw [Dump.new, ← Std.TreeMap.contains_eq_isSome_getElem?, Std.TreeMap.contains_ofList, List.contains_iff_mem]
  simp only [List.map_map, List.mem_map]
  exact ⟨(secret, server), Std.HashMap.mem_toList_iff_getElem?_eq_some.mpr h, rfl⟩

lemma Dump.OfSound.closed {other : Dump} (h : other.OfSound) : other.Closed := by
  obtain ⟨registry, now, newNow, hsound, rfl⟩ := h
  intro addr aInfo haddr
  rw [Dump.fixupTimestamps, Std.TreeMap.getElem?_map, Option.map_eq_some_iff] at haddr
  obtain ⟨aInfo', haddr', rfl⟩ := haddr
  obtain ⟨server, hserver, -⟩ := hsound.addresses addr aInfo' (Dump.new_addresses haddr')
  exact @Dump.new_servers _ _ registry now hserver

/-! ### Calls are changes -/

lemma mergeAddr_eq {other : Dump} {entry : Addr × AddrInfo} {c : Change} (h : mergeChange other entry = some c) :
    s.mergeAddr other entry = c.apply s := by
  obtain ⟨server, hserver, rfl⟩ := Option.map_eq_some_iff.mp h
  rw [Servers.mergeAddr, hserver, Change.apply]
  simp only [Option.bind_eq_bind, Option.bind_some]
  cases s.add entry.1 entry.2 server.infoSerial (some server.info) <;> rfl

lemma merge_eq {other : Dump} (h : other.Closed) (s : Servers) :
    s.merge other = s.applyAll (other.addresses.toList.filterMap (mergeChange other)) := by
  have hclosed : ∀ entry ∈ other.addresses.toList, ∃ c, mergeChange other entry = some c := by
    rintro ⟨addr, aInfo⟩ hmem
    obtain ⟨server, hserver⟩ := Option.isSome_iff_exists.mp
      (h addr aInfo (Std.TreeMap.mem_toList_iff_getElem?_eq_some.mp hmem))
    exact ⟨_, by rw [mergeChange, hserver, Option.map_some]⟩
  rw [Servers.merge, Servers.applyAll]
  generalize other.addresses.toList = entries at hclosed ⊢
  induction entries generalizing s with
  | nil => rfl
  | cons entry entries ih =>
    obtain ⟨c, hc⟩ := hclosed entry List.mem_cons_self
    rw [List.filterMap_cons_some hc, List.foldlM_cons, List.foldlM_cons, mergeAddr_eq hc]
    congr 1
    ext1 s'
    exact ih s' fun e he => hclosed e (List.mem_cons_of_mem _ he)

/-- Removing the collected addresses one by one: each is still there, with its secret, when its turn comes. -/
lemma prune_eq {entries : List (Addr × AddrInfo)} (h : s.Inv)
    (hentries : ∀ entry ∈ entries, s.addresses[entry.1]? = some entry.2)
    (hkeys : entries.Pairwise fun x y => x.1 ≠ y.1) :
    (entries.map (·.1)).foldlM Servers.pruneAddr s =
      s.applyAll (entries.map fun entry => .remove entry.1 entry.2.secret) := by
  induction entries generalizing s with
  | nil => rfl
  | cons entry entries ih =>
    obtain ⟨hne, hkeys'⟩ := List.pairwise_cons.mp hkeys
    obtain ⟨r, s', hremove, hinv, -, hprune⟩ := h.remove entry.1 entry.2.secret
    obtain ⟨hprune', haddresses⟩ := hprune (owner_of (hentries entry List.mem_cons_self))
    rw [Servers.applyAll, List.map_cons, List.map_cons, List.foldlM_cons, List.foldlM_cons, hprune', Change.apply,
      hremove]
    refine ih hinv (fun e he => ?_) hkeys'
    rw [haddresses, Std.HashMap.getElem?_erase, if_neg (by simpa using hne e he)]
    exact hentries e (List.mem_cons_of_mem _ he)

lemma pruneBefore_eq (h : s.Inv) (time : Timestamp) :
    s.pruneBefore time = s.applyAll ((s.timedOut time).map fun entry => .remove entry.1 entry.2.secret) := by
  refine prune_eq h (fun entry hmem => ?_) ?_
  · exact Std.HashMap.mem_toList_iff_getElem?_eq_some.mp (List.mem_filter.mp hmem).1
  · exact (s.addresses.distinct_keys_toList.imp fun hxy => by simpa using hxy).sublist List.filter_sublist

lemma applyAll_singleton (c : Change) : s.applyAll [c] = c.apply s := by
  rw [Servers.applyAll, List.foldlM_cons]
  cases c.apply s <;> rfl

lemma register_eq (s : Servers) (shared : Shared Value) (remoteAddr : IpAddr) (request : Register Value) :
    (handleRegister s shared remoteAddr request).map (·.servers) =
      s.applyAll (registerChanges shared remoteAddr request) := by
  rw [handleRegister, registerChanges]
  cases connlessToken shared request with
  | error e => rfl
  | ok token =>
    cases hcorrect : correctChallenge (shared.challengeForAddr (request.address.withIp remoteAddr)) request with
    | false => simp [hcorrect, Servers.applyAll]
    | true =>
      cases hraw : rawInfo shared request with
      | error e => simp [hcorrect, hraw, enterRegister, Servers.applyAll]
      | ok raw =>
        rw [applyAll_singleton, Change.apply]
        simp only [hcorrect, hraw, enterRegister, if_true]
        cases s.add (request.address.withIp remoteAddr) _ request.infoSerial raw <;> rfl

/-- Every call consists of changes of single addresses. -/
theorem exec_eq (h : s.Inv) (hmerge : ∀ other, call = .merge other → other.Closed) :
    s.exec call = s.applyAll (s.changes call) := by
  cases call with
  | add addr aInfo infoSerial info =>
    rw [Servers.changes, applyAll_singleton]
    rfl
  | remove addr secret =>
    rw [Servers.changes, applyAll_singleton]
    rfl
  | pruneBefore time => exact pruneBefore_eq h time
  | merge other => exact merge_eq (hmerge other rfl) s
  | register shared remoteAddr request => exact register_eq s shared remoteAddr request

/-! ### The log of a run -/

/-- One change of the registry. -/
structure Event where
  before : Servers
  change : Change
  after : Servers

/-- The log of the changes that lead from the empty registry to a state, the last one first. -/
inductive Log : List Event → Servers → Prop
  | start : Log [] Servers.new
  | change {log : List Event} {s s' : Servers} (c : Change) : Log log s → c.apply s = some s' → Log (⟨s, c, s'⟩ :: log) s'

/-- The info of the server was submitted with its serial, and the server has lived ever since. -/
def Submitted (secret : ShortString) (server : Server) : List Event → Prop
  | [] => False
  | event :: log => (event.after.servers[secret]?).isSome ∧
    (event.change.Submits secret server ∨ Submitted secret server log)

/-- What holds of each change of a log. -/
structure Event.Sound (event : Event) (log : List Event) : Prop where
  inv : event.after.Inv
  follows : event.change.Follows event.before event.after
  serial : ∀ (secret : ShortString) (server server' : Server), event.before.servers[secret]? = some server →
    event.after.servers[secret]? = some server' → server.infoSerial ≤ server'.infoSerial
  submitted : ∀ (secret : ShortString) (server : Server), event.after.servers[secret]? = some server →
    Submitted secret server (event :: log)

lemma Submitted.congr {server' : Server} {log : List Event} (h : Submitted secret server log)
    (hserial : server.infoSerial = server'.infoSerial) (hinfo : server.info = server'.info) :
    Submitted secret server' log := by
  induction log with
  | nil => exact h
  | cons event log ih =>
    refine ⟨h.1, h.2.imp (fun hsubmits => ?_) ih⟩
    cases hc : event.change with
    | add addr aInfo infoSerial info =>
      rw [hc] at hsubmits
      rwa [Change.Submits, ← hserial, ← hinfo]
    | remove addr secret =>
      rw [hc] at hsubmits
      exact hsubmits

lemma inv_new : Servers.new.Inv := by
  rw [inv_iff]
  convert Inverse.empty (α := Addr) (κ := ShortString) using 1
  · ext1 a
    simp [owner, Servers.new]
  · ext1 k
    simp [members, Servers.new]

/-- A state that a log leads to is sound, and the info of each server is accounted for. -/
lemma Log.sound {log : List Event} (h : Log log s) :
    s.Inv ∧ ∀ (secret : ShortString) (server : Server), s.servers[secret]? = some server → Submitted secret server log := by
  induction h with
  | start => exact ⟨inv_new, fun secret server h => by simp [Servers.new] at h⟩
  | @change log s s' c hlog hc ih =>
    obtain ⟨s'', hs'', hinv, hfollows⟩ := Change.apply_spec ih.1 c
    obtain rfl := Option.some.inj (hs''.symm.trans hc)
    refine ⟨hinv, fun secret server hserver => ⟨Option.isSome_of_eq_some hserver, ?_⟩⟩
    rcases hfollows.info secret server hserver with ⟨old, hold, hserial, hinfo⟩ | ⟨hsubmits, -⟩
    · exact .inr ((ih.2 secret old hold).congr hserial hinfo)
    · exact .inl hsubmits

lemma Log.event_sound {log : List Event} (h : Log log s) {event : Event} {earlier : List Event}
    (hsuffix : event :: earlier <:+ log) : event.Sound earlier := by
  induction h with
  | start => simp at hsuffix
  | @change log s s' c hlog hc ih =>
    rcases List.suffix_cons_iff.mp hsuffix with heq | htail
    · obtain ⟨rfl, rfl⟩ := List.cons_eq_cons.mp heq
      obtain ⟨s'', hs'', hinv, hfollows⟩ := Change.apply_spec hlog.sound.1 c
      obtain rfl := Option.some.inj (hs''.symm.trans hc)
      exact ⟨hinv, hfollows, fun _ _ _ => hfollows.serial, (Log.change c hlog hc).sound.2⟩
    · exact ih htail

/-- Changes never panic; they go on with the log. -/
lemma Log.applyAll {log : List Event} (h : Log log s) (changes : List Change) :
    ∃ s' log', s.applyAll changes = some s' ∧ Log (log' ++ log) s' ∧ log'.map (·.change) = changes.reverse := by
  induction changes generalizing s log with
  | nil => exact ⟨s, [], rfl, h, rfl⟩
  | cons c changes ih =>
    obtain ⟨s₁, hs₁, -, -⟩ := Change.apply_spec h.sound.1 c
    obtain ⟨s', log', hs', hlog', hchanges⟩ := ih (h.change c hs₁)
    refine ⟨s', log' ++ [⟨s, c, s₁⟩], ?_, ?_, ?_⟩
    · rw [Servers.applyAll, List.foldlM_cons, hs₁]
      exact hs'
    · rwa [List.append_assoc, List.singleton_append]
    · rw [List.map_append, hchanges, List.reverse_cons, List.map_singleton]

lemma Log.run {log : List Event} (h : Log log s) (hmerge : ∀ other, .merge other ∈ calls → other.Closed) :
    ∃ s' log', s.run calls = some s' ∧ Log (log' ++ log) s' ∧ log'.map (·.change) = (changesOf s calls).reverse := by
  induction calls generalizing s log with
  | nil => exact ⟨s, [], rfl, h, rfl⟩
  | cons call calls ih =>
    obtain ⟨s₁, log₁, hs₁, hlog₁, hchanges₁⟩ := h.applyAll (s.changes call)
    have hexec : s.exec call = some s₁ := by
      rw [exec_eq h.sound.1 fun other hcall => hmerge other (by simp [hcall]), hs₁]
    obtain ⟨s', log', hs', hlog', hchanges⟩ := ih hlog₁ fun other hmem => hmerge other (List.mem_cons_of_mem _ hmem)
    refine ⟨s', log' ++ log₁, ?_, ?_, ?_⟩
    · rw [Servers.run, List.foldlM_cons, hexec]
      exact hs'
    · rwa [List.append_assoc]
    · rw [List.map_append, hchanges, hchanges₁, changesOf, hexec, List.reverse_append]

/-- Every sequence of calls goes through without a panic and leaves a sound registry; the changes it consists of
touch what they may touch only, and no server loses a newer info or has one that was not submitted. -/
theorem registry_sound (calls : List (Call Value)) (hmerge : ∀ other, .merge other ∈ calls → other.OfSound) :
    ∃ s log, Servers.new.run calls = some s ∧ s.Inv ∧ Log log s ∧
      log.reverse.map (·.change) = changesOf Servers.new calls ∧
      ∀ event earlier, event :: earlier <:+ log → event.Sound earlier := by
  obtain ⟨s, log, hrun, hlog, hchanges⟩ := Log.start.run fun other hmem => (hmerge other hmem).closed
  rw [List.append_nil] at hlog
  refine ⟨s, log, hrun, hlog.sound.1, hlog, ?_, fun event earlier => hlog.event_sound⟩
  rw [List.map_reverse, hchanges, List.reverse_reverse]

/-- An address of a server with the given secret. -/
def sampleInfo (secret : ShortString) : AddrInfo := ⟨.mastersrv, 5, none, secret⟩

def sampleAddr (port : UInt16) : Addr := ⟨.v4 0x7f000001, port, .v6⟩

/-- A registry with one server. -/
def oneServer : Servers :=
  ((Servers.new.add (sampleAddr 8303) (sampleInfo "one") 1 (some "{}")).map (·.2)).getD .new

lemma oneServer_inv : oneServer.Inv := by
  obtain ⟨r, s', hadd, hinv, -⟩ := inv_new.add (sampleAddr 8303) (sampleInfo "one") 1 (some "{}")
  rwa [oneServer, hadd]

/-- A server moves in, takes over an address of the merged registry, and times out. -/
def sampleCalls : List (Call Unit) :=
  [.add (sampleAddr 8304) (sampleInfo "two") 0 (some "{}"), .merge ((Dump.new 10 oneServer).fixupTimestamps 20),
    .add (sampleAddr 8303) { sampleInfo "two" with pingTime := 30 } 0 none, .pruneBefore 20]

theorem registry_sound_sampleCalls :
    ∃ s log, Servers.new.run sampleCalls = some s ∧ s.Inv ∧ Log log s ∧
      log.reverse.map (·.change) = changesOf Servers.new sampleCalls ∧
      ∀ event earlier, event :: earlier <:+ log → event.Sound earlier :=
  registry_sound sampleCalls fun other hmem => by
    have hother : other = (Dump.new 10 oneServer).fixupTimestamps 20 := by simpa [sampleCalls] using hmem
    exact ⟨oneServer, 10, 20, oneServer_inv, hother⟩

end DDNet.Mastersrv
