/-
The limit of connections in a timespan (`CNetServer::Connlimit`, `engine/shared/network_server.cpp`).

The entries of `m_aSpamConns` are told apart by the whole address, the port included.  While every window of
an IP is of one port, an entry counts what passes in the window of its IP.
-/
import DDNet.Lib.TimeWindow
import DDNet.Server.NetServer

namespace DDNet

open Lib

/-! ### The attempts -/

/-- An address without its port. -/
def NETADDR.noPort (addr : NETADDR) : NETADDR := { addr with port := 0 }

/-- A connection attempt. -/
structure Attempt where
  addr : NETADDR
  now : ℤ

variable {n : ℕ} {α β : Type*} {config : NetServerConfig} {log : List (Attempt × Bool)} {addr ip : NETADDR}
  {now : ℤ}

/-- The duration of a window: `m_SvConnlimitTime` seconds. -/
def NetServerConfig.duration (config : NetServerConfig) : ℤ := timeFreq * config.svConnlimitTime

/-- The last window of an IP. -/
def ipWindow (config : NetServerConfig) (f : α → Attempt) (ip : NETADDR) (l : List α) : List α :=
  window (fun x => (f x).now) config.duration (l.filter fun x => (f x).addr.noPort = ip)

/-- The number of attempts that `Connlimit` let pass. -/
def passed (log : List (Attempt × Bool)) : ℕ := log.countP fun e => !e.2

/-- In no window of an IP does more than `m_SvConnlimit` pass, and an attempt is only rejected if it has more than
`m_SvConnlimit` attempts in its window. -/
structure RespectsLimit (config : NetServerConfig) (log : List (Attempt × Bool)) : Prop where
  passed_le : ∀ log' ∈ log.inits, ∀ ip, passed (ipWindow config Prod.fst ip log') ≤ config.svConnlimit
  limited : ∀ log' ∈ log.inits, ∀ a, (a, true) ∈ log'.getLast? →
    config.svConnlimit < (ipWindow config Prod.fst a.addr.noPort log').length

/-- Every attempt is from the port of the others in its window. -/
def OnePort (config : NetServerConfig) (attempts : List Attempt) : Prop :=
  ∀ attempts' ∈ attempts.inits, ∀ a ∈ attempts'.getLast?, ∀ b ∈ ipWindow config id a.addr.noPort attempts',
    b.addr = a.addr

namespace CNetServer

/-- `Connlimit` of one attempt after the other: the server, and the attempts with what was returned. -/
def connlimits (config : NetServerConfig) (server : CNetServer n) (attempts : List Attempt) :
    CNetServer n × List (Attempt × Bool) :=
  attempts.foldl (fun (server, log) attempt =>
    let (server, limited) := server.connlimit config attempt.addr attempt.now
    (server, log ++ [(attempt, limited)])) (server, [])

end CNetServer

/-! ### Windows of an IP -/

lemma mem_of_mem_ipWindow {f : α → Attempt} {l : List α} {x : α} (h : x ∈ ipWindow config f ip l) :
    x ∈ l ∧ (f x).addr.noPort = ip := by
  obtain ⟨hmem, hip⟩ := List.mem_filter.1 ((window_suffix _).subset h)
  exact ⟨hmem, by simpa using hip⟩

lemma ipWindow_map (f : β → Attempt) (g : α → β) (l : List α) :
    ipWindow config f ip (l.map g) = (ipWindow config (f ∘ g) ip l).map g := by
  rw [ipWindow, List.filter_map, window_map]
  rfl

lemma ipWindow_snoc_of_ne {f : α → Attempt} {l : List α} {x : α} (h : (f x).addr.noPort ≠ ip) :
    ipWindow config f ip (l ++ [x]) = ipWindow config f ip l := by
  rw [ipWindow, List.filter_append, List.filter_singleton]
  simp [h, ipWindow]

lemma ipWindow_snoc_of_eq {f : α → Attempt} {l : List α} {x : α} (h : (f x).addr.noPort = ip) :
    ipWindow config f ip (l ++ [x]) = enter (fun x => (f x).now) config.duration (ipWindow config f ip l) x := by
  rw [ipWindow, List.filter_append, List.filter_singleton]
  simp [h, window, ipWindow]

/-! ### The table -/

/-- The entries count what passes in the windows that are not over. -/
structure Counts (config : NetServerConfig) (log : List (Attempt × Bool)) (conns : List CSpamConn) (now : ℤ) :
    Prop where
  length : conns.length = netConnlimitIps
  distinct : conns.Pairwise fun c d => c.addr = d.addr → c.addr = .zero
  unused : ∀ c ∈ conns, c.addr = .zero → c.time = 0
  used : ∀ c ∈ conns, c.addr ≠ .zero → 0 < c.time
  ne_zero : ∀ e ∈ log, e.1.addr ≠ .zero
  /-- A window that is not over has its entry. -/
  counted : ∀ ip, ∀ first ∈ (ipWindow config Prod.fst ip log).head?, now < first.1.now + config.duration →
    ⟨first.1.addr, first.1.now, passed (ipWindow config Prod.fst ip log)⟩ ∈ conns
  /-- An entry whose time is not over belongs to the window of its IP. -/
  entries : ∀ c ∈ conns, c.addr ≠ .zero → now < c.time + config.duration →
    ∃ first ∈ (ipWindow config Prod.fst c.addr.noPort log).head?, first.1.addr = c.addr ∧ first.1.now = c.time

namespace Counts

variable {conns : List CSpamConn}

lemma init : Counts config [] (List.replicate netConnlimitIps ⟨.zero, 0, 0⟩) now where
  length := List.length_replicate
  distinct := List.pairwise_replicate.2 (.inr fun _ => rfl)
  unused c hc _ := by rw [List.eq_of_mem_replicate hc]
  used c hc h := absurd (by rw [List.eq_of_mem_replicate hc]) h
  ne_zero e he := absurd he List.not_mem_nil
  counted ip first hfirst := by simp [ipWindow, window] at hfirst
  entries c hc h := absurd (by rw [List.eq_of_mem_replicate hc]) h

lemma mono (h : Counts config log conns now) {now' : ℤ} (hle : now ≤ now') : Counts config log conns now' where
  length := h.length
  distinct := h.distinct
  unused := h.unused
  used := h.used
  ne_zero := h.ne_zero
  counted ip first hfirst hopen := h.counted ip first hfirst (hle.trans_lt hopen)
  entries c hc hzero hlive := h.entries c hc hzero (hle.trans_lt hlive)

/-- An entry is replaced by the one of the IP of an attempt. -/
lemma replace {as bs : List CSpamConn} {c c' : CSpamConn} {limited : Bool}
    (h : Counts config log (as ++ c :: bs) now) (haddr : addr ≠ .zero)
    (hother : ∀ d ∈ as ++ bs, d.addr ≠ addr)
    (hc : c.addr = addr ∨ c.addr = .zero ∨ c.time + config.duration ≤ now)
    (hport : ∀ first ∈ (ipWindow config Prod.fst addr.noPort log).head?,
      now < first.1.now + config.duration → first.1.addr = addr)
    (hpos : 0 < c'.time) (hc' : c'.addr = addr)
    (hfirst : ∃ first ∈ (ipWindow config Prod.fst addr.noPort (log ++ [(⟨addr, now⟩, limited)])).head?,
      first.1.addr = addr ∧ first.1.now = c'.time)
    (hpassed : passed (ipWindow config Prod.fst addr.noPort (log ++ [(⟨addr, now⟩, limited)])) = c'.conns) :
    Counts config (log ++ [(⟨addr, now⟩, limited)]) (as ++ c' :: bs) now := by
  obtain ⟨first', hfirst', haddr', htime'⟩ := hfirst
  have hmem : ∀ {d}, d ∈ as ++ c' :: bs → d = c' ∨ d ∈ as ++ bs := by
    intro d hd
    simp only [List.mem_append, List.mem_cons] at hd ⊢
    tauto
  have hold : ∀ {d}, d ∈ as ++ bs → d ∈ as ++ c :: bs := by
    intro d hd
    simp only [List.mem_append, List.mem_cons] at hd ⊢
    tauto
  refine ⟨?_, ?_, ?_, ?_, ?_, ?_, ?_⟩
  · simpa using h.length
  · have hdistinct := h.distinct
    simp only [List.pairwise_append, List.pairwise_cons, List.mem_cons] at hdistinct ⊢
    obtain ⟨has, ⟨-, hbs⟩, hasbs⟩ := hdistinct
    refine ⟨has, ⟨fun d hd heq => ?_, hbs⟩, ?_⟩
    · exact absurd (heq.symm.trans hc') (hother d (List.mem_append_right as hd))
    · rintro a ha b (rfl | hb)
      · exact fun heq => absurd (heq.trans hc') (hother a (List.mem_append_left bs ha))
      · exact hasbs a ha b (.inr hb)
  · intro d hd hzero
    obtain rfl | hd := hmem hd
    · exact absurd (hc'.symm.trans hzero) haddr
    · exact h.unused d (hold hd) hzero
  · intro d hd hne
    obtain rfl | hd := hmem hd
    · exact hpos
    · exact h.used d (hold hd) hne
  · intro e he
    rw [List.mem_append, List.mem_singleton] at he
    obtain he | rfl := he
    · exact h.ne_zero e he
    · exact haddr
  · intro ip first hfirst hopen
    by_cases hip : addr.noPort = ip
    · subst hip
      obtain rfl : first' = first := Option.some.inj (hfirst'.symm.trans hfirst)
      rw [hpassed, haddr', htime', ← hc']
      exact List.mem_append_right as List.mem_cons_self
    · -- the window of another IP is as before, and so is its entry
      rw [ipWindow_snoc_of_ne hip] at hfirst ⊢
      have hentry := h.counted ip first hfirst hopen
      obtain ⟨hlog, hip'⟩ := mem_of_mem_ipWindow (List.mem_of_mem_head? hfirst)
      have hne : (⟨first.1.addr, first.1.now, passed (ipWindow config Prod.fst ip log)⟩ : CSpamConn) ≠ c := by
        rintro rfl
        obtain heq | hzero | hover := hc
        · exact hip (by rw [← heq]; exact hip')
        · exact h.ne_zero first hlog hzero
        · exact absurd hopen (not_lt.2 hover)
      simp only [List.mem_append, List.mem_cons] at hentry ⊢
      tauto
  · intro d hd hzero hlive
    obtain rfl | hd := hmem hd
    · rw [hc']
      exact ⟨first', hfirst', haddr', htime'⟩
    · obtain ⟨first, hfirst, heq, htime⟩ := h.entries d (hold hd) hzero hlive
      by_cases hip : addr.noPort = d.addr.noPort
      · -- the attempt is from the port of this window
        rw [← hip] at hfirst
        exact absurd (heq.symm.trans (hport first hfirst (by rw [htime]; exact hlive))) (hother d hd)
      · exact ⟨first, by rw [ipWindow_snoc_of_ne hip]; exact hfirst, heq, htime⟩

/-- The entry of an attempt that starts a window. -/
lemma start {as bs : List CSpamConn} {c : CSpamConn} (h : Counts config log (as ++ c :: bs) now)
    (haddr : addr ≠ .zero) (hnow : 0 < now) (hother : ∀ d ∈ as ++ bs, d.addr ≠ addr)
    (hc : c.addr = addr ∨ c.addr = .zero ∨ c.time + config.duration ≤ now)
    (hover : ∀ first ∈ (ipWindow config Prod.fst addr.noPort log).head?, first.1.now + config.duration ≤ now) :
    Counts config (log ++ [(⟨addr, now⟩, false)]) (as ++ ⟨addr, now, 1⟩ :: bs) now := by
  have hwindow : ipWindow config Prod.fst addr.noPort (log ++ [(⟨addr, now⟩, false)]) =
      [(⟨addr, now⟩, false)] := by
    rw [ipWindow_snoc_of_eq (by rfl), enter, if_neg]
    rw [isOpen_iff]
    rintro ⟨first, hfirst, hlt⟩
    exact absurd hlt (not_lt.2 (hover first hfirst))
  refine h.replace haddr hother hc (fun first hfirst hopen => ?_) hnow rfl ?_ ?_
  · exact absurd hopen (not_lt.2 (hover first hfirst))
  · rw [hwindow]
    exact ⟨_, rfl, rfl, rfl⟩
  · rw [hwindow]
    rfl

/-- If all entries were of windows that are not over, then there would be too many IPs. -/
lemma exists_over (h : Counts config log conns now) {ips : Finset NETADDR} (hcard : ips.card ≤ netConnlimitIps)
    (hlog : ∀ e ∈ log, e.1.addr.noPort ∈ ips) (hip : ip ∈ ips)
    (hover : ∀ first ∈ (ipWindow config Prod.fst ip log).head?, first.1.now + config.duration ≤ now) :
    ∃ c ∈ conns, c.addr = .zero ∨ c.time + config.duration ≤ now := by
  by_contra! hlive
  have hnodup : (conns.map fun c => c.addr.noPort).Nodup := by
    refine List.pairwise_map.2 (h.distinct.imp_of_mem fun {c d} hc hd hdistinct heq => ?_)
    obtain ⟨first, hfirst, haddr, -⟩ := h.entries c hc (hlive c hc).1 (hlive c hc).2
    obtain ⟨first', hfirst', haddr', -⟩ := h.entries d hd (hlive d hd).1 (hlive d hd).2
    rw [← heq] at hfirst'
    obtain rfl : first = first' := Option.some.inj (hfirst.symm.trans hfirst')
    exact (hlive c hc).1 (hdistinct (haddr.symm.trans haddr'))
  have hnotMem : ip ∉ conns.map fun c => c.addr.noPort := by
    intro hmem
    obtain ⟨c, hc, rfl⟩ := List.mem_map.1 hmem
    obtain ⟨first, hfirst, -, htime⟩ := h.entries c hc (hlive c hc).1 (hlive c hc).2
    have := hover first hfirst
    rw [htime] at this
    exact absurd (hlive c hc).2 (not_lt.2 this)
  have hsub : (ip :: conns.map fun c => c.addr.noPort).toFinset ⊆ ips := by
    intro ip' hip'
    rw [List.mem_toFinset, List.mem_cons] at hip'
    obtain rfl | hmem := hip'
    · exact hip
    · obtain ⟨c, hc, rfl⟩ := List.mem_map.1 hmem
      obtain ⟨first, hfirst, haddr, -⟩ := h.entries c hc (hlive c hc).1 (hlive c hc).2
      rw [← haddr]
      exact hlog first (mem_of_mem_ipWindow (List.mem_of_mem_head? hfirst)).1
  have hle := Finset.card_le_card hsub
  rw [List.toFinset_card_of_nodup (List.nodup_cons.2 ⟨hnotMem, hnodup⟩), List.length_cons, List.length_map,
    h.length] at hle
  omega

end Counts

/-! ### The oldest entry -/

namespace CNetServer

lemma oldest_spec {conns : List CSpamConn} {k : ℕ} (hpos : 0 < k) (hk : k ≤ conns.length) :
    let o := (List.range k).foldl (fun oldest i =>
      if (conns.map (·.time)).getD i 0 < (conns.map (·.time)).getD oldest 0 then i else oldest) 0
    o < k ∧ ∀ i < k, (conns.map (·.time)).getD o 0 ≤ (conns.map (·.time)).getD i 0 := by
  induction k, hpos using Nat.le_induction with
  | base =>
    refine ⟨by simp, fun i hi => ?_⟩
    obtain rfl : i = 0 := by omega
    simp
  | succ k hpos ih =>
    obtain ⟨hlt, hmin⟩ := ih (by omega)
    simp only [List.range_succ, List.foldl_append, List.foldl_cons, List.foldl_nil]
    split_ifs with hless
    · refine ⟨by omega, fun i hi => ?_⟩
      obtain hi | rfl := Nat.lt_succ_iff_lt_or_eq.1 hi
      · exact hless.le.trans (hmin i hi)
      · exact le_rfl
    · refine ⟨by omega, fun i hi => ?_⟩
      obtain hi | rfl := Nat.lt_succ_iff_lt_or_eq.1 hi
      · exact hmin i hi
      · exact not_lt.1 hless

/-- The oldest entry among the others. -/
lemma oldest_split {conns : List CSpamConn} (h : conns ≠ []) :
    ∃ as c bs, conns = as ++ c :: bs ∧ (∀ c', conns.set (oldest conns) c' = as ++ c' :: bs) ∧
      ∀ d ∈ conns, c.time ≤ d.time := by
  obtain ⟨hlt, hmin⟩ := oldest_spec (List.length_pos_of_ne_nil h) le_rfl
  rw [← oldest] at hlt hmin
  refine ⟨_, _, _, (List.take_append_drop (oldest conns) conns).symm.trans
    (by rw [List.drop_eq_getElem_cons hlt]), fun c' => List.set_eq_take_append_cons_drop.trans (if_pos hlt), ?_⟩
  intro d hd
  obtain ⟨i, hi, rfl⟩ := List.getElem_of_mem hd
  simpa [hlt, hi] using hmin i hi

/-! ### An attempt -/

/-- What `Connlimit` does to the entry of the address. -/
def countIn (config : NetServerConfig) (conn : CSpamConn) (now : ℤ) : CSpamConn × Bool :=
  if now < conn.time + config.duration then
    if conn.conns ≥ config.svConnlimit then (conn, true) else ({ conn with conns := conn.conns + 1 }, false)
  else ({ conn with time := now, conns := 1 }, false)

lemma connlimitLoop_split (as bs : List CSpamConn) {c : CSpamConn} (hc : c.addr = addr)
    (has : ∀ d ∈ as, d.addr ≠ addr) :
    connlimitLoop config addr now (as ++ c :: bs) =
      some (as ++ (countIn config c now).1 :: bs, (countIn config c now).2) := by
  induction as with
  | nil =>
    have hlive : c.time > now - timeFreq * config.svConnlimitTime ↔ now < c.time + config.duration := by
      rw [NetServerConfig.duration]
      omega
    rw [List.nil_append, connlimitLoop, if_pos hc, countIn]
    simp only [hlive]
    split_ifs <;> rfl
  | cons d as ih =>
    rw [List.cons_append, connlimitLoop, if_neg (has d List.mem_cons_self),
      ih fun e he => has e (List.mem_cons_of_mem d he)]
    rfl

lemma connlimitLoop_eq_none {conns : List CSpamConn} (h : ∀ c ∈ conns, c.addr ≠ addr) :
    connlimitLoop config addr now conns = none := by
  induction conns with
  | nil => rfl
  | cons c conns ih =>
    rw [connlimitLoop, if_neg (h c List.mem_cons_self), ih fun d hd => h d (List.mem_cons_of_mem c hd)]
    rfl

lemma connlimit_split {server : CNetServer n} {as bs : List CSpamConn} {c : CSpamConn}
    (hconns : server.spamConns = as ++ c :: bs) (hc : c.addr = addr) (has : ∀ d ∈ as, d.addr ≠ addr) :
    server.connlimit config addr now =
      ({ server with spamConns := as ++ (countIn config c now).1 :: bs }, (countIn config c now).2) := by
  rw [connlimit, hconns, connlimitLoop_split as bs hc has]

end CNetServer

namespace Counts

open CNetServer

variable {server : CNetServer n}

/-- There is one entry of an address. -/
lemma exists_split {conns : List CSpamConn} (h : Counts config log conns now) (haddr : addr ≠ .zero)
    {c : CSpamConn} (hc : c ∈ conns) (heq : c.addr = addr) :
    ∃ as bs, conns = as ++ c :: bs ∧ ∀ d ∈ as ++ bs, d.addr ≠ addr := by
  obtain ⟨as, bs, rfl⟩ := List.append_of_mem hc
  refine ⟨as, bs, rfl, fun d hd hd' => ?_⟩
  have hdistinct := h.distinct
  simp only [List.pairwise_append, List.pairwise_cons, List.mem_cons] at hdistinct
  obtain ⟨-, ⟨hbs, -⟩, has⟩ := hdistinct
  obtain hd | hd := List.mem_append.1 hd
  · exact haddr (hd'.symm.trans (has d hd c (.inl rfl) (hd'.trans heq.symm)))
  · exact haddr (heq.symm.trans (hbs d hd (heq.trans hd'.symm)))

/-- An attempt that starts a window passes. -/
lemma connlimit_start (h : Counts config log server.spamConns now) {ips : Finset NETADDR}
    (hcard : ips.card ≤ netConnlimitIps) (hlog : ∀ e ∈ log, e.1.addr.noPort ∈ ips) (hip : addr.noPort ∈ ips)
    (haddr : addr ≠ .zero)
    (hover : ∀ first ∈ (ipWindow config Prod.fst addr.noPort log).head?, first.1.now + config.duration ≤ now) :
    ∃ as c bs, server.spamConns = as ++ c :: bs ∧ (∀ d ∈ as ++ bs, d.addr ≠ addr) ∧
      (c.addr = addr ∨ c.addr = .zero ∨ c.time + config.duration ≤ now) ∧
      server.connlimit config addr now = ({ server with spamConns := as ++ ⟨addr, now, 1⟩ :: bs }, false) := by
  by_cases hmem : ∃ c ∈ server.spamConns, c.addr = addr
  · obtain ⟨c, hc, heq⟩ := hmem
    obtain ⟨as, bs, hconns, hother⟩ := h.exists_split haddr hc heq
    refine ⟨as, c, bs, hconns, hother, .inl heq, ?_⟩
    have hlive : ¬ now < c.time + config.duration := by
      intro hlive
      obtain ⟨first, hfirst, -, htime⟩ := h.entries c hc (by rw [heq]; exact haddr) hlive
      rw [heq] at hfirst
      exact absurd (hover first hfirst) (by rw [htime]; exact not_le.2 hlive)
    rw [connlimit_split hconns heq fun d hd => hother d (List.mem_append_left bs hd), countIn, if_neg hlive, heq]
  · push Not at hmem
    have hne : server.spamConns ≠ [] := by
      intro hnil
      have hlength := h.length
      rw [hnil] at hlength
      exact absurd hlength (by decide)
    obtain ⟨as, c, bs, hconns, hset, hmin⟩ := oldest_split hne
    refine ⟨as, c, bs, hconns, fun d hd => hmem d ?_, ?_, ?_⟩
    · rw [hconns]
      simp only [List.mem_append, List.mem_cons] at hd ⊢
      tauto
    · -- the oldest entry is unused or over, since one is
      obtain ⟨d, hd, hd'⟩ := h.exists_over hcard hlog hip hover
      have hle := hmin d hd
      have hc : c ∈ server.spamConns := by
        rw [hconns]
        exact List.mem_append_right as List.mem_cons_self
      obtain hzero | hover' := hd'
      · refine .inr (.inl ?_)
        by_contra hused
        rw [h.unused d hd hzero] at hle
        exact absurd (h.used c hc hused) (not_lt.2 hle)
      · exact .inr (.inr (by omega))
    · rw [connlimit, connlimitLoop_eq_none hmem]
      simp only [hset]

/-- An attempt in a window is counted in its entry. -/
lemma connlimit_count (h : Counts config log server.spamConns now) (haddr : addr ≠ .zero)
    {first : Attempt × Bool} (hfirst : first ∈ (ipWindow config Prod.fst addr.noPort log).head?)
    (hopen : now < first.1.now + config.duration) (hport : first.1.addr = addr) :
    ∃ as bs, server.spamConns =
        as ++ ⟨addr, first.1.now, passed (ipWindow config Prod.fst addr.noPort log)⟩ :: bs ∧
      (∀ d ∈ as ++ bs, d.addr ≠ addr) ∧
      server.connlimit config addr now =
        if (passed (ipWindow config Prod.fst addr.noPort log) : ℤ) ≥ config.svConnlimit then (server, true)
        else ({ server with spamConns :=
          as ++ ⟨addr, first.1.now, passed (ipWindow config Prod.fst addr.noPort log) + 1⟩ :: bs }, false) := by
  have hentry := h.counted addr.noPort first hfirst hopen
  rw [hport] at hentry
  obtain ⟨as, bs, hconns, hother⟩ := h.exists_split haddr hentry rfl
  refine ⟨as, bs, hconns, hother, ?_⟩
  rw [connlimit_split hconns rfl fun d hd => hother d (List.mem_append_left bs hd), countIn, if_pos hopen]
  split_ifs
  · rw [← hconns]
  · rfl

end Counts

/-- Attempts pass until there are `m_SvConnlimit` of them. -/
def Admits (config : NetServerConfig) (w : List (Attempt × Bool)) : Prop :=
  passed w ≤ config.svConnlimit ∧ (passed w < config.svConnlimit → passed w = w.length)

lemma passed_snoc (w : List (Attempt × Bool)) (a : Attempt) (limited : Bool) :
    passed (w ++ [(a, limited)]) = passed w + if limited then 0 else 1 := by
  cases limited <;> simp [passed]

namespace Counts

variable {server : CNetServer n}

lemma connlimit (h : Counts config log server.spamConns now) {ips : Finset NETADDR}
    (hcard : ips.card ≤ netConnlimitIps) (hlog : ∀ e ∈ log, e.1.addr.noPort ∈ ips) (hip : addr.noPort ∈ ips)
    (haddr : addr ≠ .zero) (hnow : 0 < now) (hlimit : 1 ≤ config.svConnlimit)
    (hadmits : Admits config (ipWindow config Prod.fst addr.noPort log))
    (hport : ∀ first ∈ (ipWindow config Prod.fst addr.noPort log).head?,
      now < first.1.now + config.duration → first.1.addr = addr) :
    ∃ server' limited, server.connlimit config addr now = (server', limited) ∧
      Counts config (log ++ [(⟨addr, now⟩, limited)]) server'.spamConns now ∧
      Admits config (ipWindow config Prod.fst addr.noPort (log ++ [(⟨addr, now⟩, limited)])) ∧
      (limited = true → config.svConnlimit <
        (ipWindow config Prod.fst addr.noPort (log ++ [(⟨addr, now⟩, limited)])).length) := by
  have hwindow : ∀ limited, ipWindow config Prod.fst addr.noPort (log ++ [(⟨addr, now⟩, limited)]) =
      enter (fun x => x.1.now) config.duration (ipWindow config Prod.fst addr.noPort log)
        (⟨addr, now⟩, limited) := fun _ => ipWindow_snoc_of_eq rfl
  by_cases hopen : IsOpen (fun x : Attempt × Bool => x.1.now) config.duration now
    (ipWindow config Prod.fst addr.noPort log)
  · have henter : ∀ limited, ipWindow config Prod.fst addr.noPort (log ++ [(⟨addr, now⟩, limited)]) =
        ipWindow config Prod.fst addr.noPort log ++ [(⟨addr, now⟩, limited)] :=
      fun limited => (hwindow limited).trans (if_pos hopen)
    obtain ⟨first, hfirst, hlt⟩ := isOpen_iff.1 hopen
    have hfirst' : ∀ limited, first ∈
        (ipWindow config Prod.fst addr.noPort (log ++ [(⟨addr, now⟩, limited)])).head? := by
      intro limited
      rw [henter, List.head?_append, Option.mem_def.1 hfirst]
      rfl
    obtain ⟨as, bs, hconns, hother, hresult⟩ := h.connlimit_count haddr hfirst hlt (hport first hfirst hlt)
    rw [hconns] at h
    have htime : 0 < first.1.now := h.used _ (List.mem_append_right as List.mem_cons_self) haddr
    obtain ⟨hle, hall⟩ := hadmits
    rw [hresult]
    split_ifs with hreached
    · refine ⟨server, true, rfl, ?_, ?_, fun _ => ?_⟩
      · rw [hconns]
        refine h.replace haddr hother (.inl rfl) hport htime rfl
          ⟨first, hfirst' true, hport first hfirst hlt, rfl⟩ ?_
        rw [henter, passed_snoc]
        rfl
      · rw [henter, Admits, passed_snoc]
        exact ⟨by simpa using hle, fun hless => absurd hless (by simpa using hreached)⟩
      · have hlen : passed (ipWindow config Prod.fst addr.noPort log) ≤
            (ipWindow config Prod.fst addr.noPort log).length := List.countP_le_length
        rw [henter, List.length_append, List.length_singleton]
        omega
    · refine ⟨_, false, rfl, ?_, ?_, fun hfalse => absurd hfalse Bool.false_ne_true⟩
      · refine h.replace haddr hother (.inl rfl) hport htime rfl
          ⟨first, hfirst' false, hport first hfirst hlt, rfl⟩ ?_
        rw [henter, passed_snoc]
        simp
      · have hall' := hall (not_le.1 hreached)
        rw [henter, Admits, passed_snoc, List.length_append]
        simp only [Bool.false_eq_true, if_false, List.length_singleton]
        omega
  · have henter : ∀ limited, ipWindow config Prod.fst addr.noPort (log ++ [(⟨addr, now⟩, limited)]) =
        [(⟨addr, now⟩, limited)] := fun limited => (hwindow limited).trans (if_neg hopen)
    have hover : ∀ first ∈ (ipWindow config Prod.fst addr.noPort log).head?,
        first.1.now + config.duration ≤ now :=
      fun first hfirst => not_lt.1 fun hlt => hopen (isOpen_iff.2 ⟨first, hfirst, hlt⟩)
    obtain ⟨as, c, bs, hconns, hother, hc, hresult⟩ := h.connlimit_start hcard hlog hip haddr hover
    rw [hconns] at h
    refine ⟨_, false, hresult, h.start haddr hnow hother hc hover, ?_,
      fun hfalse => absurd hfalse Bool.false_ne_true⟩
    rw [henter]
    exact ⟨hlimit, fun _ => rfl⟩

end Counts

/-! ### Every attempt -/

lemma RespectsLimit.snoc {a : Attempt} {limited : Bool} (h : RespectsLimit config log)
    (hpassed : ∀ ip, passed (ipWindow config Prod.fst ip (log ++ [(a, limited)])) ≤ config.svConnlimit)
    (hlimited : limited = true →
      config.svConnlimit < (ipWindow config Prod.fst a.addr.noPort (log ++ [(a, limited)])).length) :
    RespectsLimit config (log ++ [(a, limited)]) := by
  have hinits : ∀ {log'}, log' ∈ (log ++ [(a, limited)]).inits →
      log' ∈ log.inits ∨ log' = log ++ [(a, limited)] := by
    intro log' hlog'
    simpa only [List.mem_inits, List.prefix_concat_iff, or_comm] using hlog'
  constructor
  · intro log' hlog' ip
    obtain hlog' | rfl := hinits hlog'
    · exact h.passed_le log' hlog' ip
    · exact hpassed ip
  · intro log' hlog' b hb
    obtain hlog' | rfl := hinits hlog'
    · exact h.limited log' hlog' b hb
    · rw [List.getLast?_concat, Option.mem_some_iff, Prod.mk.injEq] at hb
      obtain ⟨rfl, rfl⟩ := hb
      exact hlimited rfl

lemma OnePort.of_snoc {attempts : List Attempt} {a : Attempt} (h : OnePort config (attempts ++ [a])) :
    OnePort config attempts :=
  fun attempts' hattempts' => h attempts' ((List.mem_inits _ _).2
    (((List.mem_inits _ _).1 hattempts').trans (List.prefix_append attempts [a])))

/-- An attempt in a window is from the port of its first one. -/
lemma OnePort.first {a : Attempt} (h : OnePort config (log.map Prod.fst ++ [a])) {first : Attempt × Bool}
    (hfirst : first ∈ (ipWindow config Prod.fst a.addr.noPort log).head?)
    (hopen : a.now < first.1.now + config.duration) : first.1.addr = a.addr := by
  refine h _ ((List.mem_inits _ _).2 List.prefix_rfl) a List.getLast?_concat first.1 ?_
  have hhead : first.1 ∈ (ipWindow config id a.addr.noPort (log.map Prod.fst)).head? := by
    rw [ipWindow_map, List.head?_map, Function.id_comp, Option.mem_def.1 hfirst]
    rfl
  have hopen' : IsOpen (fun x => (id x).now) config.duration (id a).now
      (ipWindow config id a.addr.noPort (log.map Prod.fst)) := isOpen_iff.2 ⟨first.1, hhead, hopen⟩
  rw [ipWindow_snoc_of_eq (by rfl), enter, if_pos hopen']
  exact List.mem_append_left _ (List.mem_of_mem_head? hhead)

namespace CNetServer

lemma connlimits_snoc (server : CNetServer n) (attempts : List Attempt) (a : Attempt) :
    server.connlimits config (attempts ++ [a]) =
      (((server.connlimits config attempts).1.connlimit config a.addr a.now).1,
        (server.connlimits config attempts).2 ++
          [(a, ((server.connlimits config attempts).1.connlimit config a.addr a.now).2)]) := by
  rw [connlimits, List.foldl_append]
  rfl

lemma connlimits_map_fst (server : CNetServer n) (attempts : List Attempt) :
    (server.connlimits config attempts).2.map Prod.fst = attempts := by
  induction attempts using List.reverseRecOn with
  | nil => rfl
  | append_singleton attempts a ih => rw [connlimits_snoc, List.map_append, ih, List.map_singleton]

lemma connlimits_counts (maxClientsPerIp : ℤ) {attempts : List Attempt} {ips : Finset NETADDR}
    (hsorted : attempts.Pairwise fun a b => a.now ≤ b.now) (hcard : ips.card ≤ netConnlimitIps)
    (hips : ∀ a ∈ attempts, a.addr.noPort ∈ ips) (hreal : ∀ a ∈ attempts, a.addr ≠ .zero ∧ 0 < a.now)
    (hlimit : 1 ≤ config.svConnlimit) (hport : OnePort config attempts) (hnow : ∀ a ∈ attempts, a.now ≤ now) :
    Counts config ((init maxClientsPerIp : CNetServer n).connlimits config attempts).2
        ((init maxClientsPerIp : CNetServer n).connlimits config attempts).1.spamConns now ∧
      (∀ ip, Admits config (ipWindow config Prod.fst ip
        ((init maxClientsPerIp : CNetServer n).connlimits config attempts).2)) ∧
      RespectsLimit config ((init maxClientsPerIp : CNetServer n).connlimits config attempts).2 := by
  induction attempts using List.reverseRecOn generalizing now with
  | nil =>
    have hpassed : ∀ ip, Admits config (ipWindow config Prod.fst ip []) :=
      fun ip => ⟨(by decide : (0 : ℤ) ≤ 1).trans hlimit, fun _ => rfl⟩
    refine ⟨.init, hpassed, ?_, ?_⟩
    · intro log' hlog' ip
      obtain rfl : log' = [] := by simpa [connlimits] using hlog'
      exact (hpassed ip).1
    · intro log' hlog' a ha
      obtain rfl : log' = [] := by simpa [connlimits] using hlog'
      exact absurd ha (by simp)
  | append_singleton attempts a ih =>
    obtain ⟨addr, time⟩ := a
    have hmem : ∀ {b}, b ∈ attempts → b ∈ attempts ++ [⟨addr, time⟩] := List.mem_append_left _
    have hlast : (⟨addr, time⟩ : Attempt) ∈ attempts ++ [⟨addr, time⟩] :=
      List.mem_append_right _ List.mem_cons_self
    obtain ⟨hsorted, -, hle⟩ := List.pairwise_append.1 hsorted
    obtain ⟨hcounts, hadmits, hrespects⟩ := ih hsorted (fun b hb => hips b (hmem hb))
      (fun b hb => hreal b (hmem hb)) hport.of_snoc fun b hb => hle b hb _ List.mem_cons_self
    have hmap : ((init maxClientsPerIp : CNetServer n).connlimits config attempts).2.map Prod.fst = attempts :=
      connlimits_map_fst _ attempts
    rw [connlimits_snoc]
    generalize (init maxClientsPerIp : CNetServer n).connlimits config attempts = result at *
    obtain ⟨server, log⟩ := result
    rw [← hmap] at hport
    have hlog : ∀ e ∈ log, e.1.addr.noPort ∈ ips := by
      intro e he
      refine hips e.1 (hmem ?_)
      rw [← hmap]
      exact List.mem_map_of_mem he
    obtain ⟨server', limited, hresult, hcounts', hadmits', hlimited⟩ := hcounts.connlimit hcard hlog
      (hips _ hlast) (hreal _ hlast).1 (hreal _ hlast).2 hlimit (hadmits addr.noPort)
      fun first hfirst hopen => hport.first hfirst hopen
    have hadmitsAll : ∀ ip, Admits config (ipWindow config Prod.fst ip (log ++ [(⟨addr, time⟩, limited)])) := by
      intro ip
      by_cases hip : addr.noPort = ip
      · rw [← hip]
        exact hadmits'
      · rw [ipWindow_snoc_of_ne hip]
        exact hadmits ip
    simp only [hresult]
    exact ⟨hcounts'.mono (hnow _ hlast), hadmitsAll, hrespects.snoc (fun ip => (hadmitsAll ip).1) hlimited⟩

/-- If `m_SvConnlimit` is not zero and the windows are of one port each, then an IP does not get more than
`m_SvConnlimit` connections in a window, and none of the first `m_SvConnlimit` is rejected. -/
theorem connlimits_respectsLimit (maxClientsPerIp : ℤ) (config : NetServerConfig) (attempts : List Attempt)
    (hsorted : attempts.Pairwise fun a b => a.now ≤ b.now)
    (hips : (attempts.map (·.addr.noPort)).toFinset.card ≤ netConnlimitIps)
    (hreal : ∀ a ∈ attempts, a.addr ≠ .zero ∧ 0 < a.now)
    (hlimit : 1 ≤ config.svConnlimit) (hport : OnePort config attempts) :
    RespectsLimit config ((init maxClientsPerIp : CNetServer n).connlimits config attempts).2 := by
  obtain ⟨now, hnow⟩ : ∃ now, ∀ a ∈ attempts, a.now ≤ now := by
    obtain ⟨now, hnow⟩ := (attempts.map (·.now)).toFinset.bddAbove
    exact ⟨now, fun a ha => hnow (by simpa using ⟨a, ha, rfl⟩)⟩
  refine (connlimits_counts maxClientsPerIp hsorted hips (fun a ha => ?_) hreal hlimit hport hnow).2.2
  exact List.mem_toFinset.2 (List.mem_map_of_mem ha)

/-- Another attempt of the same computer. -/
def floodAttempt (port : UInt16) (seconds : ℤ) : Attempt :=
  ⟨⟨nettypeIpv4, Vector.replicate 16 127, port⟩, seconds * timeFreq⟩

/-- The limit, for 20 seconds. -/
def floodConfig (svConnlimit : ℤ) : NetServerConfig := ⟨true, false, [], 10, svConnlimit, 20, 100, 1000⟩

theorem connlimits_respectsLimit_flood : RespectsLimit (floodConfig 1) ((init 4 : CNetServer 1).connlimits
    (floodConfig 1) [floodAttempt 1 1, floodAttempt 1 2, floodAttempt 2 30]).2 :=
  connlimits_respectsLimit 4 (floodConfig 1) [floodAttempt 1 1, floodAttempt 1 2, floodAttempt 2 30]
    (by decide +kernel) (by decide +kernel) (by decide +kernel) (by decide +kernel)
    (by unfold OnePort; decide +kernel)

/-- From six ports, a computer gets more than five connections. -/
theorem not_respectsLimit_ports : ¬ ∀ (config : NetServerConfig) (attempts : List Attempt),
    attempts.Pairwise (fun a b => a.now ≤ b.now) →
    (attempts.map (·.addr.noPort)).toFinset.card ≤ netConnlimitIps →
    (∀ a ∈ attempts, a.addr ≠ .zero ∧ 0 < a.now) → 1 ≤ config.svConnlimit →
    RespectsLimit config ((init 4 : CNetServer 1).connlimits config attempts).2 := by
  intro h
  have hrespects := h (floodConfig 5) [floodAttempt 1 1, floodAttempt 2 1, floodAttempt 3 1, floodAttempt 4 1,
    floodAttempt 5 1, floodAttempt 6 1] (by decide +kernel) (by decide +kernel) (by decide +kernel) (by decide +kernel)
  exact absurd (hrespects.passed_le _ ((List.mem_inits _ _).2 List.prefix_rfl) (floodAttempt 0 1).addr)
    (by decide +kernel)

end CNetServer

end DDNet
