/-
The limit of clients with the same IP (`m_MaxClientsPerIp`).

A slot is taken from the time a client is accepted until it is dropped, also while the client has timed out and may come
back.  `NumClientsWithAddr` counts the taken slots of an IP when a client is accepted; later they only become fewer, and a
hand-over moves one from a slot to another.
-/
import DDNet.Server.Connlimit
import DDNet.Server.NetServerSteps
import Mathlib

namespace DDNet

open Lib CNetPacketConstruct CNetBase

/-! ### Slots that are taken -/

namespace CSlot

/-- The slot is not offline, nor in error and waiting to be dropped. -/
def isTaken (slot : CSlot) : Bool :=
  !(slot.connection.state = .offline ||
    slot.connection.state = .error && (!slot.timeoutProtected || !slot.connection.timeoutSituation))

/-- Only a client that is protected can have timed out. -/
def Protects (slot : CSlot) : Prop := slot.connection.timeoutSituation = true → slot.timeoutProtected = true

variable {slot slot' : CSlot}

lemma isTaken_iff : slot.isTaken = true ↔ slot.connection.state ≠ .offline ∧
    (slot.connection.state = .error → slot.timeoutProtected = true ∧ slot.connection.timeoutSituation = true) := by
  rw [isTaken]
  cases slot.timeoutProtected <;> cases slot.connection.timeoutSituation <;> simp

lemma isTaken_of_live (h : slot.isLive = true) : slot.isTaken = true := by
  obtain ⟨hoffline, herror⟩ := isLive_iff.1 h
  exact isTaken_iff.2 ⟨hoffline, fun h => absurd h herror⟩

/-- The slot is protected as before, and it is not taken by another client. -/
structure Stays (slot slot' : CSlot) : Prop where
  protects : slot.Protects → slot'.Protects
  taken : slot.Protects → slot'.isTaken = true →
    slot.isTaken = true ∧ slot'.connection.peerAddr = slot.connection.peerAddr

lemma Stays.of_offline (hstate : slot'.connection.state = .offline)
    (hsituation : slot'.connection.timeoutSituation = false) : slot.Stays slot' :=
  ⟨fun _ htrue => absurd htrue (by rw [hsituation]; exact Bool.false_ne_true),
    fun _ htaken => absurd hstate (isTaken_iff.1 htaken).1⟩

/-- A connection that has the peer and the state of another one. -/
lemma Stays.of_same (hprotected : slot'.timeoutProtected = slot.timeoutProtected)
    (hstate : slot'.connection.state = slot.connection.state)
    (hpeer : slot'.connection.peerAddr = slot.connection.peerAddr)
    (hsituation : slot'.connection.timeoutSituation = true → slot.connection.timeoutSituation = true) :
    slot.Stays slot' := by
  refine ⟨fun h htrue => hprotected.trans (h (hsituation htrue)), fun _ htaken => ⟨?_, hpeer⟩⟩
  obtain ⟨hoffline, herror⟩ := isTaken_iff.1 htaken
  rw [hstate] at hoffline herror
  refine isTaken_iff.2 ⟨hoffline, fun h => ?_⟩
  obtain ⟨hp, hs⟩ := herror h
  exact ⟨hprotected ▸ hp, hsituation hs⟩

lemma Stays.of_connection {conn : CNetConnection NETADDR} (h : slot.connection.Same conn) :
    slot.Stays { slot with connection := conn } := .of_same rfl h.state h.peerAddr h.situation

/-- A slot that is disconnected is free. -/
lemma disconnect_stays (h : slot'.connection.state ≠ .offline) (reason : Option (List UInt8)) (now : ℤ) :
    slot.Stays (slot'.disconnect reason now) := by
  rw [disconnect, if_neg h]
  split_ifs <;> exact .of_offline rfl rfl

lemma update_stays (config : NetServerConfig) (slot : CSlot) (errorString : List UInt8) (now : ℤ) :
    slot.Stays (slot.update config errorString now) := by
  rw [update]
  dsimp only
  split_ifs with hdrop
  · rw [Bool.and_eq_true, decide_eq_true_iff] at hdrop
    exact disconnect_stays (by rw [hdrop.1]; exact NetConnState.noConfusion) _ _
  by_cases hclosed : slot.connection.state = .offline ∨ slot.connection.state = .error
  · obtain ⟨hcalm, hstate, hpeer⟩ := CNetConnection.update_of_closed hclosed config.netEnv now
    exact .of_same rfl hstate hpeer hcalm.situation
  · obtain ⟨hoffline, herror⟩ := not_or.1 hclosed
    have hupdated := CNetConnection.update_updated hoffline herror config.netEnv now
    have hkeeps := CNetConnection.update_keepsPeer slot.connection config.netEnv now
    refine ⟨fun _ htrue => ?_, fun _ _ => ⟨isTaken_of_live (isLive_iff.2 ⟨hoffline, herror⟩), hkeeps.1⟩⟩
    -- a client that has timed out is protected, since it has not been dropped
    have hstate := hupdated.situation htrue
    simpa [hstate, show (slot.connection.update config.netEnv now).timeoutSituation = true from htrue] using hdrop

lemma SlotStep.stays (h : slot.SlotStep slot') : slot.Stays slot' := by
  cases h with
  | rejoin => exact .of_same rfl rfl rfl id
  | feed config packet securityToken responseToken now hlive =>
    have hpeer := CNetConnection.feed_peerAddr (rfl : slot.connection.peerAddr = _) config.netEnv packet securityToken
      responseToken now
    have hcalm := CNetConnection.feed_calm config.netEnv slot.connection packet slot.connection.peerAddr securityToken
      responseToken now
    exact ⟨fun hprotects htrue => hprotects (hcalm.situation htrue), fun _ _ => ⟨isTaken_of_live hlive, hpeer⟩⟩
  | fetchChunk unpacker => exact .of_connection (CNetConnection.fetchChunk_same unpacker slot.connection)
  | update config errorString now => exact update_stays config slot errorString now
  | disconnect reason now =>
    by_cases hoffline : slot.connection.state = .offline
    · rw [CSlot.disconnect, if_pos hoffline]
      exact .of_same rfl rfl rfl id
    · exact disconnect_stays hoffline reason now
  | queueChunk flags data now => exact .of_connection (CNetConnection.queueChunk_same slot.connection flags data now)
  | flush now => exact .of_connection (CNetConnection.flush_same slot.connection now)
  | protect =>
    refine ⟨fun _ _ => rfl, fun hprotects htaken => ⟨?_, rfl⟩⟩
    obtain ⟨hoffline, herror⟩ := isTaken_iff.1 htaken
    exact isTaken_iff.2 ⟨hoffline, fun h => ⟨hprotects (herror h).2, (herror h).2⟩⟩

end CSlot

namespace CNetServer

variable {n : ℕ} {server server' : CNetServer n}

/-! ### Slots of an IP -/

end CNetServer

end DDNet
