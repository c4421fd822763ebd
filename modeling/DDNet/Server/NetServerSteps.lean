/-
What the operations of the server do to its slots.

Apart from a client that is accepted and from a hand-over, an operation does to a slot a few things of which it depends
on the slot alone what they do (`SlotStep`).
-/
import Mathlib.Logic.Relation
import DDNet.Server.NetServerSlots
import DDNet.Shared.ConnectionSteps

namespace DDNet

open Lib CNetPacketConstruct CNetBase

/-! ### One slot -/

/-- What an operation does to a slot. -/
inductive CSlot.SlotStep (slot : CSlot) : CSlot → Prop
  | rejoin : SlotStep slot slot.resetRejoin
  /-- A packet comes from the peer. -/
  | feed (config : NetServerConfig) (packet : CNetPacketConstruct) (securityToken responseToken : SecurityToken)
      (now : ℤ) (hlive : slot.isLive = true) :
      SlotStep slot (slot.feed config packet slot.connection.peerAddr securityToken responseToken now).1
  | fetchChunk (unpacker : CNetRecvUnpacker) :
      SlotStep slot { slot with connection := (unpacker.fetchChunk slot.connection).2.1 }
  | update (config : NetServerConfig) (errorString : List UInt8) (now : ℤ) :
      SlotStep slot (slot.update config errorString now)
  | disconnect (reason : Option (List UInt8)) (now : ℤ) : SlotStep slot (slot.disconnect reason now)
  | queueChunk (flags : ℕ) (data : List UInt8) (now : ℤ) :
      SlotStep slot { slot with connection := (slot.connection.queueChunk flags data now).1 }
  | flush (now : ℤ) : SlotStep slot { slot with connection := (slot.connection.flush now).1 }
  | protect : SlotStep slot { slot with timeoutProtected := true }

/-- Such things happen to a slot, one after the other. -/
def CSlot.Evolves : CSlot → CSlot → Prop := Relation.ReflTransGen CSlot.SlotStep

lemma CSlot.Evolves.refl (slot : CSlot) : slot.Evolves slot := Relation.ReflTransGen.refl

lemma CSlot.Evolves.trans {slot slot' slot'' : CSlot} (h : slot.Evolves slot') (h' : slot'.Evolves slot'') :
    slot.Evolves slot'' := Relation.ReflTransGen.trans h h'

lemma CSlot.SlotStep.evolves {slot slot' : CSlot} (h : slot.SlotStep slot') : slot.Evolves slot' :=
  Relation.ReflTransGen.single h

/-- What holds of a slot is kept if every such thing keeps it. -/
lemma CSlot.Evolves.keeps {p : CSlot → Prop} (hp : ∀ slot slot' : CSlot, slot.SlotStep slot' → p slot → p slot')
    {slot slot' : CSlot} (h : slot.Evolves slot') (hslot : p slot) : p slot' := by
  induction h with
  | refl => exact hslot
  | tail _ hstep ih => exact hp _ _ hstep ih

/-! ### All slots -/

namespace CNetServer

variable {n : ℕ} {server server' server'' : CNetServer n}

/-- The slots evolve. -/
structure SlotsEvolve (server server' : CNetServer n) : Prop where
  slots : ∀ i, (server.slots i).Evolves (server'.slots i)
  max : server'.maxClientsPerIp = server.maxClientsPerIp

/-- A client is accepted in a free slot, and its IP does not have too many of them. -/
structure Accepted (server server' : CNetServer n) (addr : NETADDR) : Prop where
  slot : ∃ i securityToken vanillaAuth sixup token now, (server.slots i).connection.state = .offline ∧
    server'.slots = Function.update server.slots i
      (acceptSlot (server.slots i) addr securityToken token vanillaAuth sixup now)
  room : (server.numClientsWithAddr addr : ℤ) + 1 ≤ server.maxClientsPerIp
  max : server'.maxClientsPerIp = server.maxClientsPerIp

/-- What a datagram does. -/
def DatagramStep (server server' : CNetServer n) : Prop :=
  server.SlotsEvolve server' ∨ ∃ addr, server.Accepted server' addr

lemma SlotsEvolve.of_eq (hslots : server'.slots = server.slots)
    (hmax : server'.maxClientsPerIp = server.maxClientsPerIp) : server.SlotsEvolve server' :=
  ⟨fun i => by rw [hslots]; exact .refl _, hmax⟩

lemma SlotsEvolve.trans (h : server.SlotsEvolve server') (h' : server'.SlotsEvolve server'') :
    server.SlotsEvolve server'' :=
  ⟨fun i => (h.slots i).trans (h'.slots i), h'.max.trans h.max⟩

lemma SlotsEvolve.setSlot {i : Fin n} {slot : CSlot} (h : (server.slots i).Evolves slot) :
    server.SlotsEvolve (server.setSlot i slot) := by
  refine ⟨fun j => ?_, rfl⟩
  by_cases hji : j = i
  · subst hji
    rw [setSlot_self]
    exact h
  · rw [setSlot_of_ne server hji]
    exact .refl _

/-- Only the slots matter, and how many of them an IP may have. -/
lemma DatagramStep.congr (h : server''.DatagramStep server') (hslots : server''.slots = server.slots)
    (hmax : server''.maxClientsPerIp = server.maxClientsPerIp) : server.DatagramStep server' := by
  obtain h | ⟨addr, h⟩ := h
  · exact .inl ((SlotsEvolve.of_eq hslots hmax).trans h)
  · refine .inr ⟨addr, ?_, ?_, h.max.trans hmax⟩
    · rw [← hslots]
      exact h.slot
    · rw [← hmax]
      simpa only [numClientsWithAddr, hslots] using h.room

end CNetServer

end DDNet
