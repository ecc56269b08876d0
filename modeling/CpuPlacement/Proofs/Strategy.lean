import CpuPlacement.Proofs.Layout.ConsistentDescriptors
import CpuPlacement.Proofs.Reservation.Checked
import CpuPlacement.Strategy

/-!
# Strategies follow the entities

Strategies compare the ids in the descriptors, reservations work with the cores and sockets of the
layout. Both tell CPUs apart in the same way (`Layout.IdsFollowSlots`): the ids of descriptors are
what the entities are made from, and the ids of records are the numbers of the entities. The one
strategy that does not look at the socket, `differentCore`, is the exception. Of two sockets it
refuses the cores with one id, unless the layout is made from records, where cores are numbered
through the whole machine.
-/

set_option autoImplicit false

namespace CpuPlacement

namespace Layout

/-! ## Ids and slots -/

/-- The CPUs have the same physical core. -/
def OnOneCore (l : Layout) (a b : Nat) : Prop :=
  ∃ core, l.physicalCore a = .ok core ∧ l.physicalCore b = .ok core

/-- The CPUs belong to the same socket. -/
def OnOneSocket (l : Layout) (a b : Nat) : Prop :=
  ∃ socket, l.socketOf? a = some socket ∧ l.socketOf? b = some socket

/-- Slots and descriptors tell CPUs apart in the same way. -/
structure IdsFollowSlots (l : Layout) : Prop where
  sockets : ∀ {a b : Nat} {s t : Slot} {d e : Descriptor}, l.slots[a]? = some s →
    l.slots[b]? = some t → l.descriptors[a]? = some d → l.descriptors[b]? = some e →
      (s.socket = t.socket ↔ d.socketId = e.socketId)
  cores : ∀ {a b : Nat} {s t : Slot} {d e : Descriptor}, l.slots[a]? = some s →
    l.slots[b]? = some t → l.descriptors[a]? = some d → l.descriptors[b]? = some e →
      (s.core = t.core ↔ d.socketId = e.socketId ∧ d.coreId = e.coreId)

/-- In a layout of descriptors two CPUs have the same ids just if their slots do. -/
theorem idsFollowSlots_of_ofDescriptors {cpus : List Descriptor} {l : Layout}
    (h : ofDescriptors cpus = .ok l) : l.IdsFollowSlots := by
  obtain ⟨-, nodes, groups, hnodes, hgroups, hassemble⟩ := ofDescriptors_eq_ok_iff.mp h
  obtain ⟨-, -, rfl⟩ := Parts.assemble_eq_ok_iff.mp hassemble
  refine ⟨fun hs ht hd he => (slots_agree hnodes hgroups hs ht hd he).1, fun hs ht hd he => ?_⟩
  rw [← Prod.mk.injEq]
  exact (slots_agree hnodes hgroups hs ht hd he).2.1

/-- In the flat layout core ids are the numbers of the cores. -/
theorem idsFollowSlots_flat (cpus : Nat) : (flat cpus).IdsFollowSlots := by
  constructor
  all_goals
    intro a b s t d e hs ht hd he
    obtain ⟨i, hi, rfl⟩ := Option.map_eq_some_iff.mp ((List.getElem?_map ..).symm.trans hs)
    obtain ⟨j, hj, rfl⟩ := Option.map_eq_some_iff.mp ((List.getElem?_map ..).symm.trans ht)
    obtain ⟨i', hi', rfl⟩ := Option.map_eq_some_iff.mp ((List.getElem?_map ..).symm.trans hd)
    obtain ⟨j', hj', rfl⟩ := Option.map_eq_some_iff.mp ((List.getElem?_map ..).symm.trans he)
    cases Option.some.inj (hi.symm.trans hi')
    cases Option.some.inj (hj.symm.trans hj')
    simp

end Layout

namespace Record.Accepted

variable {records : List Record} {grouped : Bool} {coverage : Coverage}

/-- The ids in the descriptors of records are the numbers of the entities. -/
theorem ids_eq {cpu : Nat} {slot : Slot} {d : Descriptor}
    (hslot : (parts grouped records coverage).slots[cpu]? = some slot)
    (hd : (parts grouped records coverage).descriptors[cpu]? = some d) :
    d.socketId = slot.socket ∧ d.coreId = slot.core := by
  rw [getElem?_descriptors hslot] at hd
  cases hd
  exact ⟨rfl, rfl⟩

/-- In a layout of records the ids of a CPU are the numbers of what it lies in. -/
theorem idsFollowSlots (h : Accepted records grouped coverage)
    (hfits : (parts grouped records coverage).layout.misplacement? = none) :
    (parts grouped records coverage).layout.IdsFollowSlots := by
  obtain ⟨socketOf, hsocketOf⟩ := h.tiled.exists_socketOf hfits
  constructor
  case sockets =>
    intro a b s t d e hs ht hd he
    rw [(ids_eq hs hd).1, (ids_eq ht he).1]
  case cores =>
    intro a b s t d e hs ht hd he
    obtain ⟨hsocket, hcore⟩ := ids_eq hs hd
    obtain ⟨hsocket', hcore'⟩ := ids_eq ht he
    rw [hsocket, hcore, hsocket', hcore', hsocketOf s (List.mem_of_getElem? hs),
      hsocketOf t (List.mem_of_getElem? ht)]
    exact ⟨fun hsame => ⟨congrArg socketOf hsame, hsame⟩, fun hsame => hsame.2⟩

end Record.Accepted

namespace Layout

/-- Ids and slots agree in any layout that there is. -/
theorem Constructed.idsFollowSlots {l : Layout} (h : l.Constructed) : l.IdsFollowSlots := by
  cases h with
  | descriptors h => exact idsFollowSlots_of_ofDescriptors h
  | records h =>
    obtain ⟨grouped, coverage, haccepted, hassemble⟩ := Record.exists_accepted_of_ofRecords h
    obtain ⟨-, hfits, rfl⟩ := Parts.assemble_eq_ok_iff.mp hassemble
    exact haccepted.idsFollowSlots hfits
  | description h =>
    obtain ⟨cpus, hcpus⟩ := exists_descriptors_of_ofDescription h
    exact idsFollowSlots_of_ofDescriptors hcpus
  | flat cpus => exact idsFollowSlots_flat cpus

/-! ## Entities and slots -/

section Entities

variable {l : Layout} {a b : Nat} {s t : Slot} (hs : l.slots[a]? = some s)
  (ht : l.slots[b]? = some t)

include hs ht

/-- CPUs are on one core if their slots name the same one. -/
theorem onOneCore_iff : l.OnOneCore a b ↔ s.core = t.core := by
  simp only [OnOneCore, physicalCore_eq_ok_iff, hs, ht, Option.some.injEq, exists_eq_left']
  exact eq_comm

/-- CPUs are on one socket if their slots name the same one. -/
theorem Constructed.onOneSocket_iff (h : l.Constructed) :
    l.OnOneSocket a b ↔ s.socket = t.socket := by
  obtain ⟨p, htiled, -, rfl⟩ := h.exists_parts
  obtain ⟨socket, hsocket⟩ := htiled.exists_socket hs
  obtain ⟨socket', hsocket'⟩ := htiled.exists_socket ht
  rw [OnOneSocket, Parts.socketOf?_of hs hsocket, Parts.socketOf?_of ht hsocket']
  constructor
  · rintro ⟨e, he, he'⟩
    exact congrArg Entity.id (Option.some.inj (he.trans he'.symm))
  · intro hsame
    obtain rfl : socket = socket' :=
      Option.some.inj (hsocket.symm.trans (hsame ▸ hsocket'))
    exact ⟨_, rfl, by rw [hsame]⟩

end Entities

/-! ## What strategies accept -/

/-- What the ids of two CPUs say about their entities. -/
structure Places (l : Layout) (a b : Nat) : Prop where
  sockets : l.sameSocketId a b = true ↔ l.OnOneSocket a b
  cores : (l.sameSocketId a b && l.sameCoreId a b) = true ↔ l.OnOneCore a b

/-- Every two CPUs of a layout have their places in it. -/
theorem Constructed.places {l : Layout} (h : l.Constructed) {a b : Nat} (ha : a < l.cpus)
    (hb : b < l.cpus) : l.Places a b := by
  obtain ⟨s, hs⟩ : ∃ s, l.slots[a]? = some s :=
    ⟨_, List.getElem?_eq_getElem (h.length_slots.symm ▸ ha)⟩
  obtain ⟨t, ht⟩ : ∃ t, l.slots[b]? = some t :=
    ⟨_, List.getElem?_eq_getElem (h.length_slots.symm ▸ hb)⟩
  obtain ⟨d, hd⟩ := exists_descriptor_iff.mpr ha
  obtain ⟨e, he⟩ := exists_descriptor_iff.mpr hb
  rw [descriptor_eq_ok_iff] at hd he
  constructor
  · rw [h.onOneSocket_iff hs ht, h.idsFollowSlots.sockets hs ht hd he]
    simp [sameSocketId, hd, he]
  · rw [onOneCore_iff hs ht, h.idsFollowSlots.cores hs ht hd he]
    simp [sameSocketId, sameCoreId, hd, he]

/-- The strategies say of two CPUs what their cores and sockets are to each other. -/
structure StrategiesFollow (l : Layout) (a b : Nat) : Prop where
  /-- Every strategy has an answer. -/
  answers : ∀ s : Strategy, ∃ answer, s.accepts? l a b = .ok answer
  sameCore : Strategy.sameCore.accepts? l a b = .ok true ↔ l.OnOneCore a b
  sameSocket : Strategy.sameSocket.accepts? l a b = .ok true ↔
    l.OnOneSocket a b ∧ ¬ l.OnOneCore a b
  differentSocket : Strategy.differentSocket.accepts? l a b = .ok true ↔ ¬ l.OnOneSocket a b
  /-- These three leave no pair out and do not overlap. -/
  exactlyOne : ∃! s, s ∈ [Strategy.sameCore, .sameSocket, .differentSocket] ∧
    s.accepts? l a b = .ok true
  symmetric : ∀ s : Strategy, s.accepts? l b a = s.accepts? l a b
  not_onOneCore : Strategy.differentCore.accepts? l a b = .ok true → ¬ l.OnOneCore a b
  of_sameSocket : Strategy.sameSocket.accepts? l a b = .ok true →
    Strategy.differentCore.accepts? l a b = .ok true
  differentCore : l.OnOneSocket a b →
    (Strategy.differentCore.accepts? l a b = .ok true ↔ ¬ l.OnOneCore a b)

theorem sameSocketId_comm (l : Layout) (a b : Nat) : l.sameSocketId b a = l.sameSocketId a b :=
  Bool.beq_comm

theorem sameCoreId_comm (l : Layout) (a b : Nat) : l.sameCoreId b a = l.sameCoreId a b :=
  Bool.beq_comm

/-- No strategy tells which of two CPUs came first. -/
theorem accepts_comm (s : Strategy) (l : Layout) (a b : Nat) :
    s.accepts l b a = s.accepts l a b := by
  simp only [Strategy.accepts, sameSocketId_comm l a b, sameCoreId_comm l a b]

/-- Of two CPUs on one core, on two cores of a socket, or on two sockets, only one is so. -/
theorem existsUnique_accepts (l : Layout) (a b : Nat) :
    ∃! s, s ∈ [Strategy.sameCore, .sameSocket, .differentSocket] ∧ s.accepts l a b = true := by
  simp only [Strategy.accepts, ExistsUnique]
  cases l.sameSocketId a b with
  | false => exact ⟨.differentSocket, by simp, by simp⟩
  | true =>
    cases l.sameCoreId a b with
    | false => exact ⟨.sameSocket, by simp, by simp⟩
    | true => exact ⟨.sameCore, by simp, by simp⟩

/-- On every two CPUs of a layout the strategies say what its entities say. -/
theorem Constructed.strategiesFollow {l : Layout} (h : l.Constructed) {a b : Nat}
    (ha : a < l.cpus) (hb : b < l.cpus) : l.StrategiesFollow a b := by
  have hsockets := (h.places ha hb).sockets
  have hcores := (h.places ha hb).cores
  have hok : ∀ s : Strategy, s.accepts? l a b = .ok true ↔ s.accepts l a b = true := by
    intro s
    rw [s.accepts?_eq_ok ha hb, Except.ok.injEq]
  have hdifferentSocket : Strategy.differentSocket.accepts l a b = true ↔ ¬ l.OnOneSocket a b := by
    rw [← hsockets, Strategy.accepts, Bool.not_eq_true', Bool.not_eq_true]
  have hsameSocket : Strategy.sameSocket.accepts l a b = true ↔
      l.OnOneSocket a b ∧ ¬ l.OnOneCore a b := by
    rw [← hsockets, ← hcores]
    simp only [Strategy.accepts]
    cases l.sameSocketId a b <;> simp
  -- cores are compared by their ids, which may come again on another socket: on one socket
  -- they tell the cores apart
  have hdifferentCore : l.OnOneSocket a b →
      (Strategy.differentCore.accepts l a b = true ↔ ¬ l.OnOneCore a b) := by
    intro hsame
    rw [← hcores, hsockets.mpr hsame]
    simp [Strategy.accepts]
  have hnot : Strategy.differentCore.accepts l a b = true → ¬ l.OnOneCore a b := by
    rw [← hcores]
    simp_all [Strategy.accepts]
  simp only [← hok] at hdifferentSocket hsameSocket hdifferentCore hnot
  exact
    { answers := fun s => ⟨_, s.accepts?_eq_ok ha hb⟩
      sameCore := (hok .sameCore).trans hcores
      sameSocket := hsameSocket
      differentSocket := hdifferentSocket
      exactlyOne := by simpa only [hok] using l.existsUnique_accepts a b
      symmetric := fun s => by
        rw [s.accepts?_eq_ok hb ha, s.accepts?_eq_ok ha hb, accepts_comm]
      not_onOneCore := hnot
      of_sameSocket := fun haccepts =>
        have hsame := hsameSocket.mp haccepts
        (hdifferentCore hsame.1).mpr hsame.2
      differentCore := hdifferentCore }

/-- In a layout of records a core has one id in the whole machine. -/
theorem differentCore_iff_of_ofRecords {records : List Record} {l : Layout}
    (h : ofRecords records = .ok l) {a b : Nat} (ha : a < l.cpus) (hb : b < l.cpus) :
    Strategy.differentCore.accepts? l a b = .ok true ↔ ¬ l.OnOneCore a b := by
  rw [Strategy.accepts?_eq_ok _ ha hb, Except.ok.injEq]
  obtain ⟨grouped, coverage, haccepted, hassemble⟩ := Record.exists_accepted_of_ofRecords h
  obtain ⟨-, -, rfl⟩ := Parts.assemble_eq_ok_iff.mp hassemble
  obtain ⟨s, hs⟩ := haccepted.tiled.exists_slot ha
  obtain ⟨t, ht⟩ := haccepted.tiled.exists_slot hb
  have hd := List.getElem?_eq_getElem ha
  have he := List.getElem?_eq_getElem hb
  rw [onOneCore_iff hs ht, ← (Record.Accepted.ids_eq hs hd).2, ← (Record.Accepted.ids_eq ht he).2]
  simp [Strategy.accepts, sameCoreId, hd, he]

/-- To be on one core is to be accepted by the strategy that asks for it. -/
theorem Constructed.equivalence_sameCore {l : Layout} (h : l.Constructed) :
    Equivalence fun a b : Fin l.cpus => Strategy.sameCore.accepts? l a b = .ok true := by
  have hcore : ∀ a b : Fin l.cpus,
      Strategy.sameCore.accepts? l a b = .ok true ↔ l.OnOneCore a b :=
    fun a b => (h.strategiesFollow a.isLt b.isLt).sameCore
  simp only [hcore]
  refine ⟨fun a => ?_, fun hab => ?_, fun hab hbc => ?_⟩
  · obtain ⟨core, -, ha⟩ := h.siblings.exists_core a a.isLt
    exact ⟨core, ha, ha⟩
  · obtain ⟨core, ha, hb⟩ := hab
    exact ⟨core, hb, ha⟩
  · obtain ⟨core, ha, hb⟩ := hab
    obtain ⟨core', hb', hc⟩ := hbc
    cases Except.ok.inj (hb.symm.trans hb')
    exact ⟨core, ha, hc⟩

end Layout

/-- Of any two CPUs of a layout the strategies say what their cores and sockets are to each other:
one core, two cores of one socket, or two sockets. `differentCore` accepts no two CPUs of one core
and all others of one socket; in a layout of records, all others. -/
theorem strategies_follow_entities {l : Layout} (h : l.Constructed) :
    (∀ a b : Fin l.cpus, l.StrategiesFollow a b) ∧
      (Equivalence fun a b : Fin l.cpus => Strategy.sameCore.accepts? l a b = .ok true) ∧
      ∀ records, Layout.ofRecords records = .ok l → ∀ a b : Fin l.cpus,
        Strategy.differentCore.accepts? l a b = .ok true ↔ ¬ l.OnOneCore a b :=
  ⟨fun a b => h.strategiesFollow a.isLt b.isLt, h.equivalence_sameCore,
    fun _ hrecords a b => Layout.differentCore_iff_of_ofRecords hrecords a.isLt b.isLt⟩

/-- Two packages, each in a group of its own and with one core of two CPUs. -/
def Record.twoPackages : List Record :=
  [⟨.core, .group 0 3⟩, ⟨.package, .group 0 3⟩, ⟨.core, .group 1 3⟩, ⟨.package, .group 1 3⟩]

/-- Two packages of two CPUs each, on which every pair is decided. -/
theorem strategies_follow_entities_two_packages :
    ∃ l, Layout.ofRecords Record.twoPackages = .ok l ∧ l.Constructed ∧ l.cpus = 4 ∧
      (∀ a b : Fin l.cpus, l.StrategiesFollow a b) ∧
      (Equivalence fun a b : Fin l.cpus => Strategy.sameCore.accepts? l a b = .ok true) ∧
      ∀ a b : Fin l.cpus,
        Strategy.differentCore.accepts? l a b = .ok true ↔ ¬ l.OnOneCore a b := by
  have hcpus : (Layout.ofRecords Record.twoPackages).toOption.map Layout.cpus = some 4 := by cbv
  cases hl : Layout.ofRecords Record.twoPackages with
  | error cause => simp [hl, Except.toOption] at hcpus
  | ok l =>
    obtain ⟨hfollow, hequivalence, hrecords⟩ := strategies_follow_entities (.records hl)
    refine ⟨l, rfl, .records hl, ?_, hfollow, hequivalence, hrecords _ hl⟩
    simpa [hl, Except.toOption] using hcpus

/-- Of two sockets the cores with one id are refused as if they were one core. -/
example : ((Layout.ofDescription "2/2/1").toOption.bind fun l =>
    (Strategy.differentCore.accepts? l 0 2).toOption) = some false := by
  cbv

end CpuPlacement
