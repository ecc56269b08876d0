import CpuPlacement.Proofs.Layout.Described
import CpuPlacement.Proofs.Layout.Hierarchy
import CpuPlacement.Proofs.Layout.LastCpu
import CpuPlacement.Proofs.Layout.Renumbering
import Mathlib

/-!
# Layouts rebuilt from their descriptors

The descriptors of a recorded machine name the entities that the records gave it. A layout built
from these descriptors alone has the same entities with the same numbers, because both constructions
number the entities of a kind by their last CPUs (`Parts.Settled`). Masks become bit-sets of the CPU
numbers; caches are not in descriptors and are lost.

The masks of a grouped machine have to lie inside their groups. They do where no record gives a
group a mask of its own.
-/

set_option autoImplicit false

namespace CpuPlacement

/-- The layouts have the same entities but for caches, in the same order and with the same CPUs,
though the first may list them by group. -/
structure Layout.SameHierarchy (l m : Layout) : Prop where
  cpus : m.cpus = l.cpus
  socketCount : m.socketCount = l.socketCount
  coresPerSocket : m.coresPerSocket = l.coresPerSocket
  threadsPerCore : m.threadsPerCore = l.threadsPerCore
  physicalCore : ∀ cpu, m.physicalCore cpu = l.physicalCore cpu
  entityForCpu : ∀ kind, kind ≠ .cache → ∀ cpu,
    (m.entityForCpu? kind cpu).map (·.id) = (l.entityForCpu? kind cpu).map (·.id)
  entities : ∀ kind, kind ≠ .cache →
    (m.entitiesOf kind).map (fun e => (e.id, e.role, e.mask.indices)) =
      (l.entitiesOf kind).map fun e => (e.id, e.role, l.cpusOf e.mask)

namespace Parts

variable {p q : Parts}

/-! ## One kind -/

/-- A kind divides the CPUs, and its masks are in the order of their last CPUs. -/
structure Settled (p : Parts) (owner? : Slot → Option Nat) (masks : List Mask) : Prop
    extends p.Divides owner? masks where
  ordered : masks.Pairwise p.EndsBefore

/-- There is nothing of the kind, or it is settled. -/
def SettledIfAny (p : Parts) (owner? : Slot → Option Nat) (masks : List Mask) : Prop :=
  (masks = [] ∧ ∀ slot ∈ p.slots, owner? slot = none) ∨ p.Settled owner? masks

namespace Settled

variable {owner? : Slot → Option Nat} {masks : List Mask} {keys : List Nat}

/-- A mask has the CPUs whose key is its id. -/
theorem mem_cpusOf_iff_key (h : p.Settled owner? masks) (hkeys : p.slots.map owner? = keys.map some)
    {id : Nat} {mask : Mask} (hmask : masks[id]? = some mask) (cpu : Nat) :
    cpu ∈ p.layout.cpusOf mask ↔ keys[cpu]? = some id := by
  rw [h.mem_cpusOf_iff hmask, ownerOf?_of_map hkeys]

/-- The numbers in the slots number themselves. -/
theorem classes_eq (h : p.Settled owner? masks) (hkeys : p.slots.map owner? = keys.map some) :
    Numbering.classes keys = List.range masks.length := by
  refine Numbering.classes_eq_range (fun id => ⟨fun hid => ?_, fun hid => ?_⟩)
    fun a b hab hb => ?_
  · have hslot : some id ∈ p.slots.map owner? := by
      rw [hkeys]
      exact List.mem_map_of_mem hid
    obtain ⟨slot, hslot, howner⟩ := List.mem_map.mp hslot
    obtain ⟨other, mask, hother, hmask⟩ := h.covers slot hslot
    cases Option.some.inj (howner.symm.trans hother)
    exact (List.getElem?_eq_some_iff.mp hmask).1
  · have hmask := List.getElem?_eq_getElem hid
    obtain ⟨cpu, hcpu⟩ := List.exists_mem_of_ne_nil _ (h.inhabited _ (List.getElem_mem hid))
    exact List.mem_of_getElem? ((h.mem_cpusOf_iff_key hkeys hmask cpu).mp hcpu)
  · have ha : a < masks.length := Nat.lt_trans hab hb
    obtain ⟨last, hlast, hbelow⟩ := List.pairwise_iff_getElem.mp h.ordered a b ha hb hab
    refine ⟨last, (h.mem_cpusOf_iff_key hkeys (List.getElem?_eq_getElem hb) last).mp hlast,
      fun cpu hcpu => hbelow cpu ?_⟩
    exact (h.mem_cpusOf_iff_key hkeys (List.getElem?_eq_getElem ha) cpu).mpr hcpu

theorem numbers_eq (h : p.Settled owner? masks) (hkeys : p.slots.map owner? = keys.map some) :
    Numbering.numbers keys = keys :=
  Numbering.numbers_eq_self (h.classes_eq hkeys)

/-- The masks made of the numbers in the slots are those of the kind, as CPU numbers. -/
theorem masks_eq (h : p.Settled owner? masks) (hkeys : p.slots.map owner? = keys.map some) :
    (Numbering.masks keys).map (·.indices) = masks.map p.layout.cpusOf := by
  refine List.ext_getElem? fun id => ?_
  rw [List.getElem?_map, List.getElem?_map, Numbering.masks, List.getElem?_map, h.classes_eq hkeys]
  by_cases hid : id < masks.length
  · rw [List.getElem?_range hid, List.getElem?_eq_getElem hid]
    refine congrArg some ((Mask.pairwise_indices _).eq_of_mem_iff
      (Layout.pairwise_cpusOf _ _) fun cpu => ?_)
    rw [Mask.mem_indices, Numbering.test_mask]
    exact (h.mem_cpusOf_iff_key hkeys (List.getElem?_eq_getElem hid) cpu).symm
  · simp [hid]

end Settled

/-- Where there is nothing of the kind, no slot names anything. -/
theorem SettledIfAny.owner_eq_none {owner? : Slot → Option Nat} {masks : List Mask}
    (h : p.SettledIfAny owner? masks) (hnil : masks = []) :
    ∀ slot ∈ p.slots, owner? slot = none := by
  rcases h with ⟨-, hnone⟩ | hsettled
  · exact hnone
  · intro slot hslot
    obtain ⟨_, _, -, hmask⟩ := hsettled.covers slot hslot
    simp [hnil] at hmask

/-- What descriptors report of a kind that there may be nothing of. -/
theorem SettledIfAny.exists_keys {owner? : Slot → Option Nat} {masks : List Mask}
    (h : p.SettledIfAny owner? masks) {attribute? : Descriptor → Option Nat} (kind : RecordKind)
    (hnames : p.descriptors.map attribute? = p.slots.map owner?) (hsome : p.descriptors ≠ []) :
    ∃ keys, Layout.uniform? attribute? kind p.descriptors = .ok keys ∧
      Layout.optionalNumbers p.descriptors.length keys = p.slots.map owner? ∧
      (Layout.optionalMasks keys).map (·.indices) = masks.map p.layout.cpusOf := by
  rcases h with ⟨rfl, hnone⟩ | hsettled
  · have hunnamed : p.slots.map owner? = List.replicate p.descriptors.length none := by
      rw [← List.length_map attribute?, hnames, List.length_map]
      refine List.eq_replicate_iff.mpr ⟨List.length_map _, fun owner howner => ?_⟩
      obtain ⟨slot, hslot, rfl⟩ := List.mem_map.mp howner
      exact hnone slot hslot
    refine ⟨none, Layout.uniform?_of_none kind fun reported hmem => ?_, hunnamed.symm, rfl⟩
    rw [hnames, hunnamed] at hmem
    exact List.eq_of_mem_replicate hmem
  · have hkeys : p.slots.map owner? = (p.slots.map fun slot => (owner? slot).getD 0).map some := by
      rw [List.map_map]
      refine List.map_congr_left fun slot hslot => ?_
      obtain ⟨id, -, hid, -⟩ := hsettled.covers slot hslot
      simp [hid]
    refine ⟨some _, Layout.uniform?_of_some kind hsome (hnames.trans hkeys), ?_,
      hsettled.masks_eq hkeys⟩
    rw [Layout.optionalNumbers, hsettled.numbers_eq hkeys, hkeys]

/-! ## All kinds -/

/-- The descriptors of the CPUs name the entities in their slots. -/
structure NamesSlots (p : Parts) : Prop where
  sockets : p.descriptors.map (·.socketId) = p.slots.map (·.socket)
  cores : p.descriptors.map (·.coreId) = p.slots.map (·.core)
  nodes : p.descriptors.map (·.nodeId) = p.slots.map (·.node)
  groups : p.descriptors.map (·.groupId) = p.slots.map (·.group)

/-- The second parts have the same CPUs in the same entities, which are listed by CPU number. -/
structure Rebuilds (p q : Parts) : Prop where
  descriptors : q.descriptors = p.descriptors
  slots : q.slots = p.slots
  groups : q.groupMasks.map (·.indices) = p.groupMasks.map p.layout.cpusOf
  nodes : q.nodeMasks.map (·.indices) = p.nodeMasks.map p.layout.cpusOf
  sockets : q.socketMasks.map (·.indices) = p.socketMasks.map p.layout.cpusOf
  cores : q.coreMasks.map (·.indices) = p.coreMasks.map p.layout.cpusOf

/-- The parts that are made of the descriptors alone. -/
theorem Tiled.exists_rebuilds (tiled : p.Tiled) (hfits : p.layout.misplacement? = none)
    (hnames : p.NamesSlots) (hsome : p.descriptors ≠ [])
    (hgroups : p.SettledIfAny (·.group) p.groupMasks)
    (hnodes : p.SettledIfAny (·.node) p.nodeMasks)
    (hsockets : p.Settled (some ·.socket) p.socketMasks)
    (hcores : p.Settled (some ·.core) p.coreMasks) :
    ∃ nodes groups, Layout.uniform? (·.nodeId) .node p.descriptors = .ok nodes ∧
      Layout.uniform? (·.groupId) .group p.descriptors = .ok groups ∧
      p.Rebuilds (Layout.partsOfDescriptors p.descriptors nodes groups) := by
  obtain ⟨nodes, huniformNodes, hnodeNumbers, hnodeMasks⟩ :=
    hnodes.exists_keys .node hnames.nodes hsome
  obtain ⟨groups, huniformGroups, hgroupNumbers, hgroupMasks⟩ :=
    hgroups.exists_keys .group hnames.groups hsome
  have hsocketKeys : p.slots.map (some ·.socket) = (p.slots.map (·.socket)).map some :=
    (List.map_map ..).symm
  have hcoreKeys : p.slots.map (some ·.core) = (p.slots.map (·.core)).map some :=
    (List.map_map ..).symm
  -- the pair of socket and core is another name of the core
  obtain ⟨socketOf, hsocketOf⟩ := tiled.exists_socketOf hfits
  have hinjective : Function.Injective fun core => (socketOf core, core) :=
    fun _ _ hsame => congrArg Prod.snd hsame
  have hpairs : p.descriptors.map (fun d => (d.socketId, d.coreId)) =
      (p.slots.map (·.core)).map fun core => (socketOf core, core) := by
    rw [← List.zip_map', hnames.sockets, hnames.cores, List.zip_map', List.map_map]
    exact List.map_congr_left fun slot hslot => congrArg (·, slot.core) (hsocketOf slot hslot)
  have hsocketNumbers : Numbering.numbers (p.slots.map (·.socket)) = p.slots.map (·.socket) :=
    hsockets.numbers_eq hsocketKeys
  have hcoreNumbers : Numbering.numbers (p.descriptors.map fun d => (d.socketId, d.coreId)) =
      p.slots.map (·.core) := by
    rw [hpairs, Numbering.numbers_map hinjective, hcores.numbers_eq hcoreKeys]
  refine ⟨nodes, groups, huniformNodes, huniformGroups, rfl, ?_, hgroupMasks, hnodeMasks, ?_, ?_⟩
  · simp only [Layout.partsOfDescriptors, hnames.sockets, hsocketNumbers, hcoreNumbers,
      hnodeNumbers, hgroupNumbers, List.zip_map', List.map_map]
    exact List.map_id' p.slots
  · simp only [Layout.partsOfDescriptors, hnames.sockets]
    exact hsockets.masks_eq hsocketKeys
  · simp only [Layout.partsOfDescriptors, hpairs, Numbering.masks_map hinjective]
    exact hcores.masks_eq hcoreKeys

namespace Rebuilds

theorem length_masks {inners outers : List Mask}
    (h : inners.map (·.indices) = outers.map p.layout.cpusOf) : inners.length = outers.length := by
  simpa using congrArg List.length h

theorem fillsGrid_eq (h : p.Rebuilds q) : q.fillsGrid = p.fillsGrid := by
  simp only [fillsGrid, coresPerSocket, socketCount, threadsPerCore, h.descriptors,
    length_masks h.sockets, length_masks h.cores]

/-- Entities with the same roles are listed alike. -/
theorem entities_eq {masks others : List Mask} {role other : Mask → EntityRole}
    (hmasks : others.map (·.indices) = masks.map p.layout.cpusOf)
    (hroles : ∀ {id : Nat} {a b : Mask}, masks[id]? = some a → others[id]? = some b →
      other b = role a) :
    (number others other).map (fun e => (e.id, e.role, e.mask.indices)) =
      (number masks role).map fun e => (e.id, e.role, p.layout.cpusOf e.mask) := by
  refine List.ext_getElem? fun id => ?_
  have hindices : (others.map (·.indices))[id]? = (masks.map p.layout.cpusOf)[id]? := by rw [hmasks]
  rw [List.getElem?_map, List.getElem?_map] at hindices
  rw [List.getElem?_map, List.getElem?_map, getElem?_number, getElem?_number]
  cases ha : masks[id]? with
  | none =>
    rw [ha, Option.map_none, Option.map_eq_none_iff] at hindices
    rw [hindices]
    rfl
  | some a =>
    rw [ha, Option.map_some, Option.map_eq_some_iff] at hindices
    obtain ⟨b, hb, hsame⟩ := hindices
    simp only [hb, Option.map_some, hroles ha hb, hsame]

/-- Two layouts whose entities of a kind are listed alike know the same ids. -/
theorem map_id_eq {l m : Layout} {kind : EntityKind}
    (h : (m.entitiesOf kind).map (fun e => (e.id, e.role, e.mask.indices)) =
      (l.entitiesOf kind).map fun e => (e.id, e.role, l.cpusOf e.mask)) (id : Nat) :
    ((m.entitiesOf kind)[id]?).map (·.id) = ((l.entitiesOf kind)[id]?).map (·.id) := by
  have hids := congrArg (List.map Prod.fst) h
  rw [List.map_map, List.map_map] at hids
  rw [← List.getElem?_map, ← List.getElem?_map]
  exact congrArg (·[id]?) hids

/-- The sockets of both have the same nodes. -/
theorem socketRole_eq (h : p.Rebuilds q) (tiled : p.Tiled) (hfits : p.layout.misplacement? = none)
    (tiled' : q.Tiled) (hfits' : q.layout.misplacement? = none) {id : Nat} {a b : Mask}
    (ha : p.socketMasks[id]? = some a) (hb : q.socketMasks[id]? = some b) :
    q.socketRole b = p.socketRole a := by
  have hlength := length_masks h.nodes
  by_cases hnodes : p.nodeMasks = []
  · have hnodes' : q.nodeMasks = [] := List.eq_nil_of_length_eq_zero (by simp [hlength, hnodes])
    simp [socketRole, hnodes, hnodes']
  · have hnodes' : q.nodeMasks ≠ [] := by
      intro hnil
      exact hnodes (List.eq_nil_of_length_eq_zero (by simp [← hlength, hnil]))
    obtain ⟨cpu, slot, hslot, hsocket⟩ := tiled.sockets.exists_cpu ha
    obtain ⟨nodeId, _, hrole, -, -, hcpus⟩ := tiled.socket_in_node hfits hnodes ha
    obtain ⟨nodeId', _, hrole', -, -, hcpus'⟩ := tiled'.socket_in_node hfits' hnodes' hb
    have hnode := (hcpus hslot (Option.some.inj hsocket)).1
    have hnode' := (hcpus' (h.slots ▸ hslot) (Option.some.inj hsocket)).1
    rw [hrole, hrole', ← hnode, ← hnode']

/-- The cores of both have the same sockets. -/
theorem coreRole_eq (h : p.Rebuilds q) (tiled : p.Tiled) (hfits : p.layout.misplacement? = none)
    (tiled' : q.Tiled) (hfits' : q.layout.misplacement? = none) {id : Nat} {a b : Mask}
    (ha : p.coreMasks[id]? = some a) (hb : q.coreMasks[id]? = some b) :
    q.coreRole b = p.coreRole a := by
  obtain ⟨cpu, slot, hslot, hcore⟩ := tiled.cores.exists_cpu ha
  obtain ⟨socketId, _, hrole, -, -, hcpus⟩ := tiled.core_in_socket hfits ha
  obtain ⟨socketId', _, hrole', -, -, hcpus'⟩ := tiled'.core_in_socket hfits' hb
  have hsocket := (hcpus hslot (Option.some.inj hcore)).1
  have hsocket' := (hcpus' (h.slots ▸ hslot) (Option.some.inj hcore)).1
  rw [hrole, hrole', ← hsocket, ← hsocket']

/-- The layouts of both have the same hierarchy. -/
theorem sameHierarchy (h : p.Rebuilds q) (tiled : p.Tiled)
    (hfits : p.layout.misplacement? = none) (tiled' : q.Tiled)
    (hfits' : q.layout.misplacement? = none) : p.layout.SameHierarchy q.layout := by
  have hentities : ∀ kind, kind ≠ .cache →
      (q.layout.entitiesOf kind).map (fun e => (e.id, e.role, e.mask.indices)) =
        (p.layout.entitiesOf kind).map fun e => (e.id, e.role, p.layout.cpusOf e.mask) := by
    intro kind hkind
    cases kind with
    | group => exact entities_eq h.groups fun _ _ => rfl
    | node => exact entities_eq h.nodes fun _ _ => rfl
    | socket => exact entities_eq h.sockets (h.socketRole_eq tiled hfits tiled' hfits')
    | core => exact entities_eq h.cores (h.coreRole_eq tiled hfits tiled' hfits')
    | cache => exact absurd rfl hkind
  have hslots : q.layout.slots = p.layout.slots := h.slots
  have hsockets : q.socketMasks.length = p.socketMasks.length := length_masks h.sockets
  have hcores : q.coreMasks.length = p.coreMasks.length := length_masks h.cores
  refine
    { cpus := congrArg List.length h.descriptors
      socketCount := hsockets
      coresPerSocket := by simp only [layout, coresPerSocket, socketCount, hsockets, hcores]
      threadsPerCore := by simp only [layout, threadsPerCore, h.descriptors]
      physicalCore := fun cpu => by simp only [Layout.physicalCore, hslots]
      entityForCpu := fun kind hkind cpu => ?_
      entities := hentities }
  -- an entity of a CPU is found by its id, so equal ids in equal slots are enough
  have hids := map_id_eq (hentities kind hkind)
  cases kind <;> simp only [Layout.entitiesOf] at hids
  case group =>
    simp only [Layout.entityForCpu?, Layout.groupOf?, hslots, Option.map_bind, Function.comp_def,
      hids]
  case node =>
    simp only [Layout.entityForCpu?, Layout.nodeOf?, hslots, Option.map_bind, Function.comp_def,
      hids]
  case socket =>
    simp only [Layout.entityForCpu?, Layout.socketOf?, hslots, Option.map_bind, Function.comp_def,
      hids]
  case core =>
    simp only [Layout.entityForCpu?, Layout.coreOf?, hslots, Option.map_bind, Function.comp_def,
      hids]
  case cache => exact absurd rfl hkind

end Rebuilds

/-- Parts whose kinds are all settled can be rebuilt from the descriptors of the CPUs. -/
theorem Tiled.exists_rebuilt (tiled : p.Tiled) (hfits : p.layout.misplacement? = none)
    (hgrid : p.fillsGrid = true) (hnames : p.NamesSlots) (hsome : p.descriptors ≠ [])
    (hgroups : p.SettledIfAny (·.group) p.groupMasks)
    (hnodes : p.SettledIfAny (·.node) p.nodeMasks)
    (hsockets : p.Settled (some ·.socket) p.socketMasks)
    (hcores : p.Settled (some ·.core) p.coreMasks) :
    ∃ m, Layout.ofDescriptors p.descriptors = .ok m ∧ p.layout.SameHierarchy m := by
  obtain ⟨nodes, groups, huniformNodes, huniformGroups, hrebuilds⟩ :=
    tiled.exists_rebuilds hfits hnames hsome hgroups hnodes hsockets hcores
  let q := Layout.partsOfDescriptors p.descriptors nodes groups
  have tiled' : q.Tiled := Layout.tiled_partsOfDescriptors
    (Layout.keyed_of_uniform? huniformNodes) (Layout.keyed_of_uniform? huniformGroups)
  have hsingles : q.cpuMasks = (List.range q.slots.length).map (Mask.single q.slots.length) :=
    tiled'.slots_length ▸ rfl
  have hbitsets : ∀ mask ∈ q.coreMasks ++ q.socketMasks ++ q.nodeMasks, mask.isGroup = false := by
    intro mask hmask
    rcases List.mem_append.mp hmask with hmask | hmask
    · rcases List.mem_append.mp hmask with hmask | hmask
      · exact Numbering.isGroup_of_mem_masks hmask
      · exact Numbering.isGroup_of_mem_masks hmask
    · exact Layout.isGroup_of_mem_optionalMasks hmask
  obtain ⟨socketOf, hsocketOf⟩ := tiled.exists_socketOf hfits
  -- containment is decided by the slots, which both have in common
  have hfits' : q.layout.misplacement? = none := by
    refine tiled'.misplacement?_eq_none hsingles hbitsets ?_ ?_
    · rw [hrebuilds.slots]
      intro a ha b hb hcore
      rw [hsocketOf a ha, hsocketOf b hb, hcore]
    · rw [hrebuilds.slots]
      exact tiled.node_eq_of_socket_eq hfits hnodes.owner_eq_none
  have hassemble : q.assemble = .ok q.layout :=
    assemble_eq_ok_iff.mpr ⟨hrebuilds.fillsGrid_eq.trans hgrid, hfits', rfl⟩
  exact ⟨q.layout, Layout.ofDescriptors_eq_ok_iff.mpr
    ⟨hsome, nodes, groups, huniformNodes, huniformGroups, hassemble⟩,
    hrebuilds.sameHierarchy tiled hfits tiled' hfits'⟩

end Parts

/-! ## Recorded machines -/

namespace Record

/-- Where no record is about a group, the groups are spans. -/
theorem groupMasks_eq_groupSpans {records : List Record}
    (hnone : ∀ r ∈ records, r.relationship ≠ .group) :
    groupMasks true records = groupSpans records := by
  have hnil : masksOf records .group = [] := by
    refine List.eq_nil_iff_forall_not_mem.mpr fun mask hmask => ?_
    obtain ⟨r, hr, hrel, -⟩ := exists_record_of_mem_masksOf hmask
    exact hnone r hr hrel
  simp [groupMasks, hnil]

namespace Accepted

open CpuNumbering (ownerAt)

variable {records : List Record} {grouped : Bool} {coverage : Coverage}

theorem namesSlots : (parts grouped records coverage).NamesSlots :=
  ⟨map_descriptors fun _ _ => rfl, map_descriptors fun _ _ => rfl, map_descriptors fun _ _ => rfl,
    map_descriptors fun _ _ => rfl⟩

/-- Records that are accepted describe a CPU at least. -/
theorem descriptors_ne_nil (h : Accepted records grouped coverage) :
    (parts grouped records coverage).descriptors ≠ [] := by
  intro hnil
  refine h.populated ?_
  rw [← length_slots_parts grouped records coverage, h.tiled.slots_length, hnil, List.length_nil]

/-- A kind whose masks lie inside the groups, where there are groups, is settled. -/
theorem settled (h : Accepted records grouped coverage) {owner? : Slot → Option Nat}
    {masks : List Mask} (hdivides : (parts grouped records coverage).Divides owner? masks)
    (hfamily : ∀ mask ∈ masks, mask.isGroup = grouped)
    (hinside : grouped = true → ∀ mask ∈ masks, ∃ span ∈ groupMasks true records,
      mask.subset span = true) :
    (parts grouped records coverage).Settled owner? masks := by
  refine ⟨hdivides, hdivides.pairwise_endsBefore fun a ha b hb hlt hapart => ?_⟩
  cases grouped with
  | false => exact Parts.endsBefore_of_bitsets (hfamily a ha) (hfamily b hb) hlt hapart
  | true =>
    exact h.endsBefore_of_groups (hinside rfl a ha) (hinside rfl b hb) (hdivides.inhabited b hb) hlt
      hapart

/-- Where a kind has no masks, no slot names any. -/
theorem settledIfAny {owner? : Slot → Option Nat} {masks : List Mask} {owners : List (Option Nat)}
    (settles : (numbering grouped records).Settles masks owners)
    (hslots : ∀ cpu, owner? (coverage.slotAt cpu) = ownerAt owners cpu)
    (hsettled : masks ≠ [] → (parts grouped records coverage).Settled owner? masks) :
    (parts grouped records coverage).SettledIfAny owner? masks := by
  by_cases hnil : masks = []
  · exact .inl ⟨hnil, owner_eq_none settles hslots hnil⟩
  · exact .inr (hsettled hnil)

/-- Where no group has a mask of its own, the masks of the records lie inside the groups. -/
theorem exists_group_around (h : Accepted records true coverage)
    (hnone : ∀ r ∈ records, r.relationship ≠ .group) {relationship : Relationship} {mask : Mask}
    (hmask : mask ∈ masksOf records relationship) :
    ∃ span ∈ groupMasks true records, mask.subset span = true := by
  obtain ⟨r, hr, -, rfl⟩ := exists_record_of_mem_masksOf hmask
  rw [groupMasks_eq_groupSpans hnone]
  exact exists_span hr (h.family r hr)

/-- Recorded machines without masks of groups can be rebuilt from their descriptors. -/
theorem exists_rebuilt (h : Accepted records grouped coverage)
    (hfits : (parts grouped records coverage).layout.misplacement? = none)
    (hgrid : (parts grouped records coverage).fillsGrid = true)
    (hnone : grouped = true → ∀ r ∈ records, r.relationship ≠ .group) :
    ∃ m, Layout.ofDescriptors (parts grouped records coverage).descriptors = .ok m ∧
      (parts grouped records coverage).layout.SameHierarchy m := by
  have hkind {relationship : Relationship} {owner? : Slot → Option Nat}
      (hdivides : (parts grouped records coverage).Divides owner? (masksOf records relationship)) :
      (parts grouped records coverage).Settled owner? (masksOf records relationship) := by
    refine h.settled hdivides (fun _ hmask => h.isGroup_masksOf hmask) fun hgrouped mask hmask => ?_
    subst hgrouped
    exact h.exists_group_around (hnone rfl) hmask
  have hgroups : groupMasks grouped records ≠ [] →
      (parts grouped records coverage).Settled (·.group) (groupMasks grouped records) := by
    intro hsome
    refine h.settled (h.divides_groups hsome) (fun mask hmask => ?_) fun hgrouped mask hmask => ?_
    · cases grouped with
      | false => exact h.isGroup_masksOf hmask
      | true => exact h.isGroup_groupMasks hmask
    · subst hgrouped
      exact ⟨mask, hmask, Mask.subset_refl mask⟩
  exact h.tiled.exists_rebuilt hfits hgrid namesSlots h.descriptors_ne_nil
    (settledIfAny (CpuNumbering.assign_settles h.groups) (fun _ => rfl) hgroups)
    (settledIfAny (CpuNumbering.assign_settles h.nodes) (fun _ => rfl)
      fun hsome => hkind (h.divides_nodes hsome))
    (hkind h.divides_sockets) (hkind h.divides_cores)

end Accepted

end Record

/-- A recorded machine with bit-sets, or with groups of which no record gives the mask, has the same
hierarchy when it is rebuilt from the descriptors of its CPUs. -/
theorem rebuilt_from_descriptors {records : List Record} {l : Layout}
    (h : Layout.ofRecords records = .ok l)
    (hform : (∀ r ∈ records, r.mask.isGroup = false) ∨
      ∀ r ∈ records, r.mask.isGroup = true ∧ r.relationship ≠ .group) :
    ∃ m, Layout.ofDescriptors l.descriptors = .ok m ∧ l.SameHierarchy m := by
  obtain ⟨grouped, coverage, haccepted, hassemble⟩ := Record.exists_accepted_of_ofRecords h
  obtain ⟨hgrid, hfits, rfl⟩ := Parts.assemble_eq_ok_iff.mp hassemble
  refine haccepted.exists_rebuilt hfits hgrid ?_
  rintro rfl r hr
  rcases hform with hbitsets | hgroups
  · exact absurd (haccepted.family r hr) (by simp [hbitsets r hr])
  · exact (hgroups r hr).2

/-- Two groups that are nodes and packages of two cores each, the groups recorded by their cores
alone, and the cores of the second group first. -/
theorem rebuilt_from_descriptors_two_groups :
    let records : List Record :=
      [⟨.core, .group 1 1⟩, ⟨.core, .group 1 2⟩, ⟨.core, .group 0 2⟩, ⟨.core, .group 0 1⟩,
        ⟨.package, .group 1 3⟩, ⟨.package, .group 0 3⟩, ⟨.node, .group 0 3⟩, ⟨.node, .group 1 3⟩]
    ∃ l, Layout.ofRecords records = .ok l ∧
      ∃ m, Layout.ofDescriptors l.descriptors = .ok m ∧ l.SameHierarchy m := by
  intro records
  obtain ⟨l, hl, -⟩ : ∃ l, Layout.ofRecords records = .ok l ∧ decide (l.cpus = 4) = true :=
    exists_ok_of_any (by cbv)
  have hgroups : ∀ r ∈ records, r.mask.isGroup = true ∧ r.relationship ≠ .group := by decide
  exact ⟨l, hl, rebuilt_from_descriptors hl (.inr hgroups)⟩

end CpuPlacement
