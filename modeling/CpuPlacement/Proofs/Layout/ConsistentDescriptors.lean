import CpuPlacement.Proofs.Layout.Described
import CpuPlacement.Proofs.Layout.Hierarchy
import CpuPlacement.Proofs.Layout.Renumbering

/-!
# Which descriptions of CPUs are consistent

A list of descriptors makes a layout if there are CPUs, nodes and groups are reported by all of them
or by none, the CPUs are as many as the distinct ids say, and no socket has CPUs of two nodes
(`Descriptor.Consistent`). Otherwise the first of these conditions that fails is the error
(`Descriptor.Refused`). Of the two ways in which entities can stick out of each other only one is
left: a core cannot stick out of its socket, because cores are told apart by socket ids too.
-/

set_option autoImplicit false

namespace CpuPlacement

/-- A mask that does not lie inside another has a position outside it. -/
theorem Mask.exists_outside {a b : Mask} (hspace : a.sameSpace b = true)
    (hout : a.subset b = false) : ∃ cpu, a.test cpu = true ∧ b.test cpu = false := by
  by_contra hnone
  have hsub : a.subset b = true := by
    refine (Mask.subset_iff hspace).mpr fun cpu hcpu => ?_
    by_contra houtside
    exact hnone ⟨cpu, hcpu, Bool.eq_false_iff.mpr houtside⟩
  simp [hout] at hsub

namespace Descriptor

/-! ## Consistent lists -/

/-- An attribute that no CPU reports, or every CPU does. -/
def AllOrNone (attribute? : Descriptor → Option Nat) (cpus : List Descriptor) : Prop :=
  (∀ d ∈ cpus, attribute? d = none) ∨ ∀ d ∈ cpus, (attribute? d).isSome = true

/-- The distinct socket ids. -/
def distinctSockets (cpus : List Descriptor) : Nat :=
  (cpus.map (·.socketId)).toFinset.card

/-- The distinct core ids, each with its socket id. -/
def distinctCores (cpus : List Descriptor) : Nat :=
  (cpus.map fun d => (d.socketId, d.coreId)).toFinset.card

/-- The distinct thread ids, on whichever cores. -/
def distinctThreads (cpus : List Descriptor) : Nat :=
  (cpus.map (·.threadId)).toFinset.card

/-- The CPUs fill a grid, if all sockets have as many cores as they have on average. -/
def FillsGrid (cpus : List Descriptor) : Prop :=
  cpus.length =
    distinctSockets cpus * (distinctCores cpus / distinctSockets cpus) * distinctThreads cpus

/-- CPUs of one socket report one node, if they report any. -/
def SocketsInNodes (cpus : List Descriptor) : Prop :=
  ∀ a ∈ cpus, ∀ b ∈ cpus, a.socketId = b.socketId → a.nodeId = b.nodeId

/-- The descriptors describe a machine. -/
structure Consistent (cpus : List Descriptor) : Prop where
  nonempty : cpus ≠ []
  nodes : AllOrNone (·.nodeId) cpus
  groups : AllOrNone (·.groupId) cpus
  fillsGrid : FillsGrid cpus
  socketsInNodes : SocketsInNodes cpus

/-! ## Why a list is refused -/

/-- The first CPU that does not report what another one does. -/
structure FirstWithout (attribute? : Descriptor → Option Nat) (cpus : List Descriptor) (cpu : Nat) :
    Prop where
  reported : ∃ d ∈ cpus, (attribute? d).isSome = true
  missing : ∃ d, cpus[cpu]? = some d ∧ attribute? d = none
  first : ∀ {other : Nat} {d : Descriptor}, other < cpu → cpus[other]? = some d →
    (attribute? d).isSome = true

/-- A socket with CPUs of several nodes, and the one of these nodes that it names. -/
structure Spans (cpus : List Descriptor) (socket node : Entity) : Prop where
  socket_kind : socket.kind = .socket
  node_kind : node.kind = .node
  named : socket.node? = some node.id
  socket_cpus : ∃ id, ∀ cpu, socket.mask.test cpu = true ↔
    ∃ d, cpus[cpu]? = some d ∧ d.socketId = id
  node_cpus : ∃ id, ∀ cpu, node.mask.test cpu = true ↔
    ∃ d, cpus[cpu]? = some d ∧ d.nodeId = some id
  inside : ∃ cpu, socket.mask.test cpu = true ∧ node.mask.test cpu = true
  outside : ∃ cpu, socket.mask.test cpu = true ∧ node.mask.test cpu = false

/-- The first condition that a list fails, as an error. -/
inductive Refused : List Descriptor → LayoutError → Prop where
  | empty : Refused [] .empty
  | node {cpus : List Descriptor} {cpu : Nat} (hfirst : FirstWithout (·.nodeId) cpus cpu) :
    Refused cpus (.uncovered cpu .node)
  | group {cpus : List Descriptor} {cpu : Nat} (hnodes : AllOrNone (·.nodeId) cpus)
    (hfirst : FirstWithout (·.groupId) cpus cpu) : Refused cpus (.uncovered cpu .group)
  | counts {cpus : List Descriptor} (hsome : cpus ≠ []) (hnodes : AllOrNone (·.nodeId) cpus)
    (hgroups : AllOrNone (·.groupId) cpus) (hcounts : ¬ FillsGrid cpus) :
    Refused cpus (.inconsistentCounts (distinctSockets cpus)
      (distinctCores cpus / distinctSockets cpus) (distinctThreads cpus) cpus)
  | spans {cpus : List Descriptor} {socket node : Entity} (hsome : cpus ≠ [])
    (hnodes : AllOrNone (·.nodeId) cpus) (hgroups : AllOrNone (·.groupId) cpus)
    (hcounts : FillsGrid cpus) (hspans : Spans cpus socket node) :
    Refused cpus (.misplaced (.notInside socket node))

variable {cpus : List Descriptor}

/-- Where one descriptor lacks what another one has, it is neither all of them nor none. -/
theorem FirstWithout.not_allOrNone {attribute? : Descriptor → Option Nat} {cpu : Nat}
    (h : FirstWithout attribute? cpus cpu) : ¬ AllOrNone attribute? cpus := by
  obtain ⟨d, hd, hsome⟩ := h.reported
  obtain ⟨e, he, hnone⟩ := h.missing
  rintro (hall | hall)
  · simp [hall d hd] at hsome
  · simpa [hnone] using hall e (List.mem_of_getElem? he)

/-- If no socket has CPUs of two nodes, none sticks out of the node of one of them. -/
theorem Spans.not_socketsInNodes {socket node : Entity} (h : Spans cpus socket node) :
    ¬ SocketsInNodes cpus := by
  intro hsockets
  obtain ⟨socketId, hsocket⟩ := h.socket_cpus
  obtain ⟨nodeId, hnode⟩ := h.node_cpus
  obtain ⟨cpu, hcpu, hinside⟩ := h.inside
  obtain ⟨other, hother, houtside⟩ := h.outside
  obtain ⟨d, hd, hdsocket⟩ := (hsocket cpu).mp hcpu
  obtain ⟨e, he, hesocket⟩ := (hsocket other).mp hother
  obtain ⟨_, hd', hdnode⟩ := (hnode cpu).mp hinside
  cases Option.some.inj (hd.symm.trans hd')
  have hsame : e.nodeId = some nodeId := by
    rw [← hdnode]
    exact hsockets e (List.mem_of_getElem? he) d (List.mem_of_getElem? hd)
      (hesocket.trans hdsocket.symm)
  have hin := (hnode other).mpr ⟨e, he, hsame⟩
  simp [houtside] at hin

/-- What is refused is not consistent. -/
theorem Refused.not_consistent {e : LayoutError} (h : Refused cpus e) : ¬ Consistent cpus := by
  intro hconsistent
  cases h with
  | empty => exact hconsistent.nonempty rfl
  | node hfirst => exact hfirst.not_allOrNone hconsistent.nodes
  | group _ hfirst => exact hfirst.not_allOrNone hconsistent.groups
  | counts _ _ _ hcounts => exact hcounts hconsistent.fillsGrid
  | spans _ _ _ _ hspans => exact hspans.not_socketsInNodes hconsistent.socketsInNodes

end Descriptor

namespace Layout

open Descriptor

variable {cpus : List Descriptor}

/-! ## Attributes that are reported in part -/

/-- An attribute that all or none report has keys, and any other shows the first CPU without it. -/
theorem uniform?_cases (attribute? : Descriptor → Option Nat) (kind : RecordKind)
    (cpus : List Descriptor) :
    (AllOrNone attribute? cpus ∧ ∃ keys, uniform? attribute? kind cpus = .ok keys) ∨
      ∃ cpu, FirstWithout attribute? cpus cpu ∧
        uniform? attribute? kind cpus = .error (.uncovered cpu kind) := by
  by_cases hnone : ∀ d ∈ cpus, attribute? d = none
  · exact .inl ⟨.inl hnone, none, uniform?_of_none kind (by simpa using hnone)⟩
  have hreported : (cpus.map attribute?).all (·.isNone) = false := by
    simpa [Option.isNone_iff_eq_none] using hnone
  rw [uniform?, hreported, if_neg Bool.false_ne_true]
  split
  · next cpu hfound =>
    obtain ⟨hlt, hmissing, hfirst⟩ := List.findIdx?_eq_some_iff_getElem.mp hfound
    rw [List.length_map] at hlt
    refine .inr ⟨cpu, ⟨?_, ⟨cpus[cpu], List.getElem?_eq_getElem hlt, ?_⟩, ?_⟩, rfl⟩
    · push Not at hnone
      obtain ⟨d, hd, hsome⟩ := hnone
      exact ⟨d, hd, Option.isSome_iff_ne_none.mpr hsome⟩
    · simpa using hmissing
    · intro other d hother hd
      obtain ⟨hlt, rfl⟩ := List.getElem?_eq_some_iff.mp hd
      simpa [Option.isSome_iff_ne_none] using hfirst other hother
  · next hfound =>
    refine .inl ⟨.inr fun d hd => ?_, _, rfl⟩
    have hsome := List.findIdx?_eq_none_iff.mp hfound (attribute? d) (List.mem_map_of_mem hd)
    simpa using hsome

/-- An attribute without keys is one that no CPU reports. -/
theorem eq_none_of_uniform? {attribute? : Descriptor → Option Nat} {kind : RecordKind}
    (h : uniform? attribute? kind cpus = .ok none) {d : Descriptor} (hd : d ∈ cpus) :
    attribute? d = none := by
  simp only [uniform?] at h
  split at h
  · next hnone =>
    exact Option.isNone_iff_eq_none.mp (List.all_eq_true.mp hnone _ (List.mem_map_of_mem hd))
  · split at h <;> simp at h

/-! ## The parts of described machines -/

/-- Two CPUs have one number when they have one key. -/
theorem eq_iff_of_numbers {κ ν : Type} [DecidableEq κ] {key : Descriptor → κ} {number : Slot → ν}
    {slots : List Slot} {numberOf : Nat → ν} (hinj : numberOf.Injective)
    (h : slots.map number = (Numbering.numbers (cpus.map key)).map numberOf) {a b : Nat}
    {s t : Slot} {d e : Descriptor} (hs : slots[a]? = some s) (ht : slots[b]? = some t)
    (hd : cpus[a]? = some d) (he : cpus[b]? = some e) : number s = number t ↔ key d = key e := by
  have hsame : (slots.map number)[a]? = (slots.map number)[b]? ↔
      (cpus.map key)[a]? = (cpus.map key)[b]? := by
    rw [h, List.getElem?_map, List.getElem?_map, (Option.map_injective hinj).eq_iff,
      Numbering.getElem?_numbers_eq_iff]
  simpa [hs, ht, hd, he] using hsame

section Parts

variable {nodes groups : Option (List Nat)}

theorem socketCount_partsOfDescriptors (cpus : List Descriptor) :
    (partsOfDescriptors cpus nodes groups).socketCount = distinctSockets cpus :=
  Numbering.length_masks _

theorem distinctSockets_pos (hsome : cpus ≠ []) : 0 < distinctSockets cpus := by
  rw [distinctSockets, Finset.card_pos, List.toFinset_nonempty_iff]
  simpa using hsome

/-- Cores per socket are counted by dividing, whether or not they come out even. -/
theorem coresPerSocket_partsOfDescriptors (hsome : cpus ≠ []) :
    (partsOfDescriptors cpus nodes groups).coresPerSocket =
      distinctCores cpus / distinctSockets cpus := by
  have hcores : (partsOfDescriptors cpus nodes groups).coreMasks.length = distinctCores cpus :=
    Numbering.length_masks _
  rw [Parts.coresPerSocket, hcores, socketCount_partsOfDescriptors,
    Nat.max_eq_left (distinctSockets_pos hsome)]

theorem threadsPerCore_partsOfDescriptors (cpus : List Descriptor) :
    (partsOfDescriptors cpus nodes groups).threadsPerCore = distinctThreads cpus :=
  Numbering.length_classes _

/-- The check of the counts is the equation of the counts of ids. -/
theorem fillsGrid_iff (hsome : cpus ≠ []) :
    (partsOfDescriptors cpus nodes groups).fillsGrid = true ↔ FillsGrid cpus := by
  rw [Parts.fillsGrid, beq_iff_eq, socketCount_partsOfDescriptors,
    coresPerSocket_partsOfDescriptors hsome, threadsPerCore_partsOfDescriptors]
  rfl

/-- A socket has the CPUs that report one id. -/
theorem exists_socketId {mask : Mask}
    (hmask : mask ∈ (partsOfDescriptors cpus nodes groups).socketMasks) :
    ∃ id, ∀ cpu, mask.test cpu = true ↔ ∃ d, cpus[cpu]? = some d ∧ d.socketId = id := by
  obtain ⟨id, -, rfl⟩ := List.mem_map.mp hmask
  refine ⟨id, fun cpu => ?_⟩
  rw [Numbering.test_mask, List.getElem?_map, Option.map_eq_some_iff]

/-- A node has the CPUs that report one id. -/
theorem exists_nodeId (hnodes : uniform? (·.nodeId) .node cpus = .ok nodes) {mask : Mask}
    (hmask : mask ∈ (partsOfDescriptors cpus nodes groups).nodeMasks) :
    ∃ id, ∀ cpu, mask.test cpu = true ↔ ∃ d, cpus[cpu]? = some d ∧ d.nodeId = some id := by
  cases nodes with
  | none => cases hmask
  | some keys =>
    obtain ⟨id, -, rfl⟩ := List.mem_map.mp hmask
    refine ⟨id, fun cpu => ?_⟩
    have hreported : keys[cpu]?.map some = cpus[cpu]?.map (·.nodeId) := by
      rw [← List.getElem?_map, ← List.getElem?_map, map_eq_of_uniform? hnodes]
    rw [Numbering.test_mask, ← Option.map_eq_some_iff, ← hreported]
    simp

variable (hnodes : uniform? (·.nodeId) .node cpus = .ok nodes)
  (hgroups : uniform? (·.groupId) .group cpus = .ok groups)

include hnodes hgroups

theorem tiled_of_uniform? : (partsOfDescriptors cpus nodes groups).Tiled :=
  tiled_partsOfDescriptors (keyed_of_uniform? hnodes) (keyed_of_uniform? hgroups)

/-- The mask of each CPU selects the CPU and nothing else. -/
theorem cpuMasks_of_uniform? :
    let p := partsOfDescriptors cpus nodes groups
    p.cpuMasks = (List.range p.slots.length).map (Mask.single p.slots.length) := by
  intro p
  have hlength : p.slots.length = cpus.length := (tiled_of_uniform? hnodes hgroups).slots_length
  rw [hlength]
  rfl

/-- Where there are no nodes, no slot names one. -/
theorem node_eq_none (hnil : (partsOfDescriptors cpus nodes groups).nodeMasks = []) :
    ∀ slot ∈ (partsOfDescriptors cpus nodes groups).slots, slot.node = none := by
  intro slot hslot
  obtain ⟨-, -, hnode, -⟩ :=
    slots_partsOfDescriptors (keyed_of_uniform? hnodes) (keyed_of_uniform? hgroups)
  have hmem := List.mem_map_of_mem (f := (·.node)) hslot
  rw [hnode] at hmem
  cases nodes with
  | none => exact (List.mem_replicate.mp hmem).2
  | some keys =>
    have hkeys : keys = [] := by
      have hcount := Numbering.length_masks keys
      rw [show Numbering.masks keys = [] from hnil] at hcount
      simpa using hcount.symm
    simp [hkeys, optionalNumbers, Numbering.numbers] at hmem

/-- The slots tell two CPUs apart by the ids that their descriptors tell them apart by. -/
theorem slots_agree {a b : Nat} {s t : Slot} {d e : Descriptor}
    (hs : (partsOfDescriptors cpus nodes groups).slots[a]? = some s)
    (ht : (partsOfDescriptors cpus nodes groups).slots[b]? = some t) (hd : cpus[a]? = some d)
    (he : cpus[b]? = some e) :
    (s.socket = t.socket ↔ d.socketId = e.socketId) ∧
      (s.core = t.core ↔ (d.socketId, d.coreId) = (e.socketId, e.coreId)) ∧
      (s.node = t.node ↔ d.nodeId = e.nodeId) := by
  obtain ⟨hsocket, hcore, hnode, -⟩ :=
    slots_partsOfDescriptors (keyed_of_uniform? hnodes) (keyed_of_uniform? hgroups)
  rw [← List.map_id (Numbering.numbers _)] at hsocket hcore
  refine ⟨eq_iff_of_numbers Function.injective_id hsocket hs ht hd he,
    eq_iff_of_numbers Function.injective_id hcore hs ht hd he, ?_⟩
  cases nodes with
  | none =>
    have hnone := node_eq_none hnodes hgroups rfl
    rw [hnone s (List.mem_of_getElem? hs), hnone t (List.mem_of_getElem? ht),
      eq_none_of_uniform? hnodes (List.mem_of_getElem? hd),
      eq_none_of_uniform? hnodes (List.mem_of_getElem? he)]
  | some keys =>
    refine eq_iff_of_numbers (Option.some_injective _) ?_ hs ht hd he
    rw [map_eq_of_uniform? hnodes, Numbering.numbers_map (Option.some_injective _)]
    exact hnode

/-- There is a descriptor for each slot. -/
theorem exists_descriptor {cpu : Nat} {slot : Slot}
    (hslot : (partsOfDescriptors cpus nodes groups).slots[cpu]? = some slot) :
    ∃ d, cpus[cpu]? = some d := by
  have hlt := (tiled_of_uniform? hnodes hgroups).lt_cpus hslot
  exact ⟨_, List.getElem?_eq_getElem hlt⟩

theorem exists_slot {cpu : Nat} {d : Descriptor} (hd : cpus[cpu]? = some d) :
    ∃ slot, (partsOfDescriptors cpus nodes groups).slots[cpu]? = some slot :=
  (tiled_of_uniform? hnodes hgroups).exists_slot (List.getElem?_eq_some_iff.mp hd).1

/-! ## How the entities of described machines lie within each other -/

/-- A core lies in its socket whatever the descriptors say. -/
theorem core_fits {core socket : Entity}
    (hcore : core ∈ (partsOfDescriptors cpus nodes groups).layout.cores)
    (hsocket : core.socket?.bind ((partsOfDescriptors cpus nodes groups).layout.sockets[·]?) =
      some socket) : core.mask.subset socket.mask = true := by
  refine (tiled_of_uniform? hnodes hgroups).cores_fit
    (fun _ hmask => Numbering.isGroup_of_mem_masks hmask)
    (fun _ hmask => Numbering.isGroup_of_mem_masks hmask) ?_ hcore hsocket
  intro s hs t ht hsame
  obtain ⟨a, hs⟩ := List.mem_iff_getElem?.mp hs
  obtain ⟨b, ht⟩ := List.mem_iff_getElem?.mp ht
  obtain ⟨d, hd⟩ := exists_descriptor hnodes hgroups hs
  obtain ⟨e, he⟩ := exists_descriptor hnodes hgroups ht
  obtain ⟨hsocket, hcore, -⟩ := slots_agree hnodes hgroups hs ht hd he
  exact hsocket.mpr (Prod.ext_iff.mp (hcore.mp hsame)).1

/-- A socket that names the node of one of its CPUs and does not lie in it spans nodes. -/
theorem spans_of_not_subset {socket node : Entity}
    (hsocket : socket ∈ (partsOfDescriptors cpus nodes groups).layout.sockets)
    (hnode : socket.node?.bind ((partsOfDescriptors cpus nodes groups).layout.nodes[·]?) =
      some node) (hout : socket.mask.subset node.mask = false) : Spans cpus socket node := by
  let p := partsOfDescriptors cpus nodes groups
  have tiled : p.Tiled := tiled_of_uniform? hnodes hgroups
  have hsocketBits : ∀ mask ∈ p.socketMasks, mask.isGroup = false :=
    fun _ hmask => Numbering.isGroup_of_mem_masks hmask
  obtain ⟨cpu, first, hfirst, -, hcpu, hfirstNode, hnamed, hnodeMask, hnodeRole⟩ :=
    tiled.exists_cpu_of_node? (cpuMasks_of_uniform? hnodes hgroups) hsocketBits hsocket hnode
  obtain ⟨hsocketMask, hsocketRole⟩ := Parts.mem_number.mp hsocket
  have hsocketMem : socket.mask ∈ p.socketMasks := List.mem_of_getElem? hsocketMask
  have hnodeMem : node.mask ∈ p.nodeMasks := List.mem_of_getElem? hnodeMask
  have hsocketBit := hsocketBits _ hsocketMem
  have hnodeBit : node.mask.isGroup = false := isGroup_of_mem_optionalMasks hnodeMem
  have hinside : cpu ∈ p.layout.cpusOf node.mask :=
    ((tiled.nodes (List.ne_nil_of_mem hnodeMem)).mem_cpusOf_iff hnodeMask cpu).mpr
      (Parts.ownerOf?_eq_some_iff.mpr ⟨first, hfirst, hfirstNode⟩)
  exact
    { socket_kind := by rw [Entity.kind, hsocketRole, Parts.socketRole]
      node_kind := by rw [Entity.kind, hnodeRole]
      named := hnamed
      socket_cpus := exists_socketId hsocketMem
      node_cpus := exists_nodeId hnodes hnodeMem
      inside := ⟨cpu, (Layout.mem_cpusOf_bitset hsocketBit).mp (tiled.mem_cpusOf hcpu),
        (Layout.mem_cpusOf_bitset hnodeBit).mp hinside⟩
      outside := Mask.exists_outside (Mask.sameSpace_of_bitsets hsocketBit hnodeBit) hout }

/-- What is found out of place is a socket that spans nodes. -/
theorem spans_of_misplacement? {cause : Misplacement}
    (hcause : (partsOfDescriptors cpus nodes groups).layout.misplacement? = some cause) :
    ∃ socket node, cause = .notInside socket node ∧ Spans cpus socket node := by
  have hescapes : ∀ {inner : Entity} {outer : Option Entity},
      escapes? inner outer = some cause →
        ∃ e, outer = some e ∧ inner.mask.subset e.mask = false ∧ cause = .notInside inner e := by
    intro inner outer h
    obtain ⟨e, houter, h⟩ := Option.bind_eq_some_iff.mp h
    by_cases hinside : e.contains inner = true
    · simp [hinside] at h
    · refine ⟨e, houter, Bool.eq_false_iff.mpr hinside, ?_⟩
      simpa [hinside, eq_comm] using h
  rcases Option.or_eq_some_iff.mp hcause with hcore | ⟨-, hsocket⟩
  · obtain ⟨core, hcore, h⟩ := List.exists_of_findSome?_eq_some hcore
    obtain ⟨socket, hsocket, hout, -⟩ := hescapes h
    simp [core_fits hnodes hgroups hcore hsocket] at hout
  · obtain ⟨socket, hmem, h⟩ := List.exists_of_findSome?_eq_some hsocket
    obtain ⟨node, hnode, hout, rfl⟩ := hescapes h
    exact ⟨socket, node, rfl, spans_of_not_subset hnodes hgroups hmem hnode hout⟩

/-- Where nothing is out of place, no socket has CPUs of two nodes. -/
theorem socketsInNodes_of_fits
    (hfits : (partsOfDescriptors cpus nodes groups).layout.misplacement? = none) :
    SocketsInNodes cpus := by
  intro d hd e he hsame
  obtain ⟨a, hd⟩ := List.mem_iff_getElem?.mp hd
  obtain ⟨b, he⟩ := List.mem_iff_getElem?.mp he
  obtain ⟨s, hs⟩ := exists_slot hnodes hgroups hd
  obtain ⟨t, ht⟩ := exists_slot hnodes hgroups he
  obtain ⟨hsocket, -, hnode⟩ := slots_agree hnodes hgroups hs ht hd he
  exact hnode.mp ((tiled_of_uniform? hnodes hgroups).node_eq_of_socket_eq hfits
    (fun hnil => node_eq_none hnodes hgroups hnil) s (List.mem_of_getElem? hs) t
    (List.mem_of_getElem? ht) (hsocket.mpr hsame))

/-- With attributes that all or none report, the parts make a layout or show what is wrong. -/
theorem assemble_cases (hsome : cpus ≠ []) (hallNodes : AllOrNone (·.nodeId) cpus)
    (hallGroups : AllOrNone (·.groupId) cpus) :
    (Consistent cpus ∧ ∃ l, (partsOfDescriptors cpus nodes groups).assemble = .ok l) ∨
      ∃ e, Refused cpus e ∧ (partsOfDescriptors cpus nodes groups).assemble = .error e := by
  rw [Parts.assemble]
  by_cases hgrid : (partsOfDescriptors cpus nodes groups).fillsGrid = true
  case neg =>
    have hcounts := (fillsGrid_iff hsome).not.mp hgrid
    refine .inr ⟨_, .counts hsome hallNodes hallGroups hcounts, ?_⟩
    rw [if_pos (by simpa using hgrid), socketCount_partsOfDescriptors,
      coresPerSocket_partsOfDescriptors hsome, threadsPerCore_partsOfDescriptors]
    rfl
  rw [if_neg (by simpa using hgrid)]
  have hcounts := (fillsGrid_iff hsome).mp hgrid
  cases hcause : (partsOfDescriptors cpus nodes groups).layout.misplacement? with
  | none =>
    have hsockets := socketsInNodes_of_fits hnodes hgroups hcause
    exact .inl ⟨⟨hsome, hallNodes, hallGroups, hcounts, hsockets⟩,
      (partsOfDescriptors cpus nodes groups).layout, by simp only [hcause]⟩
  | some cause =>
    obtain ⟨socket, node, rfl, hspans⟩ := spans_of_misplacement? hnodes hgroups hcause
    exact .inr ⟨_, .spans hsome hallNodes hallGroups hcounts hspans, by simp only [hcause]⟩

end Parts

/-! ## The whole list -/

/-- A list of descriptors is consistent and makes a layout, or is refused for what it fails first.
-/
theorem ofDescriptors_cases (cpus : List Descriptor) :
    (Consistent cpus ∧ ∃ l, ofDescriptors cpus = .ok l) ∨
      ∃ e, Refused cpus e ∧ ofDescriptors cpus = .error e := by
  by_cases hsome : cpus = []
  · subst hsome
    exact .inr ⟨_, .empty, rfl⟩
  rw [ofDescriptors, if_neg (by simpa using hsome)]
  rcases uniform?_cases (·.nodeId) .node cpus with
    ⟨hallNodes, nodes, hnodes⟩ | ⟨cpu, hfirst, herror⟩
  case inr => exact .inr ⟨_, .node hfirst, by rw [herror]; rfl⟩
  rcases uniform?_cases (·.groupId) .group cpus with
    ⟨hallGroups, groups, hgroups⟩ | ⟨cpu, hfirst, herror⟩
  case inr => exact .inr ⟨_, .group hallNodes hfirst, by rw [hnodes, herror]; rfl⟩
  rw [hnodes, hgroups]
  exact assemble_cases hnodes hgroups hsome hallNodes hallGroups

end Layout

/-- Descriptors make a layout exactly if they are consistent. Otherwise they are refused for the
first condition that they fail, and never because of a core that is not inside its socket. -/
theorem ofDescriptors_consistent (cpus : List Descriptor) :
    ((∃ l, Layout.ofDescriptors cpus = .ok l) ↔ Descriptor.Consistent cpus) ∧
      (∀ e, Layout.ofDescriptors cpus = .error e → Descriptor.Refused cpus e) ∧
      ∀ inner outer, Layout.ofDescriptors cpus = .error (.misplaced (.notInside inner outer)) →
        inner.kind ≠ .core := by
  have hrefused : ∀ e, Layout.ofDescriptors cpus = .error e → Descriptor.Refused cpus e := by
    intro e he
    rcases Layout.ofDescriptors_cases cpus with ⟨-, l, hl⟩ | ⟨e', hrefused, he'⟩
    · simp [hl] at he
    · cases Except.error.inj (he.symm.trans he')
      exact hrefused
  refine ⟨⟨?_, ?_⟩, hrefused, ?_⟩
  · rintro ⟨l, hl⟩
    rcases Layout.ofDescriptors_cases cpus with ⟨hconsistent, -⟩ | ⟨e, -, he⟩
    · exact hconsistent
    · simp [hl] at he
  · intro hconsistent
    rcases Layout.ofDescriptors_cases cpus with ⟨-, hl⟩ | ⟨e, hrefused, -⟩
    · exact hl
    · exact absurd hconsistent hrefused.not_consistent
  · intro inner outer he
    cases hrefused _ he with
    | spans _ _ _ _ hspans => simp [hspans.socket_kind]

end CpuPlacement
