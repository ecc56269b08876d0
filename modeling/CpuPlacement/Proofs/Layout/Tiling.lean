import CpuPlacement.Layout.Assembly
import CpuPlacement.Proofs.Layout.Queries
import CpuPlacement.Proofs.Traversal

/-!
# Parts whose masks and slots agree

The slots of the CPUs and the masks of the entities reach `Parts.assemble` separately. What every
source of parts provides is `Parts.Tiled`: the masks of a kind, read as CPU numbers, are exactly
what the slots say of that kind, and the mask of a CPU lies in the mask of its core. Nothing is said
here of how kinds lie within each other; that is what `Parts.assemble` checks.
-/

set_option autoImplicit false

namespace CpuPlacement

namespace Parts

/-! ## The entities that parts make -/

/-- Masks are numbered by their places in the list. -/
theorem getElem?_number {masks : List Mask} {role : Mask → EntityRole} (id : Nat) :
    (number masks role)[id]? = masks[id]?.map fun mask => ⟨id, mask, role mask⟩ := by
  simp only [number, List.getElem?_map, List.getElem?_zipIdx, Option.map_map]
  cases masks[id]? <;> simp

theorem getElem?_number_of {masks : List Mask} (role : Mask → EntityRole) {id : Nat} {mask : Mask}
    (hmask : masks[id]? = some mask) : (number masks role)[id]? = some ⟨id, mask, role mask⟩ := by
  rw [getElem?_number, hmask, Option.map_some]

/-- A numbered entity is at the place of its id. -/
theorem mem_number {masks : List Mask} {role : Mask → EntityRole} {e : Entity} :
    e ∈ number masks role ↔ masks[e.id]? = some e.mask ∧ e.role = role e.mask := by
  rw [List.mem_iff_getElem?]
  constructor
  · rintro ⟨id, hid⟩
    rw [getElem?_number] at hid
    obtain ⟨mask, hmask, rfl⟩ := Option.map_eq_some_iff.mp hid
    exact ⟨hmask, rfl⟩
  · rintro ⟨hmask, hrole⟩
    exact ⟨e.id, by rw [getElem?_number_of role hmask, ← hrole]⟩

/-- The ids count from 0. -/
theorem map_id_number (masks : List Mask) (role : Mask → EntityRole) :
    (number masks role).map (·.id) = List.range (number masks role).length := by
  rw [number, List.map_map, List.length_map, List.length_zipIdx, List.range_eq_range']
  exact List.zipIdx_map_snd 0 masks

/-- The id of an entity is its place among the entities of its kind. -/
theorem map_id_entitiesOf (p : Parts) (kind : EntityKind) :
    (p.layout.entitiesOf kind).map (·.id) = List.range (p.layout.entitiesOf kind).length := by
  cases kind with
  | group => exact map_id_number p.groupMasks fun _ => .group
  | node => exact map_id_number p.nodeMasks fun _ => .node
  | socket => exact map_id_number _ _
  | core => exact map_id_number _ _
  | cache =>
    simp only [Layout.entitiesOf, layout, List.map_map, List.length_map, List.length_zipIdx]
    rw [List.range_eq_range']
    exact List.zipIdx_map_snd 0 p.caches

/-- The entities that are listed for a kind are of that kind. -/
theorem kind_of_mem_entitiesOf {p : Parts} {kind : EntityKind} {e : Entity}
    (he : e ∈ p.layout.entitiesOf kind) : e.kind = kind := by
  have numbered (masks : List Mask) (role : Mask → EntityRole) (he : e ∈ number masks role) :
      e.role = role e.mask := by
    obtain ⟨_, -, rfl⟩ := List.mem_map.mp he
    rfl
  cases kind with
  | group => rw [Entity.kind, numbered p.groupMasks (fun _ => .group) he]
  | node => rw [Entity.kind, numbered p.nodeMasks (fun _ => .node) he]
  | socket => rw [Entity.kind, numbered p.socketMasks p.socketRole he, socketRole]
  | core => rw [Entity.kind, numbered p.coreMasks p.coreRole he, coreRole]
  | cache =>
    obtain ⟨_, -, rfl⟩ := List.mem_map.mp he
    rfl

/-- No id comes twice. -/
theorem nodup_id_number (masks : List Mask) (role : Mask → EntityRole) :
    ((number masks role).map (·.id)).Nodup := by
  rw [map_id_number]
  exact List.nodup_range

/-- Numbering leaves the masks as they are. -/
theorem map_mask_number (masks : List Mask) (role : Mask → EntityRole) :
    (number masks role).map (·.mask) = masks := by
  refine List.ext_getElem? fun id => ?_
  rw [List.getElem?_map, getElem?_number, Option.map_map]
  cases masks[id]? <;> rfl

theorem ascends_number {masks : List Mask} (role : Mask → EntityRole) (h : Mask.Ascends masks) :
    Mask.Ascends ((number masks role).map (·.mask)) := by
  rwa [map_mask_number]

variable {p : Parts}

/-- The core of a CPU is the one that its slot names. -/
theorem coreOf?_of {cpu : Nat} {slot : Slot} {core : Mask} (hslot : p.slots[cpu]? = some slot)
    (hcore : p.coreMasks[slot.core]? = some core) :
    p.layout.coreOf? cpu = some ⟨slot.core, core, p.coreRole core⟩ :=
  Option.bind_eq_some_iff.mpr ⟨slot, hslot, getElem?_number_of _ hcore⟩

/-- The socket of a CPU is the one that its slot names. -/
theorem socketOf?_of {cpu : Nat} {slot : Slot} {socket : Mask} (hslot : p.slots[cpu]? = some slot)
    (hsocket : p.socketMasks[slot.socket]? = some socket) :
    p.layout.socketOf? cpu = some ⟨slot.socket, socket, p.socketRole socket⟩ :=
  Option.bind_eq_some_iff.mpr ⟨slot, hslot, getElem?_number_of _ hsocket⟩

/-- The node of a CPU is the one that its slot names, if it names one. -/
theorem nodeOf?_of {cpu id : Nat} {slot : Slot} {node : Mask} (hslot : p.slots[cpu]? = some slot)
    (hid : slot.node = some id) (hnode : p.nodeMasks[id]? = some node) :
    p.layout.nodeOf? cpu = some ⟨id, node, .node⟩ :=
  Option.bind_eq_some_iff.mpr
    ⟨slot, hslot, Option.bind_eq_some_iff.mpr ⟨id, hid, getElem?_number_of (fun _ => .node) hnode⟩⟩

/-! ## The first CPU of a mask -/

/-- The first slot of a mask is the slot of a CPU in the mask. -/
theorem exists_cpu_of_firstSlot? {mask : Mask} {slot : Slot} (h : p.firstSlot? mask = some slot) :
    ∃ cpu, p.slots[cpu]? = some slot ∧ p.layout.maskContains mask cpu = true := by
  obtain ⟨⟨slot, single⟩, hfind, rfl⟩ := Option.map_eq_some_iff.mp h
  obtain ⟨cpu, hcpu⟩ := List.mem_iff_getElem?.mp (List.mem_of_find?_eq_some hfind)
  obtain ⟨hslot, hsingle⟩ := List.getElem?_zip_eq_some.mp hcpu
  have hsub : single.subset mask = true := by simpa using List.find?_some hfind
  exact ⟨cpu, hslot, Layout.maskContains_iff.mpr ⟨single, hsingle, hsub⟩⟩

/-- A mask with a CPU has a first slot. -/
theorem exists_firstSlot? {mask : Mask} {cpu : Nat} {slot : Slot}
    (hslot : p.slots[cpu]? = some slot)
    (hcpu : p.layout.maskContains mask cpu = true) : ∃ first, p.firstSlot? mask = some first := by
  obtain ⟨single, hsingle, hsub⟩ := Layout.maskContains_iff.mp hcpu
  have hmem : (slot, single) ∈ p.slots.zip p.cpuMasks :=
    List.mem_iff_getElem?.mpr ⟨cpu, List.getElem?_zip_eq_some.mpr ⟨hslot, hsingle⟩⟩
  have hfound : ((p.slots.zip p.cpuMasks).find? fun pair => pair.2.subset mask).isSome :=
    List.find?_isSome.mpr ⟨_, hmem, hsub⟩
  obtain ⟨found, hfind⟩ := Option.isSome_iff_exists.mp hfound
  exact ⟨found.1, Option.map_eq_some_iff.mpr ⟨found, hfind, rfl⟩⟩

/-! ## Tilings -/

/-- The number of the entity of a kind that a CPU's slot names, if there is such a CPU. -/
def ownerOf? (p : Parts) (owner? : Slot → Option Nat) (cpu : Nat) : Option Nat :=
  p.slots[cpu]?.bind owner?

theorem ownerOf?_eq_some_iff {owner? : Slot → Option Nat} {cpu id : Nat} :
    p.ownerOf? owner? cpu = some id ↔ ∃ slot, p.slots[cpu]? = some slot ∧ owner? slot = some id :=
  Option.bind_eq_some_iff

/-- The masks of a kind ascend, none is without CPUs, and their CPUs are those that the slots
name. -/
structure Divides (p : Parts) (owner? : Slot → Option Nat) (masks : List Mask) : Prop where
  ascends : Mask.Ascends masks
  inhabited : ∀ mask ∈ masks, p.layout.cpusOf mask ≠ []
  covers : ∀ slot ∈ p.slots, ∃ id mask, owner? slot = some id ∧ masks[id]? = some mask
  mem_cpusOf_iff : ∀ {id : Nat} {mask : Mask}, masks[id]? = some mask →
    ∀ cpu, cpu ∈ p.layout.cpusOf mask ↔ p.ownerOf? owner? cpu = some id

/-- A CPU with a slot has an owner. -/
theorem Divides.owner {owner? : Slot → Option Nat} {masks : List Mask}
    (h : p.Divides owner? masks) {cpu : Nat} {slot : Slot}
    (hslot : p.slots[cpu]? = some slot) :
    ∃ id mask, owner? slot = some id ∧ masks[id]? = some mask ∧ cpu ∈ p.layout.cpusOf mask := by
  obtain ⟨id, mask, hid, hmask⟩ := h.covers slot (List.mem_of_getElem? hslot)
  have howner : p.ownerOf? owner? cpu = some id := ownerOf?_eq_some_iff.mpr ⟨slot, hslot, hid⟩
  exact ⟨id, mask, hid, hmask, (h.mem_cpusOf_iff hmask cpu).mpr howner⟩

/-- A mask of the kind has a CPU, and that CPU a slot. -/
theorem Divides.exists_cpu {owner? : Slot → Option Nat} {masks : List Mask}
    (h : p.Divides owner? masks) {id : Nat} {mask : Mask}
    (hmask : masks[id]? = some mask) :
    ∃ (cpu : Nat) (slot : Slot), p.slots[cpu]? = some slot ∧ owner? slot = some id := by
  obtain ⟨cpu, hcpu⟩ := List.exists_mem_of_ne_nil _ (h.inhabited mask (List.mem_of_getElem? hmask))
  exact ⟨cpu, ownerOf?_eq_some_iff.mp ((h.mem_cpusOf_iff hmask cpu).mp hcpu)⟩

/-- The mask of a CPU lies in the mask of the kind that its slot names. -/
def Holds (p : Parts) (owner? : Slot → Option Nat) (masks : List Mask) : Prop :=
  ∀ {cpu id : Nat} {slot : Slot} {mask : Mask}, p.slots[cpu]? = some slot → owner? slot = some id →
    masks[id]? = some mask → p.layout.maskContains mask cpu = true

/-- With bit-sets, the mask of a CPU lies in every mask that has the CPU. -/
theorem Divides.holds_of_bitsets {owner? : Slot → Option Nat} {masks : List Mask}
    (h : p.Divides owner? masks)
    (hsingles : p.cpuMasks = (List.range p.slots.length).map (Mask.single p.slots.length))
    (hbitsets : ∀ mask ∈ masks, mask.isGroup = false) : p.Holds owner? masks := by
  intro cpu id slot mask hslot hid hmask
  have hbitset := hbitsets mask (List.mem_of_getElem? hmask)
  have howner : p.ownerOf? owner? cpu = some id := ownerOf?_eq_some_iff.mpr ⟨slot, hslot, hid⟩
  have hmem := (h.mem_cpusOf_iff hmask cpu).mpr howner
  refine (Layout.maskContains_bitset hsingles).mpr ⟨?_, hbitset, ?_⟩
  · exact (List.getElem?_eq_some_iff.mp hslot).1
  · exact (Layout.mem_cpusOf_bitset hbitset).mp hmem

/-- Cores, sockets and, where there are any, nodes divide the CPUs, and a CPU's mask lies in the
mask of its core. -/
structure Tiled (p : Parts) : Prop where
  slots_length : p.slots.length = p.descriptors.length
  groups_ascend : Mask.Ascends p.groupMasks
  nodes : p.nodeMasks ≠ [] → p.Divides (·.node) p.nodeMasks
  sockets : p.Divides (some ·.socket) p.socketMasks
  cores : p.Divides (some ·.core) p.coreMasks
  cores_hold : p.Holds (some ·.core) p.coreMasks
  mem_cpusOf : ∀ {mask : Mask} {cpu : Nat}, p.layout.maskContains mask cpu = true →
    cpu ∈ p.layout.cpusOf mask

/-- What has a slot is a CPU of the layout. -/
theorem Tiled.lt_cpus (tiled : p.Tiled) {cpu : Nat} {slot : Slot}
    (hslot : p.slots[cpu]? = some slot) : cpu < p.layout.cpus := by
  have hlt := (List.getElem?_eq_some_iff.mp hslot).1
  rwa [tiled.slots_length] at hlt

/-- With bit-sets, a division of the CPUs by cores is all that the CPUs' own masks must fit. -/
theorem Tiled.of_bitsets (hslots : p.slots.length = p.descriptors.length)
    (hsingles : p.cpuMasks = (List.range p.slots.length).map (Mask.single p.slots.length))
    (hbitsets : ∀ core ∈ p.coreMasks, core.isGroup = false)
    (hgroups : Mask.Ascends p.groupMasks)
    (hnodes : p.nodeMasks ≠ [] → p.Divides (·.node) p.nodeMasks)
    (hsockets : p.Divides (some ·.socket) p.socketMasks)
    (hcores : p.Divides (some ·.core) p.coreMasks) : p.Tiled := by
  refine ⟨hslots, hgroups, hnodes, hsockets, hcores, hcores.holds_of_bitsets hsingles hbitsets,
    fun {mask cpu} hcpu => ?_⟩
  obtain ⟨-, hbitset, htest⟩ := (Layout.maskContains_bitset hsingles).mp hcpu
  exact (Layout.mem_cpusOf_bitset hbitset).mpr htest

/-! ## What the assembly checks -/

/-- Parts are assembled if both checks pass, and then just as they are. -/
theorem assemble_eq_ok_iff {l : Layout} :
    p.assemble = .ok l ↔ p.fillsGrid = true ∧ p.layout.misplacement? = none ∧ p.layout = l := by
  rw [assemble]
  cases hgrid : p.fillsGrid with
  | false => simp
  | true =>
    cases hcause : p.layout.misplacement? <;> simp [hcause]

end Parts

namespace Layout

/-- Nothing is misplaced if every core lies in its socket and every socket in its node. -/
theorem misplacement?_eq_none_iff {l : Layout} :
    l.misplacement? = none ↔
      (∀ core ∈ l.cores, ∀ socket, core.socket?.bind (l.sockets[·]?) = some socket →
        core.mask.subset socket.mask = true) ∧
      (∀ socket ∈ l.sockets, ∀ node, socket.node?.bind (l.nodes[·]?) = some node →
        socket.mask.subset node.mask = true) := by
  have hescapes : ∀ (inner : Entity) (outer : Option Entity),
      escapes? inner outer = none ↔ ∀ e, outer = some e → inner.mask.subset e.mask = true := by
    intro inner outer
    cases outer with
    | none => simp [escapes?]
    | some e => by_cases h : inner.mask.subset e.mask = true <;> simp [escapes?, Entity.contains, h]
  simp only [misplacement?, Option.or_eq_none_iff, List.findSome?_eq_none_iff, hescapes]

end Layout

end CpuPlacement
