import CpuPlacement.Proofs.Layout.Tiling
import Mathlib.Data.List.Sort

/-!
# The hierarchy of a layout

In a complete layout every CPU is in exactly one core, one socket and, where there are nodes, one
node. The slot of the CPU names them, the masks contain it in no others, and what a core says of its
socket and a socket of its node is so for each of their CPUs.

An assembled layout takes the socket of a core from the core's first CPU alone. That it is the
socket of all of them (`Parts.Tiled.core_in_socket`) follows from the check that the socket contains
the core: each CPU of the core is then a CPU of that socket, and no CPU is in two.
-/

set_option autoImplicit false

namespace CpuPlacement

namespace Layout

/-- The masks of a kind and what the layout says of each CPU are the same division of the CPUs. -/
structure Partitions (l : Layout) (kind : EntityKind) : Prop where
  /-- Of all entities of the kind only the CPU's own has the CPU in its mask. -/
  exactlyOne : ∀ cpu < l.cpus, ∃ own, l.entityForCpu? kind cpu = some own ∧
    (l.entitiesOf kind).filter (fun e => l.maskContains e.mask cpu) = [own]
  nonempty : ∀ e ∈ l.entitiesOf kind, e.mask.isEmpty = false
  /-- A mask lists the CPUs whose entity it is, and no others. -/
  cpusOf_eq : ∀ e ∈ l.entitiesOf kind,
    l.cpusOf e.mask = (List.range l.cpus).filter fun cpu => l.entityForCpu? kind cpu = some e

/-- The hierarchy of cores, sockets and nodes is the same for masks, slots and back-references. -/
structure Complete (l : Layout) : Prop where
  cores : l.Partitions .core
  sockets : l.Partitions .socket
  nodes : l.nodes ≠ [] → l.Partitions .node
  physicalCore : ∀ cpu < l.cpus, ∃ core,
    l.coreOf? cpu = some core ∧ l.physicalCore cpu = .ok core.id
  socket_of_core : ∀ cpu < l.cpus, ∃ core socket,
    l.coreOf? cpu = some core ∧ l.socketOf? cpu = some socket ∧ core.socket? = some socket.id
  node_of_socket : ∀ cpu < l.cpus, ∃ socket,
    l.socketOf? cpu = some socket ∧ socket.node? = (l.nodeOf? cpu).map (·.id)
  core_subset : ∀ core ∈ l.cores, ∃ socket,
    core.socket?.bind (l.sockets[·]?) = some socket ∧ core.mask.subset socket.mask = true
  socket_subset : l.nodes ≠ [] → ∀ socket ∈ l.sockets, ∃ node,
    socket.node?.bind (l.nodes[·]?) = some node ∧ socket.mask.subset node.mask = true
  ids : ∀ kind, (l.entitiesOf kind).map (·.id) = List.range (l.entitiesOf kind).length
  ascends : ∀ kind ≠ .cache, Mask.Ascends ((l.entitiesOf kind).map (·.mask))

end Layout

namespace Parts

variable {p : Parts}

/-! ## One kind -/

namespace Divides

variable {owner? : Slot → Option Nat} {masks : List Mask}

/-- A mask that contains a CPU is the one that the CPU's slot names. -/
theorem owner_of_maskContains (h : p.Divides owner? masks) (tiled : p.Tiled) {id cpu : Nat}
    {mask : Mask} {slot : Slot} (hmask : masks[id]? = some mask) (hslot : p.slots[cpu]? = some slot)
    (hcpu : p.layout.maskContains mask cpu = true) : owner? slot = some id := by
  have howner := (h.mem_cpusOf_iff hmask cpu).mp (tiled.mem_cpusOf hcpu)
  rwa [ownerOf?, hslot, Option.bind_some] at howner

/-- An entity of the kind is a CPU's own exactly when its mask lists the CPU. -/
theorem own_iff_mem_cpusOf (h : p.Divides owner? masks) {role : Mask → EntityRole} {e : Entity}
    (he : e ∈ number masks role) (cpu : Nat) :
    ((p.ownerOf? owner? cpu).bind fun id => (number masks role)[id]?) = some e ↔
      cpu ∈ p.layout.cpusOf e.mask := by
  obtain ⟨hmask, hrole⟩ := mem_number.mp he
  rw [h.mem_cpusOf_iff hmask]
  constructor
  · intro hbind
    obtain ⟨id, hid, hget⟩ := Option.bind_eq_some_iff.mp hbind
    rw [getElem?_number] at hget
    obtain ⟨mask, -, rfl⟩ := Option.map_eq_some_iff.mp hget
    exact hid
  · intro hid
    rw [hid, Option.bind_some, getElem?_number_of role hmask, ← hrole]

/-- Of the entities of a kind only a CPU's own contains the CPU. -/
theorem filter_maskContains (h : p.Divides owner? masks) (holds : p.Holds owner? masks)
    (tiled : p.Tiled) (role : Mask → EntityRole) {cpu id : Nat} {slot : Slot} {mask : Mask}
    (hslot : p.slots[cpu]? = some slot) (hid : owner? slot = some id)
    (hmask : masks[id]? = some mask) :
    (number masks role).filter (fun e => p.layout.maskContains e.mask cpu) =
      [⟨id, mask, role mask⟩] := by
  have hmember : (⟨id, mask, role mask⟩ : Entity) ∈ number masks role :=
    mem_number.mpr ⟨hmask, rfl⟩
  -- being contained and being the owner come to the same, and no entity is there twice
  have hsame : ∀ e ∈ number masks role,
      p.layout.maskContains e.mask cpu = decide (e = ⟨id, mask, role mask⟩) := by
    intro e he
    refine Bool.eq_iff_iff.mpr (Iff.trans ?_ decide_eq_true_iff.symm)
    constructor
    · intro hcontained
      obtain ⟨hemask, herole⟩ := mem_number.mp he
      have hother := h.owner_of_maskContains tiled hemask hslot hcontained
      rw [hid] at hother
      cases Option.some.inj hother
      cases Option.some.inj (hmask.symm.trans hemask)
      rw [← herole]
    · rintro rfl
      exact holds hslot hid hmask
  have hnodup : (number masks role).Nodup := (nodup_id_number masks role).of_map (·.id)
  rw [List.filter_congr hsame, List.filter_eq, hnodup.count, if_pos hmember, List.replicate_one]

/-- A kind whose masks contain the CPUs that the slots name partitions the layout. -/
theorem partitions (h : p.Divides owner? masks) (holds : p.Holds owner? masks) (tiled : p.Tiled)
    {kind : EntityKind} {role : Mask → EntityRole}
    (hentities : p.layout.entitiesOf kind = number masks role)
    (hown : ∀ cpu, p.layout.entityForCpu? kind cpu =
      (p.ownerOf? owner? cpu).bind fun id => (number masks role)[id]?) :
    p.layout.Partitions kind := by
  refine ⟨fun cpu hcpu => ?_, fun e he => ?_, fun e he => ?_⟩
  · have hlt : cpu < p.slots.length := by rwa [tiled.slots_length]
    have hslot := List.getElem?_eq_getElem hlt
    obtain ⟨id, mask, hid, hmask, hcpus⟩ := h.owner hslot
    have hmember : (⟨id, mask, role mask⟩ : Entity) ∈ number masks role :=
      mem_number.mpr ⟨hmask, rfl⟩
    refine ⟨⟨id, mask, role mask⟩, ?_, ?_⟩
    · rw [hown, h.own_iff_mem_cpusOf hmember]
      exact hcpus
    · rw [hentities]
      exact h.filter_maskContains holds tiled role hslot hid hmask
  · have hmask := (mem_number.mp (hentities ▸ he)).1
    exact Layout.isEmpty_eq_false_of_cpusOf (h.inhabited _ (List.mem_of_getElem? hmask))
  · rw [hentities] at he
    refine (Layout.pairwise_cpusOf _ _).eq_of_mem_iff (List.pairwise_lt_range.filter _)
      fun cpu => ?_
    rw [List.mem_filter, List.mem_range, decide_eq_true_iff, hown, h.own_iff_mem_cpusOf he]
    refine (and_iff_right_of_imp fun hcpu => ?_).symm
    have howner := (h.mem_cpusOf_iff (mem_number.mp he).1 cpu).mp hcpu
    obtain ⟨slot, hslot, -⟩ := ownerOf?_eq_some_iff.mp howner
    exact tiled.lt_cpus hslot

end Divides

/-! ## How the kinds lie within each other -/

namespace Tiled

/-- What an entity takes from its first CPU holds of each of its CPUs, once the outer entity that it
names contains it. -/
theorem outer_contains {inner? outer? : Slot → Option Nat} {inners outers : List Mask}
    (tiled : p.Tiled) (hinners : p.Divides inner? inners) (holds : p.Holds inner? inners)
    (houters : p.Divides outer? outers) {id : Nat} {inner : Mask}
    (hinner : inners[id]? = some inner)
    (hfits : ∀ {first : Slot} {outerId : Nat} {outer : Mask}, p.firstSlot? inner = some first →
      outer? first = some outerId → outers[outerId]? = some outer → inner.subset outer = true) :
    ∃ first outerId outer, p.firstSlot? inner = some first ∧ outer? first = some outerId ∧
      outers[outerId]? = some outer ∧ inner.subset outer = true ∧
      ∀ {cpu : Nat} {slot : Slot}, p.slots[cpu]? = some slot → inner? slot = some id →
        outer? slot = some outerId ∧ p.layout.maskContains outer cpu = true := by
  obtain ⟨cpu, slot, hslot, hid⟩ := hinners.exists_cpu hinner
  obtain ⟨first, hfirst⟩ := exists_firstSlot? hslot (holds hslot hid hinner)
  obtain ⟨firstCpu, hfirstSlot, -⟩ := exists_cpu_of_firstSlot? hfirst
  obtain ⟨outerId, outer, houterId, houter, -⟩ := houters.owner hfirstSlot
  have hsub := hfits hfirst houterId houter
  refine ⟨first, outerId, outer, hfirst, houterId, houter, hsub, fun {cpu slot} hslot hid => ?_⟩
  have hcpu := Layout.maskContains_of_subset (holds hslot hid hinner) hsub
  exact ⟨houters.owner_of_maskContains tiled houter hslot hcpu, hcpu⟩

/-- Every CPU has a slot. -/
theorem exists_slot (tiled : p.Tiled) {cpu : Nat} (hcpu : cpu < p.layout.cpus) :
    ∃ slot, p.slots[cpu]? = some slot := by
  have hlt : cpu < p.slots.length := by rwa [tiled.slots_length]
  exact ⟨_, List.getElem?_eq_getElem hlt⟩

/-- The core that a slot names is there. -/
theorem exists_core (tiled : p.Tiled) {cpu : Nat} {slot : Slot}
    (hslot : p.slots[cpu]? = some slot) : ∃ core, p.coreMasks[slot.core]? = some core := by
  obtain ⟨id, core, hid, hcore, -⟩ := tiled.cores.owner hslot
  exact ⟨core, Option.some.inj hid ▸ hcore⟩

/-- The socket that a slot names is there. -/
theorem exists_socket (tiled : p.Tiled) {cpu : Nat} {slot : Slot}
    (hslot : p.slots[cpu]? = some slot) : ∃ socket, p.socketMasks[slot.socket]? = some socket := by
  obtain ⟨id, socket, hid, hsocket, -⟩ := tiled.sockets.owner hslot
  exact ⟨socket, Option.some.inj hid ▸ hsocket⟩

/-- The socket that a core names contains the core and is the socket of each of its CPUs. -/
theorem core_in_socket (tiled : p.Tiled) (hfits : p.layout.misplacement? = none) {id : Nat}
    {core : Mask} (hcore : p.coreMasks[id]? = some core) :
    ∃ socketId socket, p.coreRole core = .core socketId ∧ p.socketMasks[socketId]? = some socket ∧
      core.subset socket = true ∧ ∀ {cpu : Nat} {slot : Slot}, p.slots[cpu]? = some slot →
        slot.core = id → slot.socket = socketId ∧ p.layout.maskContains socket cpu = true := by
  have hrole : ∀ {first : Slot} {socketId : Nat}, p.firstSlot? core = some first →
      some first.socket = some socketId → p.coreRole core = .core socketId := by
    intro first socketId hfirst hsocketId
    rw [coreRole, hfirst, ← Option.some.inj hsocketId, Option.map_some, Option.getD_some]
  obtain ⟨first, socketId, socket, hfirst, hsocketId, hsocket, hsub, hcpus⟩ :=
    tiled.outer_contains tiled.cores tiled.cores_hold tiled.sockets hcore
      (fun {first socketId socket} hfirst hsocketId hsocket => by
        refine (Layout.misplacement?_eq_none_iff.mp hfits).1 ⟨id, core, p.coreRole core⟩
          (mem_number.mpr ⟨hcore, rfl⟩) ⟨socketId, socket, p.socketRole socket⟩ ?_
        rw [Entity.socket?, hrole hfirst hsocketId, Option.bind_some]
        exact getElem?_number_of _ hsocket)
  refine ⟨socketId, socket, hrole hfirst hsocketId, hsocket, hsub, fun hslot hid => ?_⟩
  obtain ⟨hsame, hcontains⟩ := hcpus hslot (congrArg some hid)
  exact ⟨Option.some.inj hsame, hcontains⟩

/-- The core of a CPU determines its socket. -/
theorem exists_socketOf (tiled : p.Tiled) (hfits : p.layout.misplacement? = none) :
    ∃ socketOf : Nat → Nat, ∀ slot ∈ p.slots, slot.socket = socketOf slot.core := by
  refine ⟨fun id => (p.layout.cores[id]?.bind (·.socket?)).getD 0, fun slot hslot => ?_⟩
  obtain ⟨cpu, hslot⟩ := List.mem_iff_getElem?.mp hslot
  obtain ⟨core, hcore⟩ := tiled.exists_core hslot
  obtain ⟨socketId, _, hrole, -, -, hcpus⟩ := tiled.core_in_socket hfits hcore
  have hentity : p.layout.cores[slot.core]? = some ⟨slot.core, core, p.coreRole core⟩ :=
    getElem?_number_of p.coreRole hcore
  beta_reduce
  rw [hentity, Option.bind_some, Entity.socket?, hrole, Option.getD_some]
  exact (hcpus hslot rfl).1

/-- The mask of a CPU lies in the mask of its socket. -/
theorem sockets_hold (tiled : p.Tiled) (hfits : p.layout.misplacement? = none) :
    p.Holds (some ·.socket) p.socketMasks := by
  intro cpu id slot socket hslot hid hsocket
  obtain ⟨core, hcore⟩ := tiled.exists_core hslot
  obtain ⟨socketId, other, -, hother, -, hcpus⟩ := tiled.core_in_socket hfits hcore
  obtain ⟨rfl, hcontains⟩ := hcpus hslot rfl
  cases Option.some.inj hid
  exact Option.some.inj (hother.symm.trans hsocket) ▸ hcontains

/-- The node that a socket names contains the socket and is the node of each of its CPUs. -/
theorem socket_in_node (tiled : p.Tiled) (hfits : p.layout.misplacement? = none)
    (hnodes : p.nodeMasks ≠ []) {id : Nat} {socket : Mask}
    (hsocket : p.socketMasks[id]? = some socket) :
    ∃ nodeId node, p.socketRole socket = .socket (some nodeId) ∧
      p.nodeMasks[nodeId]? = some node ∧ socket.subset node = true ∧
      ∀ {cpu : Nat} {slot : Slot}, p.slots[cpu]? = some slot → slot.socket = id →
        slot.node = some nodeId ∧ p.layout.maskContains node cpu = true := by
  have hrole : ∀ {first : Slot} {nodeId : Nat}, p.firstSlot? socket = some first →
      first.node = some nodeId → p.socketRole socket = .socket (some nodeId) := by
    intro first nodeId hfirst hnode
    rw [socketRole, if_neg (by simpa using hnodes), hfirst, Option.bind_some, hnode,
      Option.getD_some]
  obtain ⟨first, nodeId, node, hfirst, hnodeId, hnode, hsub, hcpus⟩ :=
    tiled.outer_contains tiled.sockets (tiled.sockets_hold hfits) (tiled.nodes hnodes) hsocket
      (fun {first nodeId node} hfirst hnodeId hnode => by
        refine (Layout.misplacement?_eq_none_iff.mp hfits).2 ⟨id, socket, p.socketRole socket⟩
          (mem_number.mpr ⟨hsocket, rfl⟩) ⟨nodeId, node, .node⟩ ?_
        rw [Entity.node?, hrole hfirst hnodeId, Option.bind_some]
        exact getElem?_number_of (fun _ => .node) hnode)
  refine ⟨nodeId, node, hrole hfirst hnodeId, hnode, hsub, fun hslot hid => ?_⟩
  exact hcpus hslot (congrArg some hid)

/-- CPUs of one socket have one node. -/
theorem node_eq_of_socket_eq (tiled : p.Tiled) (hfits : p.layout.misplacement? = none)
    (hnone : p.nodeMasks = [] → ∀ slot ∈ p.slots, slot.node = none) :
    ∀ a ∈ p.slots, ∀ b ∈ p.slots, a.socket = b.socket → a.node = b.node := by
  intro a ha b hb hsame
  by_cases hnodes : p.nodeMasks = []
  · rw [hnone hnodes a ha, hnone hnodes b hb]
  · obtain ⟨cpu, hslot⟩ := List.mem_iff_getElem?.mp ha
    obtain ⟨other, hother⟩ := List.mem_iff_getElem?.mp hb
    obtain ⟨socket, hsocket⟩ := tiled.exists_socket hslot
    obtain ⟨nodeId, _, -, -, -, hcpus⟩ := tiled.socket_in_node hfits hnodes hsocket
    rw [(hcpus hslot rfl).1, (hcpus hother hsame.symm).1]

/-- The mask of a CPU lies in the mask of its node. -/
theorem nodes_hold (tiled : p.Tiled) (hfits : p.layout.misplacement? = none)
    (hnodes : p.nodeMasks ≠ []) : p.Holds (·.node) p.nodeMasks := by
  intro cpu id slot node hslot hid hnode
  obtain ⟨socket, hsocket⟩ := tiled.exists_socket hslot
  obtain ⟨nodeId, other, -, hother, -, hcpus⟩ := tiled.socket_in_node hfits hnodes hsocket
  obtain ⟨hsame, hcontains⟩ := hcpus hslot rfl
  cases Option.some.inj (hid.symm.trans hsame)
  exact Option.some.inj (hother.symm.trans hnode) ▸ hcontains

/-- With bit-sets, a mask lies inside another as soon as the slots of its CPUs all name that. -/
theorem subset_of_nested {inner? outer? : Slot → Option Nat} {inners outers : List Mask}
    (tiled : p.Tiled) (hinners : p.Divides inner? inners) (houters : p.Divides outer? outers)
    (hnested : ∀ a ∈ p.slots, ∀ b ∈ p.slots, inner? a = inner? b → outer? a = outer? b)
    {id outerId : Nat} {inner outer : Mask} {first : Slot} (hinner : inners[id]? = some inner)
    (houter : outers[outerId]? = some outer) (hinnerBits : inner.isGroup = false)
    (houterBits : outer.isGroup = false) (hfirst : p.firstSlot? inner = some first)
    (hfirstOuter : outer? first = some outerId) : inner.subset outer = true := by
  obtain ⟨firstCpu, hfirstSlot, hcontains⟩ := exists_cpu_of_firstSlot? hfirst
  have hfirstInner := hinners.owner_of_maskContains tiled hinner hfirstSlot hcontains
  refine (Mask.subset_iff (Mask.sameSpace_of_bitsets hinnerBits houterBits)).mpr fun cpu hcpu => ?_
  obtain ⟨slot, hslot, hid⟩ := ownerOf?_eq_some_iff.mp
    ((hinners.mem_cpusOf_iff hinner cpu).mp ((Layout.mem_cpusOf_bitset hinnerBits).mpr hcpu))
  have hsame := hnested slot (List.mem_of_getElem? hslot) first (List.mem_of_getElem? hfirstSlot)
    (hid.trans hfirstInner.symm)
  refine (Layout.mem_cpusOf_bitset houterBits).mp ((houters.mem_cpusOf_iff houter cpu).mpr ?_)
  exact ownerOf?_eq_some_iff.mpr ⟨slot, hslot, hsame.trans hfirstOuter⟩

/-- With bit-sets, the cores lie in their sockets if CPUs of one core name one socket. -/
theorem cores_fit (tiled : p.Tiled) (hcoreBits : ∀ mask ∈ p.coreMasks, mask.isGroup = false)
    (hsocketBits : ∀ mask ∈ p.socketMasks, mask.isGroup = false)
    (hcores : ∀ a ∈ p.slots, ∀ b ∈ p.slots, a.core = b.core → a.socket = b.socket) {core : Entity}
    (hcore : core ∈ p.layout.cores) {socket : Entity}
    (hsocket : core.socket?.bind (p.layout.sockets[·]?) = some socket) :
    core.mask.subset socket.mask = true := by
  obtain ⟨hmask, hrole⟩ := mem_number.mp hcore
  obtain ⟨cpu, slot, hslot, hid⟩ := tiled.cores.exists_cpu hmask
  obtain ⟨first, hfirst⟩ := exists_firstSlot? hslot (tiled.cores_hold hslot hid hmask)
  have hsocketId : core.socket? = some first.socket := by
    rw [Entity.socket?, hrole, coreRole, hfirst, Option.map_some, Option.getD_some]
  rw [hsocketId, Option.bind_some] at hsocket
  obtain ⟨outer, houter, rfl⟩ := Option.map_eq_some_iff.mp
    ((getElem?_number first.socket).symm.trans hsocket)
  exact tiled.subset_of_nested tiled.cores tiled.sockets
    (fun a ha b hb hsame => congrArg some (hcores a ha b hb (Option.some.inj hsame))) hmask houter
    (hcoreBits _ (List.mem_of_getElem? hmask)) (hsocketBits _ (List.mem_of_getElem? houter))
    hfirst rfl

/-- With bit-sets, a socket names the node of one of its CPUs. -/
theorem exists_cpu_of_node? (tiled : p.Tiled)
    (hsingles : p.cpuMasks = (List.range p.slots.length).map (Mask.single p.slots.length))
    (hsocketBits : ∀ mask ∈ p.socketMasks, mask.isGroup = false) {socket node : Entity}
    (hsocket : socket ∈ p.layout.sockets)
    (hnode : socket.node?.bind (p.layout.nodes[·]?) = some node) :
    ∃ cpu first, p.slots[cpu]? = some first ∧ p.firstSlot? socket.mask = some first ∧
      p.layout.maskContains socket.mask cpu = true ∧ first.node = some node.id ∧
      socket.node? = some node.id ∧ p.nodeMasks[node.id]? = some node.mask ∧ node.role = .node := by
  obtain ⟨hmask, hrole⟩ := mem_number.mp hsocket
  have hnodes : p.nodeMasks ≠ [] := by
    intro hnil
    simp [layout, number, hnil] at hnode
  obtain ⟨cpu, slot, hslot, hid⟩ := tiled.sockets.exists_cpu hmask
  obtain ⟨first, hfirst⟩ := exists_firstSlot? hslot
    (tiled.sockets.holds_of_bitsets hsingles hsocketBits hslot hid hmask)
  obtain ⟨firstCpu, hfirstSlot, hcontains⟩ := exists_cpu_of_firstSlot? hfirst
  obtain ⟨nodeId, outer, hnodeId, houter, -⟩ := (tiled.nodes hnodes).owner hfirstSlot
  have hnamed : socket.node? = some nodeId := by
    rw [Entity.node?, hrole, socketRole, if_neg (by simpa using hnodes), hfirst,
      Option.bind_some, hnodeId, Option.getD_some]
  rw [hnamed, Option.bind_some] at hnode
  cases Option.some.inj ((getElem?_number_of (fun _ => .node) houter).symm.trans hnode)
  exact ⟨firstCpu, first, hfirstSlot, hfirst, hcontains, hnodeId, hnamed, houter, rfl⟩

/-- With bit-sets, the sockets lie in their nodes if CPUs of one socket name one node. -/
theorem sockets_fit (tiled : p.Tiled)
    (hsingles : p.cpuMasks = (List.range p.slots.length).map (Mask.single p.slots.length))
    (hsocketBits : ∀ mask ∈ p.socketMasks, mask.isGroup = false)
    (hnodeBits : ∀ mask ∈ p.nodeMasks, mask.isGroup = false)
    (hsockets : ∀ a ∈ p.slots, ∀ b ∈ p.slots, a.socket = b.socket → a.node = b.node)
    {socket node : Entity} (hsocket : socket ∈ p.layout.sockets)
    (hnode : socket.node?.bind (p.layout.nodes[·]?) = some node) :
    socket.mask.subset node.mask = true := by
  obtain ⟨hmask, -⟩ := mem_number.mp hsocket
  obtain ⟨_, first, -, hfirst, -, hnodeId, -, houter, -⟩ :=
    tiled.exists_cpu_of_node? hsingles hsocketBits hsocket hnode
  exact tiled.subset_of_nested tiled.sockets (tiled.nodes (List.ne_nil_of_mem
      (List.mem_of_getElem? houter)))
    (fun a ha b hb hsame => hsockets a ha b hb (Option.some.inj hsame)) hmask houter
    (hsocketBits _ (List.mem_of_getElem? hmask)) (hnodeBits _ (List.mem_of_getElem? houter))
    hfirst hnodeId

/-- With bit-sets, the kinds lie within each other if the slots say so: CPUs of one core name one
socket and CPUs of one socket one node. -/
theorem misplacement?_eq_none (tiled : p.Tiled)
    (hsingles : p.cpuMasks = (List.range p.slots.length).map (Mask.single p.slots.length))
    (hbitsets : ∀ mask ∈ p.coreMasks ++ p.socketMasks ++ p.nodeMasks, mask.isGroup = false)
    (hcores : ∀ a ∈ p.slots, ∀ b ∈ p.slots, a.core = b.core → a.socket = b.socket)
    (hsockets : ∀ a ∈ p.slots, ∀ b ∈ p.slots, a.socket = b.socket → a.node = b.node) :
    p.layout.misplacement? = none := by
  simp only [List.mem_append, or_imp, forall_and] at hbitsets
  obtain ⟨⟨hcoreBits, hsocketBits⟩, hnodeBits⟩ := hbitsets
  exact Layout.misplacement?_eq_none_iff.mpr
    ⟨fun core hcore socket hsocket => tiled.cores_fit hcoreBits hsocketBits hcores hcore hsocket,
      fun socket hsocket node hnode =>
        tiled.sockets_fit hsingles hsocketBits hnodeBits hsockets hsocket hnode⟩

/-! ## The whole layout -/

/-- The cores divide the CPUs among them. -/
theorem partitions_core (tiled : p.Tiled) : p.layout.Partitions .core := by
  refine tiled.cores.partitions tiled.cores_hold tiled rfl fun cpu => ?_
  rw [ownerOf?, Option.bind_assoc]
  rfl

/-- The sockets divide the CPUs among them. -/
theorem partitions_socket (tiled : p.Tiled) (hfits : p.layout.misplacement? = none) :
    p.layout.Partitions .socket := by
  refine tiled.sockets.partitions (tiled.sockets_hold hfits) tiled rfl fun cpu => ?_
  rw [ownerOf?, Option.bind_assoc]
  rfl

/-- The nodes divide the CPUs among them, if any are reported. -/
theorem partitions_node (tiled : p.Tiled) (hfits : p.layout.misplacement? = none)
    (hnodes : p.nodeMasks ≠ []) : p.layout.Partitions .node := by
  have hentities : p.layout.entitiesOf .node = number p.nodeMasks fun _ => .node := rfl
  refine (tiled.nodes hnodes).partitions (tiled.nodes_hold hfits hnodes) tiled hentities
    fun cpu => ?_
  rw [ownerOf?, Option.bind_assoc]
  rfl

/-- The core of a CPU says that it lies in the socket of the CPU. -/
theorem socket_of_core (tiled : p.Tiled) (hfits : p.layout.misplacement? = none) {cpu : Nat}
    (hcpu : cpu < p.layout.cpus) : ∃ core socket, p.layout.coreOf? cpu = some core ∧
      p.layout.socketOf? cpu = some socket ∧ core.socket? = some socket.id := by
  obtain ⟨slot, hslot⟩ := tiled.exists_slot hcpu
  obtain ⟨core, hcore⟩ := tiled.exists_core hslot
  obtain ⟨socket, hsocket⟩ := tiled.exists_socket hslot
  obtain ⟨socketId, _, hrole, -, -, hcpus⟩ := tiled.core_in_socket hfits hcore
  refine ⟨_, _, coreOf?_of hslot hcore, socketOf?_of hslot hsocket, ?_⟩
  rw [Entity.socket?, hrole, (hcpus hslot rfl).1]

/-- The socket of a CPU says that it lies in the node of the CPU. -/
theorem node_of_socket (tiled : p.Tiled) (hfits : p.layout.misplacement? = none) {cpu : Nat}
    (hcpu : cpu < p.layout.cpus) : ∃ socket, p.layout.socketOf? cpu = some socket ∧
      socket.node? = (p.layout.nodeOf? cpu).map (·.id) := by
  obtain ⟨slot, hslot⟩ := tiled.exists_slot hcpu
  obtain ⟨socket, hsocket⟩ := tiled.exists_socket hslot
  refine ⟨_, socketOf?_of hslot hsocket, ?_⟩
  by_cases hnodes : p.nodeMasks = []
  · have hnone : p.layout.nodeOf? cpu = none := by simp [Layout.nodeOf?, layout, number, hnodes]
    rw [hnone, Entity.node?, socketRole, if_pos (by simpa using hnodes), Option.map_none]
  · obtain ⟨nodeId, node, hrole, hnode, -, hcpus⟩ := tiled.socket_in_node hfits hnodes hsocket
    rw [nodeOf?_of hslot (hcpus hslot rfl).1 hnode, Entity.node?, hrole, Option.map_some]

/-- Each core lies in a socket with all of its CPUs. -/
theorem core_subset (tiled : p.Tiled) (hfits : p.layout.misplacement? = none) {core : Entity}
    (hcore : core ∈ p.layout.cores) : ∃ socket,
      core.socket?.bind (p.layout.sockets[·]?) = some socket ∧
        core.mask.subset socket.mask = true := by
  obtain ⟨hmask, hrole⟩ := mem_number.mp hcore
  obtain ⟨socketId, socket, hsocketId, hsocket, hsub, -⟩ := tiled.core_in_socket hfits hmask
  refine ⟨⟨socketId, socket, p.socketRole socket⟩, ?_, hsub⟩
  rw [Entity.socket?, hrole, hsocketId, Option.bind_some]
  exact getElem?_number_of _ hsocket

/-- Each socket lies in a node with all of its CPUs. -/
theorem socket_subset (tiled : p.Tiled) (hfits : p.layout.misplacement? = none)
    (hnodes : p.nodeMasks ≠ []) {socket : Entity} (hsocket : socket ∈ p.layout.sockets) :
    ∃ node, socket.node?.bind (p.layout.nodes[·]?) = some node ∧
      socket.mask.subset node.mask = true := by
  obtain ⟨hmask, hrole⟩ := mem_number.mp hsocket
  obtain ⟨nodeId, node, hnodeId, hnode, hsub, -⟩ := tiled.socket_in_node hfits hnodes hmask
  refine ⟨⟨nodeId, node, .node⟩, ?_, hsub⟩
  rw [Entity.node?, hrole, hnodeId, Option.bind_some]
  exact getElem?_number_of (fun _ => .node) hnode

/-- The entities of a kind other than caches are in the order of their masks. -/
theorem ascends (tiled : p.Tiled) {kind : EntityKind} (hkind : kind ≠ .cache) :
    Mask.Ascends ((p.layout.entitiesOf kind).map (·.mask)) := by
  cases kind with
  | group => exact ascends_number (fun _ => .group) tiled.groups_ascend
  | node =>
    by_cases hnodes : p.nodeMasks = []
    · exact ascends_number (fun _ => .node) (hnodes.symm ▸ List.Pairwise.nil)
    · exact ascends_number (fun _ => .node) (tiled.nodes hnodes).ascends
  | socket => exact ascends_number p.socketRole tiled.sockets.ascends
  | core => exact ascends_number p.coreRole tiled.cores.ascends
  | cache => exact absurd rfl hkind

/-- Tiled parts that fit together make a complete layout. -/
theorem complete (tiled : p.Tiled) (hfits : p.layout.misplacement? = none) :
    p.layout.Complete := by
  have hmasks : p.layout.nodes ≠ [] → p.nodeMasks ≠ [] := by
    intro hnodes hnil
    exact hnodes (by simp [layout, number, hnil])
  exact
    { cores := tiled.partitions_core
      sockets := tiled.partitions_socket hfits
      nodes := fun hnodes => tiled.partitions_node hfits (hmasks hnodes)
      physicalCore := by
        intro cpu hcpu
        obtain ⟨slot, hslot⟩ := tiled.exists_slot hcpu
        obtain ⟨core, hcore⟩ := tiled.exists_core hslot
        exact ⟨_, coreOf?_of hslot hcore, Layout.physicalCore_eq_ok_iff.mpr ⟨slot, hslot, rfl⟩⟩
      socket_of_core := fun _ hcpu => tiled.socket_of_core hfits hcpu
      node_of_socket := fun _ hcpu => tiled.node_of_socket hfits hcpu
      core_subset := fun _ hcore => tiled.core_subset hfits hcore
      socket_subset := fun hnodes _ hsocket => tiled.socket_subset hfits (hmasks hnodes) hsocket
      ids := p.map_id_entitiesOf
      ascends := fun _ hkind => tiled.ascends hkind }

end Tiled

end Parts

end CpuPlacement
