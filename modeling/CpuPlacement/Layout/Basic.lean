import CpuPlacement.Descriptor
import CpuPlacement.Layout.Entity

/-!
# Layouts

A layout is the topology of one machine: the descriptor of every logical CPU, the entities of each
kind in id order, and for every CPU its slot, which says by id which entities it belongs to, and its
own mask. On a machine with processor groups the masks are group masks, and `groupBases` gives for
each group, by the number that the operating system has for it, the machine-wide number of the CPU
at its position 0; elsewhere the masks are bit-sets and there are no bases.

The queries about a CPU come in two forms. `slots[cpu]?` and what is built on it answers `none` for
a CPU that the layout does not have; `atCpu` calls it a fault.
-/

set_option autoImplicit false

namespace CpuPlacement

/-- The entities of one logical CPU, by id. -/
structure Slot where
  socket : Nat
  core : Nat
  node : Option Nat
  group : Option Nat
deriving DecidableEq, Repr

/-- The topology of one machine. -/
structure Layout where
  descriptors : List Descriptor
  slots : List Slot
  cpuMasks : List Mask
  groups : List Entity
  nodes : List Entity
  sockets : List Entity
  cores : List Entity
  caches : List Entity
  groupBases : List (Nat × Nat)
  socketCount : Nat
  coresPerSocket : Nat
  threadsPerCore : Nat
deriving DecidableEq, Repr

namespace Layout

/-- The number of logical CPUs. -/
def cpus (l : Layout) : Nat :=
  l.descriptors.length

/-- The layouts describe the same machine: the same descriptor for every CPU. -/
def sameMachine (a b : Layout) : Bool :=
  a.descriptors == b.descriptors

/-- One line for each CPU. -/
def text (l : Layout) : String :=
  Descriptor.listing l.descriptors

/-- The masks are group masks. -/
def isGrouped (l : Layout) : Bool :=
  !l.groupBases.isEmpty

/-- The machine-wide number of a group's position 0. -/
def groupBase? (l : Layout) (id : Nat) : Option Nat :=
  l.groupBases.lookup id

/-! ## What one CPU is and belongs to -/

/-- What a list by CPU holds for the CPU. -/
def atCpu {α : Type} (values : List α) (cpu : Nat) : Except Fault α :=
  match values[cpu]? with
  | some value => .ok value
  | none => .error (.noCpu values.length cpu)

/-- The descriptor of a CPU that the caller knows to be there. -/
def descriptor (l : Layout) (cpu : Nat) : Except Fault Descriptor :=
  atCpu l.descriptors cpu

/-- The machine-wide id of a CPU's core. -/
def physicalCore (l : Layout) (cpu : Nat) : Except Fault Nat :=
  return (← atCpu l.slots cpu).core

/-- The mask of one CPU in the family of the layout. -/
def cpuMask (l : Layout) (cpu : Nat) : Except Fault Mask :=
  atCpu l.cpuMasks cpu

def socketOf? (l : Layout) (cpu : Nat) : Option Entity :=
  l.slots[cpu]?.bind fun slot => l.sockets[slot.socket]?

def coreOf? (l : Layout) (cpu : Nat) : Option Entity :=
  l.slots[cpu]?.bind fun slot => l.cores[slot.core]?

def nodeOf? (l : Layout) (cpu : Nat) : Option Entity :=
  l.slots[cpu]?.bind fun slot => slot.node.bind fun node => l.nodes[node]?

def groupOf? (l : Layout) (cpu : Nat) : Option Entity :=
  l.slots[cpu]?.bind fun slot => slot.group.bind fun group => l.groups[group]?

/-! ## Masks and CPUs -/

/-- The mask, of the layout's family, selects the CPU. -/
def maskContains (l : Layout) (mask : Mask) (cpu : Nat) : Bool :=
  l.cpuMasks[cpu]?.any (·.subset mask)

/-- The checked form, for any mask. -/
def maskContains? (l : Layout) (mask : Mask) (cpu : Nat) : Except Fault Bool :=
  match l.cpuMasks[cpu]? with
  | some single => single.subset? mask
  | none => .ok false

/-- The machine-wide numbers of the CPUs that a mask selects; none for a group that is not there. -/
def cpusOf (l : Layout) (mask : Mask) : List Nat :=
  match mask with
  | .bitset _ _ => mask.indices
  | .group id _ =>
    match l.groupBase? id with
    | some base => mask.indices.map (base + ·)
    | none => []

/-! ## Entities -/

/-- The entities of one kind in id order. -/
def entitiesOf (l : Layout) : EntityKind → List Entity
  | .group => l.groups
  | .node => l.nodes
  | .socket => l.sockets
  | .core => l.cores
  | .cache => l.caches

/-- Every entity: groups, nodes, sockets, cores, then caches, each in id order. -/
def entities (l : Layout) : List Entity :=
  EntityKind.all.flatMap l.entitiesOf

def entity? (l : Layout) (kind : EntityKind) (id : Nat) : Option Entity :=
  (l.entitiesOf kind)[id]?

/-- The number of logical CPUs of a core; 0 for a core that is not there. -/
def threadsOfCore (l : Layout) (core : Nat) : Nat :=
  (l.cores[core]?.map (·.cardinality)).getD 0

/-- The entity of a kind that the CPU belongs to; of several caches the first. -/
def entityForCpu? (l : Layout) (kind : EntityKind) (cpu : Nat) : Option Entity :=
  match kind with
  | .group => l.groupOf? cpu
  | .node => l.nodeOf? cpu
  | .socket => l.socketOf? cpu
  | .core => l.coreOf? cpu
  | .cache => l.caches.find? fun c => l.maskContains c.mask cpu

/-- The caches of a level that serve a CPU. -/
def cachesServing (l : Layout) (cpu level : Nat) : List Entity :=
  l.caches.filter fun c => c.isCacheLevel level && l.maskContains c.mask cpu

/-- The cache of a level that serves a CPU; of several the one whose kind comes first. -/
def cacheFor? (l : Layout) (cpu level : Nat) : Option Entity :=
  CacheKind.all.findSome? fun kind =>
    (l.cachesServing cpu level).find? fun c => c.cache?.any (·.kind == kind)

/-- The caches that serve the whole of a core. -/
def cachesForCore (l : Layout) (core : Nat) : List Entity :=
  match l.cores[core]? with
  | some core => l.caches.filter (·.contains core)
  | none => []

/-- The CPUs of a core, in the order of their thread ids. -/
def siblings (l : Layout) (core : Nat) : List Nat :=
  let members := l.slots.zipIdx.filterMap fun (slot, cpu) =>
    if slot.core = core then some cpu else none
  let threadId cpu := (l.descriptors[cpu]?.map (·.threadId)).getD 0
  members.mergeSort fun a b => threadId a ≤ threadId b

end Layout

end CpuPlacement
