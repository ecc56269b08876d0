import CpuPlacement.Layout.Basic
import CpuPlacement.Layout.Error
import CpuPlacement.Layout.Numbering

/-!
# Assembling a layout

Whatever the source, building a layout ends here. The parts are the slot and the mask of every CPU
and the masks of the entities of each kind in id order. They make a layout where the CPUs fill a
grid of sockets, cores and threads, every core lies within its socket and every socket within its
node. An entity's socket or node is that of its first CPU.
-/

set_option autoImplicit false

namespace CpuPlacement

/-- What a layout is assembled from. -/
structure Parts where
  descriptors : List Descriptor
  slots : List Slot
  cpuMasks : List Mask
  groupMasks : List Mask
  nodeMasks : List Mask
  socketMasks : List Mask
  coreMasks : List Mask
  caches : List (Mask × Cache)
  groupBases : List (Nat × Nat)

namespace Parts

def socketCount (p : Parts) : Nat := p.socketMasks.length

/-- The cores of a socket, if all sockets have as many. -/
def coresPerSocket (p : Parts) : Nat := p.coreMasks.length / max p.socketCount 1

/-- The distinct thread ids of the machine. -/
def threadsPerCore (p : Parts) : Nat :=
  (Numbering.classes (p.descriptors.map (·.threadId))).length

/-- The CPUs are as many as the grid has places. -/
def fillsGrid (p : Parts) : Bool :=
  p.descriptors.length == p.socketCount * p.coresPerSocket * p.threadsPerCore

/-- The slot of the first CPU of a mask. -/
def firstSlot? (p : Parts) (mask : Mask) : Option Slot :=
  ((p.slots.zip p.cpuMasks).find? fun (_, single) => single.subset mask).map (·.1)

/-- Entities for masks that are listed in id order. -/
def number (masks : List Mask) (role : Mask → EntityRole) : List Entity :=
  masks.zipIdx.map fun (mask, id) => ⟨id, mask, role mask⟩

def socketRole (p : Parts) (mask : Mask) : EntityRole :=
  .socket <|
    if p.nodeMasks.isEmpty then none else some (((p.firstSlot? mask).bind (·.node)).getD 0)

def coreRole (p : Parts) (mask : Mask) : EntityRole :=
  .core (((p.firstSlot? mask).map (·.socket)).getD 0)

/-- The layout that the parts make, whether or not they fit together. -/
def layout (p : Parts) : Layout where
  descriptors := p.descriptors
  slots := p.slots
  cpuMasks := p.cpuMasks
  groups := number p.groupMasks fun _ => .group
  nodes := number p.nodeMasks fun _ => .node
  sockets := number p.socketMasks p.socketRole
  cores := number p.coreMasks p.coreRole
  caches := p.caches.zipIdx.map fun ((mask, info), id) => ⟨id, mask, .cache info⟩
  groupBases := p.groupBases
  socketCount := p.socketCount
  coresPerSocket := p.coresPerSocket
  threadsPerCore := p.threadsPerCore

end Parts

namespace Layout

/-- The entity is not inside the one that should hold it. -/
def escapes? (inner : Entity) (outer : Option Entity) : Option Misplacement :=
  outer.bind fun outer => if outer.contains inner then none else some (.notInside inner outer)

/-- The first core that is not inside its socket, or else the first socket not inside its node. -/
def misplacement? (l : Layout) : Option Misplacement :=
  let ofCore (core : Entity) := escapes? core (core.socket?.bind fun id => l.sockets[id]?)
  let ofSocket (socket : Entity) := escapes? socket (socket.node?.bind fun id => l.nodes[id]?)
  (l.cores.findSome? ofCore).or (l.sockets.findSome? ofSocket)

end Layout

/-- The layout of parts that fit together. -/
def Parts.assemble (p : Parts) : Except LayoutError Layout :=
  if !p.fillsGrid then
    .error (.inconsistentCounts p.socketCount p.coresPerSocket p.threadsPerCore p.descriptors)
  else
    let l := p.layout
    match l.misplacement? with
    | some cause => .error (.misplaced cause)
    | none => .ok l

end CpuPlacement
