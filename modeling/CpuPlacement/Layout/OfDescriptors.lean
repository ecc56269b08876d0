import CpuPlacement.Layout.Assembly

/-!
# Layouts from descriptors

CPUs with one socket id share a socket, CPUs with one socket id and one core id share a core. Nodes
and groups exist only where the descriptors report them, and then every descriptor must. The masks
are bit-sets as long as the machine has CPUs.
-/

set_option autoImplicit false

namespace CpuPlacement.Layout

/-- An attribute that every CPU reports, or none does; otherwise the first CPU that does not. -/
def uniform? (attribute? : Descriptor → Option Nat) (kind : RecordKind) (cpus : List Descriptor) :
    Except LayoutError (Option (List Nat)) :=
  let reported := cpus.map attribute?
  if reported.all (·.isNone) then .ok none
  else
    match reported.findIdx? (·.isNone) with
    | some cpu => .error (.uncovered cpu kind)
    | none => .ok (some (reported.filterMap id))

/-- The numbers by CPU of an attribute that may not be reported at all. -/
def optionalNumbers (count : Nat) (keys : Option (List Nat)) : List (Option Nat) :=
  match keys with
  | some keys => (Numbering.numbers keys).map some
  | none => List.replicate count none

/-- The masks of an attribute that may not be reported at all. -/
def optionalMasks (keys : Option (List Nat)) : List Mask :=
  (keys.map Numbering.masks).getD []

/-- The parts of a list of descriptors, given the node and the group of every CPU if there are any.
-/
def partsOfDescriptors (cpus : List Descriptor) (nodes groups : Option (List Nat)) : Parts :=
  let count := cpus.length
  let sockets := cpus.map (·.socketId)
  let cores := cpus.map fun d => (d.socketId, d.coreId)
  let places := (Numbering.numbers sockets).zip (Numbering.numbers cores)
  let regions := (optionalNumbers count nodes).zip (optionalNumbers count groups)
  { descriptors := cpus
    slots := (places.zip regions).map fun ((socket, core), node, group) =>
      { socket, core, node, group }
    cpuMasks := (List.range count).map (Mask.single count)
    groupMasks := optionalMasks groups
    nodeMasks := optionalMasks nodes
    socketMasks := Numbering.masks sockets
    coreMasks := Numbering.masks cores
    caches := []
    groupBases := [] }

/-- The layout of the described CPUs. -/
def ofDescriptors (cpus : List Descriptor) : Except LayoutError Layout := do
  if cpus.isEmpty then throw .empty
  let nodes ← uniform? (·.nodeId) .node cpus
  let groups ← uniform? (·.groupId) .group cpus
  (partsOfDescriptors cpus nodes groups).assemble

end CpuPlacement.Layout
