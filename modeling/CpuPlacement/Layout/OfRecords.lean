import CpuPlacement.Layout.Assembly
import CpuPlacement.Sorted

/-!
# Layouts from relationship records

The records of one kind give the entities of that kind, numbered in the numeric order of their
masks; repeated masks count once. The masks are bit-sets throughout or group masks throughout.

Group masks are turned into machine-wide CPU numbers by placing the groups one behind the other, by
ascending group number, each as wide as it has CPUs. Where no record names the groups, a group spans
everything that is reported in it. With bit-sets the machine reaches up to the highest CPU of a
package or a core.

Every CPU must lie in one core and one package, and in one node and one group where there are any.
The threads of a core are counted in the order of their CPU numbers.
-/

set_option autoImplicit false

namespace CpuPlacement

/-! ## The masks of the records -/

namespace Record

/-- The distinct masks of a relationship in ascending order. -/
def masksOf (records : List Record) (relationship : Relationship) : List Mask :=
  Mask.orderedSet ((records.filter (·.relationship = relationship)).map (·.mask))

/-- The mask and the parameters of a record that describes a cache. -/
def cache? (r : Record) : Option (Mask × Cache) :=
  match r.relationship with
  | .cache info => some (r.mask, info)
  | _ => none

/-- Caches are listed by mask, level and kind. -/
def cacheCmp (a b : Mask × Cache) : Ordering :=
  (a.1.cmp b.1).then <| (compare a.2.level b.2.level).then (compare a.2.kind.rank b.2.kind.rank)

def sameCache (a b : Mask × Cache) : Bool :=
  a.1.same b.1 && a.2 == b.2

/-- The caches in their order, neighbours that are the same taken once. -/
def cachesOf (records : List Record) : List (Mask × Cache) :=
  withoutRepeats sameCache (sortedBy cacheCmp (records.filterMap cache?))

/-! ## Processor groups -/

/-- Adds positions to the span of a group, in a list of spans that ascends by group. -/
def addSpan (id : Nat) (bits : BitVec 64) : List (Nat × BitVec 64) → List (Nat × BitVec 64)
  | [] => [(id, bits)]
  | (other, span) :: rest =>
    if id < other then (id, bits) :: (other, span) :: rest
    else if id = other then (other, span ||| bits) :: rest
    else (other, span) :: addSpan id bits rest

/-- For each group everything that is reported in it, by ascending group. -/
def groupSpans (records : List Record) : List Mask :=
  let spans := records.foldl (fun spans r =>
    match r.mask with
    | .group id bits => addSpan id bits spans
    | .bitset _ _ => spans) []
  spans.map fun (id, bits) => .group id bits

/-- The masks of the groups: as recorded, or else as far as the records of a grouped machine reach.
-/
def groupMasks (grouped : Bool) (records : List Record) : List Mask :=
  let recorded := masksOf records .group
  if grouped && recorded.isEmpty then groupSpans records else recorded

end Record

/-! ## Machine-wide CPU numbers -/

/-- How the positions in masks become machine-wide CPU numbers. -/
structure CpuNumbering where
  /-- For each group the number of the CPU at its position 0; empty where masks are bit-sets. -/
  bases : List (Nat × Nat)
  /-- The number of CPUs. -/
  total : Nat

namespace CpuNumbering

/-- Groups placed one behind the other, from a first number on. -/
def ofGroups : Nat → List Mask → CpuNumbering
  | next, [] => ⟨[], next⟩
  | next, mask :: rest =>
    let others := ofGroups (next + mask.cardinality) rest
    match mask with
    | .group id _ => ⟨(id, next) :: others.bases, others.total⟩
    | .bitset _ _ => others

/-- Bit-sets number the CPUs themselves, up to the highest one in a mask. -/
def ofBitsets (masks : List Mask) : CpuNumbering :=
  ⟨[], ((masks.filterMap fun m => m.indices.getLast?.map (· + 1)).max?).getD 0⟩

/-- The first group that is listed again. -/
def repeatedGroup? : List Mask → Option Nat
  | [] => none
  | mask :: rest =>
    let again := mask.groupId?.filter fun id => rest.any (·.groupId? == some id)
    again.or (repeatedGroup? rest)

/-- The CPU at a position of a mask. -/
def cpuAt (n : CpuNumbering) (mask : Mask) : Except Misplacement (Nat → Nat) :=
  match mask with
  | .bitset _ _ => .ok id
  | .group id _ =>
    match n.bases.lookup id with
    | some base => .ok (base + ·)
    | none => .error (.unknownGroup mask id)

/-- The CPUs of a mask, which must be CPUs of the machine. -/
def cpusOf (n : CpuNumbering) (mask : Mask) : Except Misplacement (List Nat) := do
  let cpus := mask.indices.map (← n.cpuAt mask)
  match cpus.find? (n.total ≤ ·) with
  | some cpu => throw (.cpuOutside cpu n.total mask)
  | none => return cpus

/-- The CPUs of each mask, none of which may be in two masks. -/
def claims (n : CpuNumbering) (kind : RecordKind) (taken : List Nat) :
    List Mask → Except Misplacement (List (List Nat))
  | [] => .ok []
  | mask :: rest => do
    let cpus ← n.cpusOf mask
    match cpus.find? (taken.contains ·) with
    | some cpu => throw (.cpuTwice cpu kind)
    | none => return cpus :: (← n.claims kind (cpus ++ taken) rest)

/-- For every CPU the number of the claim that it is in. -/
def owners (n : CpuNumbering) (claims : List (List Nat)) : List (Option Nat) :=
  (List.range n.total).map fun cpu => claims.findIdx? (·.contains cpu)

/-- For every CPU the number of the mask that it is in. -/
def assign (n : CpuNumbering) (kind : RecordKind) (masks : List Mask) :
    Except LayoutError (List (Option Nat)) :=
  match n.claims kind [] masks with
  | .ok claims => .ok (n.owners claims)
  | .error cause => .error (.misplaced cause)

end CpuNumbering

/-! ## From records to parts -/

/-- The entities of every CPU, as far as there are any. -/
structure Coverage where
  groups : List (Option Nat)
  nodes : List (Option Nat)
  packages : List (Option Nat)
  cores : List (Option Nat)

namespace Coverage

/-- The first CPU without a core or a package, or without a node or a group where there are any. -/
def gap? (c : Coverage) (total : Nat) (hasNodes hasGroups : Bool) : Option (Nat × RecordKind) :=
  let missing (owners : List (Option Nat)) (cpu : Nat) : Bool := (owners[cpu]?.bind id).isNone
  (List.range total).findSome? fun cpu =>
    if missing c.cores cpu then some (cpu, .core)
    else if missing c.packages cpu then some (cpu, .package)
    else if hasNodes && missing c.nodes cpu then some (cpu, .node)
    else if hasGroups && missing c.groups cpu then some (cpu, .group)
    else none

/-- The slot of every CPU. -/
def slots (c : Coverage) (total : Nat) : List Slot :=
  let owner (owners : List (Option Nat)) (cpu : Nat) : Option Nat := owners[cpu]?.bind id
  (List.range total).map fun cpu =>
    { socket := (owner c.packages cpu).getD 0
      core := (owner c.cores cpu).getD 0
      node := owner c.nodes cpu
      group := owner c.groups cpu }

end Coverage

namespace Layout

/-- The rank of every CPU among the CPUs of its core. -/
def threadRanks (cores : List Nat) : List Nat :=
  cores.zipIdx.map fun (core, cpu) => (cores.take cpu).count core

/-- The descriptor of a CPU in a slot. -/
def describe (slot : Slot) (thread : Nat) : Descriptor :=
  { socketId := slot.socket
    coreId := slot.core
    threadId := thread
    groupId := slot.group
    nodeId := slot.node }

/-- The mask of a core's thread: the position of that rank in the mask of the core. -/
def threadMask (core : Mask) (thread : Nat) : Mask :=
  Mask.groupSingle (core.groupId?.getD 0) (core.indices[thread]?.getD 0)

/-- The layout of the recorded machine. -/
def ofRecords (records : List Record) : Except LayoutError Layout := do
  let first :: _ := records | throw .empty
  let grouped := first.mask.isGroup
  if records.any (·.mask.isGroup != grouped) then throw (.misplaced .mixedMasks)
  if let some hollow := records.find? (·.mask.isEmpty) then
    throw (.misplaced (.emptyMask hollow.relationship))
  let groups := Record.groupMasks grouped records
  let nodes := Record.masksOf records .node
  let packages := Record.masksOf records .package
  let cores := Record.masksOf records .core
  if grouped then
    if let some id := CpuNumbering.repeatedGroup? groups then throw (.misplaced (.groupTwice id))
  let numbering :=
    if grouped then CpuNumbering.ofGroups 0 groups else CpuNumbering.ofBitsets (packages ++ cores)
  if numbering.total = 0 then throw .empty
  let coverage : Coverage :=
    { groups := ← numbering.assign .group groups
      nodes := ← numbering.assign .node nodes
      packages := ← numbering.assign .package packages
      cores := ← numbering.assign .core cores }
  if let some (cpu, kind) := coverage.gap? numbering.total (!nodes.isEmpty) (!groups.isEmpty) then
    throw (.uncovered cpu kind)
  let slots := coverage.slots numbering.total
  let threads := threadRanks (slots.map (·.core))
  let cpuMasks :=
    if grouped then
      (slots.zip threads).map fun (slot, thread) =>
        threadMask (cores[slot.core]?.getD (Mask.empty 0)) thread
    else (List.range numbering.total).map (Mask.single numbering.total)
  Parts.assemble
    { descriptors := (slots.zip threads).map fun (slot, thread) => describe slot thread
      slots
      cpuMasks
      groupMasks := groups
      nodeMasks := nodes
      socketMasks := packages
      coreMasks := cores
      caches := Record.cachesOf records
      groupBases := numbering.bases }

end Layout

end CpuPlacement
