import CpuPlacement.Descriptor
import CpuPlacement.Layout.Entity
import CpuPlacement.Record
import CpuPlacement.Text.Numeral

/-!
# Why a layout cannot be built

Each error names its cause with the data that the cause is about; the wording is in the `message`
functions and nowhere else.
-/

set_option autoImplicit false

namespace CpuPlacement

/-- The kinds of entities that records describe, as errors name them. -/
inductive RecordKind where
  | group
  | node
  | package
  | core
deriving DecidableEq, Repr

def RecordKind.name : RecordKind → String
  | group => "group"
  | node => "node"
  | package => "package"
  | core => "core"

/-- Why a record or an entity has no place in the hierarchy. -/
inductive Misplacement where
  | mixedMasks
  | emptyMask (relationship : Relationship)
  | groupTwice (id : Nat)
  | unknownGroup (mask : Mask) (id : Nat)
  | cpuOutside (cpu total : Nat) (mask : Mask)
  | cpuTwice (cpu : Nat) (kind : RecordKind)
  | notInside (inner outer : Entity)
deriving DecidableEq, Repr

def Misplacement.message : Misplacement → String
  | mixedMasks => "mixed mask representations"
  | emptyMask relationship => s!"empty mask in {relationship.text}"
  | groupTwice id => s!"group {id} reported twice"
  | unknownGroup mask id => s!"mask {mask.text} names unknown group {id}"
  | cpuOutside cpu total mask => s!"cpu {cpu} outside {total} cpus in {mask.text}"
  | cpuTwice cpu kind => s!"cpu {cpu} is in two {kind.name} records"
  | notInside inner outer => s!"{inner.summary} is not inside {outer.summary}"

/-- Why a description of the form sockets/cores/threads is refused. -/
inductive DescriptionFault where
  | numeral (error : NumeralError)
  | notThreeCounts
  | zeroCount
deriving DecidableEq, Repr

def DescriptionFault.message : DescriptionFault → String
  | numeral error => error.message
  | notThreeCounts => "expected sockets/cores/threads"
  | zeroCount => "counts must be positive"

/-- Why a layout cannot be built. -/
inductive LayoutError where
  /-- There are no logical CPUs. -/
  | empty
  /-- The CPUs do not fill a grid of sockets, cores and threads. -/
  | inconsistentCounts (sockets coresPerSocket threadsPerCore : Nat) (cpus : List Descriptor)
  | misplaced (cause : Misplacement)
  /-- No entity of a kind that must cover every CPU has this one. -/
  | uncovered (cpu : Nat) (kind : RecordKind)
  | invalidDescription (description : String) (cause : DescriptionFault)
deriving DecidableEq, Repr

/-- The wording of the error. -/
def LayoutError.message : LayoutError → String
  | empty => "topology source reported no logical CPUs"
  | inconsistentCounts sockets coresPerSocket threadsPerCore cpus =>
    s!"cpus: {cpus.length} != sockets: {sockets} * coresPerSocket: {coresPerSocket} * "
      ++ s!"threadsPerCore: {threadsPerCore}\n" ++ Descriptor.listing cpus
  | misplaced cause => s!"malformed topology record: {cause.message}"
  | uncovered cpu kind => s!"logical CPU {cpu} does not belong to any {kind.name}"
  | invalidDescription description cause =>
    s!"invalid layout description '{description}: {cause.message}' "
      ++ "(expected sockets/coresPerSocket/threadsPerCore)"

end CpuPlacement
