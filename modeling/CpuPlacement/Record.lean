import CpuPlacement.Cache
import CpuPlacement.Mask.Basic

/-!
# Relationship records

Some platforms report no list of CPUs. They report, one record for each hardware entity, the mask of
the logical CPUs that share it.
-/

set_option autoImplicit false

namespace CpuPlacement

/-- What the CPUs of a record share. -/
inductive Relationship where
  | group
  | node
  | package
  | core
  | cache (info : Cache)
deriving DecidableEq, Repr

/-- The relationship with all its parameters, as error texts show it. -/
def Relationship.text : Relationship → String
  | group => "Group"
  | node => "NumaNode"
  | package => "Package"
  | core => "Core"
  | cache info =>
    s!"Cache(CacheInfo \x7b level: {info.level}, cache_type: {info.kind.name}, size: {info.size}, "
      ++ s!"line_size: {info.lineSize}, associativity: {info.associativity} \x7d)"

/-- The logical CPUs that share one hardware entity. -/
structure Record where
  relationship : Relationship
  mask : Mask
deriving DecidableEq, Repr

end CpuPlacement
