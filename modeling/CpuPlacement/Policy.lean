import CpuPlacement.Mask.Hex
import CpuPlacement.Mask.Order
import CpuPlacement.Native.Backend

/-!
# Which CPUs may be handed out

A policy has two masks. Threads that hold no reservation run on the base CPUs; the reserved CPUs are
those that may be handed out to one thread each. The reserved CPUs may be given in hexadecimal, most
significant digit first, by the caller or in the environment. Otherwise they are the CPUs outside
the base, CPU 0 excepted; and when that leaves none, because no CPU is isolated, every CPU but 0.
-/

set_option autoImplicit false

namespace CpuPlacement

/-- Where threads run that hold no reservation, and which CPUs may be reserved. -/
structure Policy where
  base : Mask
  reserved : Mask
deriving DecidableEq, Repr

namespace Policy

/-- The CPU is one that threads without a reservation run on. -/
def isBase (p : Policy) (cpu : Nat) : Bool :=
  p.base.test cpu

/-- The CPU may be reserved. -/
def isReservable (p : Policy) (cpu : Nat) : Bool :=
  p.reserved.test cpu

/-- The CPUs from 1 upwards that are not in the base. -/
def outside (cpus : Nat) (base : Mask) : Mask :=
  Mask.ofIndices cpus ((List.range cpus).filter fun cpu => 1 ≤ cpu && !base.test cpu)

/-- No CPU is set apart, so that all but CPU 0 are assumed to be free. -/
def assumesAll (cpus : Nat) (base : Mask) : Bool :=
  (outside cpus base).isEmpty && 1 < cpus

/-- The reserved CPUs where nobody names them. -/
def defaultReserved (cpus : Nat) (base : Mask) : Mask :=
  if assumesAll cpus base then
    Mask.ofIndices cpus ((List.range cpus).filter (1 ≤ ·))
  else outside cpus base

/-- The named CPUs, without the blanks around them, unless there is nothing else. -/
def named? (reserved : Option String) : Option String :=
  (reserved.map fun text => Text.trim text.toList).bind fun text =>
    if text.isEmpty then none else some (String.ofList text)

/-- The policy for a number of CPUs; the base is every CPU unless given. -/
def resolve (cpus : Nat) (base : Option Mask) (reserved : Option String) :
    Except MalformedHex Policy :=
  let base := base.getD (Mask.full cpus)
  match named? reserved with
  | some text => (Mask.ofHex text).map fun mask => ⟨base, mask⟩
  | none => .ok ⟨base, defaultReserved cpus base⟩

/-- The policy that the environment asks for, or the one without it where it cannot be read. -/
def resolveOr (cpus : Nat) (base : Option Mask) (environment : Option String)
    (otherwise : Policy) : Policy :=
  match resolve cpus base environment with
  | .ok policy => policy
  | .error _ => otherwise

/-- The base that a thread's mask makes: none where it names groups, or nothing, or is unknown. -/
def baseOf? (affinity : Except AffinityError Mask) : Option Mask :=
  match affinity with
  | .ok mask => if mask.isGroup || mask.isEmpty then none else some mask
  | .error _ => none

/-- The policy of the process: its affinity is the base, the environment may name the reserved
CPUs. -/
def detect (cpus : Nat) (affinity : Except AffinityError Mask) (environment : Option String) :
    Policy :=
  let base := baseOf? affinity
  let whole := base.getD (Mask.full cpus)
  resolveOr cpus base environment ⟨whole, defaultReserved cpus whole⟩

end Policy

/-! ## The running machine -/

/-- The CPUs that are online, and those that are isolated from the scheduler. -/
structure Machine where
  cpus : Nat
  isolated : List Nat
deriving DecidableEq, Repr

namespace Machine

/-- A machine has at least one CPU. -/
def new (cpus : Nat) (isolated : List Nat) : Machine :=
  ⟨max cpus 1, isolated⟩

/-- The CPUs that are not isolated. -/
def base (m : Machine) : Mask :=
  Mask.ofIndices m.cpus ((List.range m.cpus).filter fun cpu => !m.isolated.contains cpu)

/-- The policy of the machine. Isolated CPUs are taken out of the base, so that they are the
reserved ones, even where the affinity of the process covers them. -/
def policy (m : Machine) (affinity : Except AffinityError Mask) (environment : Option String) :
    Policy :=
  if m.isolated.isEmpty || m.base.isEmpty then Policy.detect m.cpus affinity environment
  else
    Policy.resolveOr m.cpus (some m.base) environment ⟨m.base, Mask.ofIndices m.cpus m.isolated⟩

end Machine

end CpuPlacement
