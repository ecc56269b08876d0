import CpuPlacement.Native.Backend

/-!
# The affinity calls of the Linux kernel

A kernel has a number of CPUs online and lets each thread run on some of them. A request names CPUs
by number, below the fixed size of the kernel's CPU sets; it is cut down to the CPUs that the
process is allowed to use, and refused when none is left. There are no processor groups.
-/

set_option autoImplicit false

namespace CpuPlacement

/-- What the affinity calls see of a kernel. -/
structure Kernel where
  /-- The number of CPUs online. -/
  online : Nat
  /-- The CPUs that the process may use. -/
  allowed : List Nat
  /-- The CPUs that each thread has been restricted to. -/
  restricted : ThreadId → Option (List Nat)
  processNumber : Nat

namespace Kernel

/-- The number of CPUs that a CPU set has room for. -/
def cpuSetSize : Nat := 1024

/-- A machine whose process may use every CPU. -/
def new (online : Nat) : Kernel :=
  ⟨online, List.range online, fun _ => none, 1⟩

/-- The CPUs that a thread may run on. -/
def cpusOf (k : Kernel) (thread : ThreadId) : List Nat :=
  (k.restricted thread).getD k.allowed

/-- The mask of a thread, with room for every CPU that is online. -/
def mask (k : Kernel) (thread : ThreadId) : Mask :=
  Mask.ofIndices k.online (k.cpusOf thread)

def setMask (k : Kernel) (thread : ThreadId) (mask : Mask) : Except AffinityError Unit × Kernel :=
  if mask.isGroup then (.error .notSupported, k)
  else
    match mask.indices.find? (cpuSetSize ≤ ·) with
    | some cpu => (.error (.invalidCpu cpu (cpuSetSize - 1)), k)
    | none =>
      if mask.isEmpty then (.error .emptyMask, k)
      else
        match k.allowed.filter mask.test with
        | [] => (.error .invalidArgument, k)
        | cpus =>
          (.ok (), { k with restricted := fun other =>
            if other = thread then some cpus else k.restricted other })

def currentCpu (k : Kernel) (thread : ThreadId) : Int :=
  match k.cpusOf thread with
  | cpu :: _ => cpu
  | [] => -1

/-- The affinity calls of a kernel; its number for a thread is the thread's id. -/
def backend : Backend Kernel where
  mask k thread := .ok (k.mask thread)
  setMask := setMask
  currentCpu := currentCpu
  threadNumber _ thread := thread.number
  processNumber k := k.processNumber

end Kernel

end CpuPlacement
