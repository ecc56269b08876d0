import CpuPlacement.Mask.Text
import CpuPlacement.Thread

/-!
# Native affinity

The operating system restricts threads to CPUs. A backend is what this library sees of it: the calls
that read and set the mask of a thread, each of which may be refused, over a state of its own. All
that is proved of the rest of the library for every backend holds whatever the calls answer.

`apply` issues the call that fits the family of a mask.
-/

set_option autoImplicit false

namespace CpuPlacement

/-- Why a native call was refused. -/
inductive AffinityError where
  | notSupported
  /-- The platform cannot address the CPU. -/
  | invalidCpu (cpu max : Nat)
  | emptyMask
  | rejected (mask : Mask)
  /-- The operating system found no CPU of the mask that the thread could run on. -/
  | invalidArgument
deriving DecidableEq, Repr

/-- The wording of the error. -/
def AffinityError.message : AffinityError → String
  | notSupported => "CPU affinity operation is not supported by this backend"
  | invalidCpu cpu max => s!"CPU {cpu} is invalid (max CPU is {max})"
  | emptyMask => "affinity mask cannot be empty"
  | rejected mask => s!"affinity mask {mask.text} rejected"
  | invalidArgument => "I/O error: Invalid argument (os error 22)"

/-- The native affinity calls, over the state that they act on. -/
structure Backend (σ : Type) where
  /-- The mask of a thread. -/
  mask : σ → ThreadId → Except AffinityError Mask
  /-- Restricts a thread to the CPUs of a mask. -/
  setMask : σ → ThreadId → Mask → Except AffinityError Unit × σ
  /-- Restricts a thread to positions of a group, and gives the mask it had. Only platforms with
  processor groups have this call. -/
  setGroup : σ → ThreadId → Nat → BitVec 64 → Except AffinityError Mask × σ :=
    fun state _ _ _ => (.error .notSupported, state)
  /-- The CPU that a thread is running on; negative if that is not known. -/
  currentCpu : σ → ThreadId → Int
  /-- The number that the operating system has for a thread; negative if that is not known. -/
  threadNumber : σ → ThreadId → Int
  processNumber : σ → Nat

namespace Backend

variable {σ : Type}

/-- Restricts a thread to a mask by the call that fits its family. -/
def apply (b : Backend σ) (state : σ) (thread : ThreadId) (mask : Mask) :
    Except AffinityError Unit × σ :=
  match mask with
  | .bitset _ _ => b.setMask state thread mask
  | .group id bits =>
    let (answer, state) := b.setGroup state thread id bits
    (answer.map fun _ => (), state)

/-- A platform without affinity: it reports an empty mask and refuses every other. -/
def unsupported (processNumber : σ → Nat) : Backend σ where
  mask _ _ := .ok (Mask.empty 0)
  setMask state _ _ := (.error .notSupported, state)
  currentCpu _ _ := -1
  threadNumber _ _ := -1
  processNumber := processNumber

/-- The backend, but its threads always seem to run on one CPU and it has no groups. -/
def runningOn (b : Backend σ) (cpu : Int) : Backend σ where
  mask := b.mask
  setMask := b.setMask
  currentCpu _ _ := cpu
  threadNumber _ _ := -1
  processNumber := b.processNumber

/-- The backend, but its threads always seem to run on one CPU. -/
def runningInGroupsOn (b : Backend σ) (cpu : Int) : Backend σ :=
  { b.runningOn cpu with setGroup := b.setGroup }

end Backend

end CpuPlacement
