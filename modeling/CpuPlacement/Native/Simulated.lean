import CpuPlacement.Layout.Basic
import CpuPlacement.Native.Backend

/-!
# The simulated backend

For dry runs, and for machines that are only described, the masks of the threads are kept in memory.
A thread runs on the lowest CPU of its mask, so whatever it is bound to, it is found there. A thread
that has set no mask may run on every CPU and runs on CPU 0.
-/

set_option autoImplicit false

namespace CpuPlacement

/-- The state of a simulated machine. -/
structure Simulated where
  cpus : Nat
  groupBases : List (Nat × Nat)
  /-- The mask that each thread has set last. -/
  masks : ThreadId → Option Mask
  /-- Every call that sets a mask is refused. -/
  rejecting : Bool
  processNumber : Nat

namespace Simulated

/-- A machine with a number of CPUs and no processor groups. -/
def new (cpus : Nat) : Simulated :=
  ⟨cpus, [], fun _ => none, false, 1⟩

/-- The machine of a layout, its groups included. -/
def forLayout (l : Layout) : Simulated :=
  { new l.cpus with groupBases := l.groupBases }

/-- Refuses every mask from now on, or no longer. -/
def reject (s : Simulated) (rejecting : Bool) : Simulated :=
  { s with rejecting }

/-- The mask of a thread. -/
def mask (s : Simulated) (thread : ThreadId) : Mask :=
  (s.masks thread).getD (Mask.full s.cpus)

/-- Remembers the mask of a thread. -/
def remember (s : Simulated) (thread : ThreadId) (mask : Mask) : Simulated :=
  { s with masks := fun other => if other = thread then some mask else s.masks other }

/-- Why no thread can have the mask, whatever the machine. -/
def refusal? (s : Simulated) (mask : Mask) : Option AffinityError :=
  if s.rejecting then some (.rejected mask)
  else if mask.isEmpty then some .emptyMask
  else none

def setMask (s : Simulated) (thread : ThreadId) (mask : Mask) :
    Except AffinityError Unit × Simulated :=
  match s.refusal? mask with
  | some refusal => (.error refusal, s)
  | none =>
    match mask.indices.find? (s.cpus ≤ ·) with
    | some cpu => (.error (.invalidCpu cpu (s.cpus - 1)), s)
    | none => (.ok (), s.remember thread mask)

def setGroup (s : Simulated) (thread : ThreadId) (id : Nat) (bits : BitVec 64) :
    Except AffinityError Mask × Simulated :=
  let mask := Mask.group id bits
  match s.refusal? mask with
  | some refusal => (.error refusal, s)
  | none =>
    if (s.groupBases.lookup id).isNone then (.error (.rejected mask), s)
    else (.ok ((s.masks thread).getD (Mask.group id 0)), s.remember thread mask)

/-- The machine-wide number of the lowest CPU of a mask. -/
def lowestCpu? (s : Simulated) (mask : Mask) : Option Nat :=
  mask.lowest?.bind fun lowest =>
    match mask with
    | .bitset _ _ => some lowest
    | .group id _ => (s.groupBases.lookup id).map (· + lowest)

def currentCpu (s : Simulated) (thread : ThreadId) : Int :=
  match s.masks thread with
  | none => 0
  | some mask =>
    match s.lowestCpu? mask with
    | some cpu => cpu
    | none => -1

/-- The affinity calls of a simulated machine. -/
def backend : Backend Simulated where
  mask s thread := .ok (s.mask thread)
  setMask := setMask
  setGroup := setGroup
  currentCpu := currentCpu
  threadNumber _ _ := -1
  processNumber s := s.processNumber

end Simulated

end CpuPlacement
