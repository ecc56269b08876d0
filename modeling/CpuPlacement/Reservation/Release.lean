import CpuPlacement.Reservation.Inventory

/-!
# Releasing

A thread gives up everything that it has reserved and goes back to the base CPUs. What threads that
have ended still hold is given up on the way. A single CPU can be given up by the thread that holds
it.
-/

set_option autoImplicit false

namespace CpuPlacement

/-- Why a CPU cannot be given up. -/
inductive ReleaseError where
  /-- The caller does not hold the CPU. -/
  | notHeld (cpu : Int)
  /-- The layout has no such CPU. -/
  | outOfRange (cpu : Int) (cpus : Nat)
deriving DecidableEq, Repr

/-- The wording of the error. -/
def ReleaseError.message : ReleaseError → String
  | notHeld cpu => s!"cpu {cpu} is not held by the calling thread"
  | outOfRange cpu cpus => s!"cpu {cpu} is outside the installed layout ({cpus} cpus)"

namespace Inventory

variable {σ : Type}

/-- A release by the caller gives the lock up: it is the caller's, or that of a thread that has
ended. -/
def freedBy (alive : ThreadId → Bool) (me : ThreadId) (lock : Lock) : Bool :=
  lock.owner.any fun owner => owner == me || !alive owner

/-- Gives up everything that the caller holds and restores the base mask natively. -/
def release (inv : Inventory) (backend : Backend σ) (native : σ) (alive : ThreadId → Bool)
    (me : ThreadId) : Outcome σ Unit :=
  let locks := inv.locks.map fun lock => if freedBy alive me lock then lock.clear else lock
  let (answer, native) := backend.setMask native me inv.policy.base
  ⟨(), { inv with locks }, native, some answer⟩

/-- Gives up one CPU that the caller holds. -/
def releaseCpu (inv : Inventory) (me : ThreadId) (cpu : Int) : Except ReleaseError Inventory :=
  if 0 ≤ cpu ∧ cpu < inv.cpus then
    if inv.locks[cpu.toNat]?.any (·.owner == some me) then .ok (inv.update [cpu.toNat] Lock.clear)
    else .error (.notHeld cpu)
  else .error (.outOfRange cpu inv.cpus)

end Inventory

end CpuPlacement
