import CpuPlacement.Thread

/-!
# Locks

Every logical CPU has a lock, which says whether the CPU may be reserved and which thread has
reserved it. A reservation outlives its thread: the lock keeps its owner until somebody else takes
it or it is released, but counts as free once the owner has ended. `bound` says that the owner has
been pinned to the CPU natively and does not merely hold it.
-/

set_option autoImplicit false

namespace CpuPlacement

/-- The reservation of one logical CPU. -/
structure Lock where
  cpu : Nat
  /-- Threads without a reservation run here. -/
  base : Bool
  reservable : Bool
  owner : Option ThreadId
  bound : Bool
deriving DecidableEq, Repr

namespace Lock

/-- The lock of a CPU that nobody has reserved. -/
def new (cpu : Nat) (base reservable : Bool) : Lock :=
  ⟨cpu, base, reservable, none, false⟩

/-- The owner, as long as it is alive. -/
def liveOwner? (lock : Lock) (alive : ThreadId → Bool) : Option ThreadId :=
  lock.owner.filter alive

/-- The CPU can be reserved now: it is reservable, and free or held by a thread that has ended. -/
def available (lock : Lock) (alive : ThreadId → Bool) : Bool :=
  lock.reservable && (lock.liveOwner? alive).isNone

/-- Another thread, which is alive, is bound to the CPU. -/
def boundToOther (lock : Lock) (alive : ThreadId → Bool) (me : ThreadId) : Bool :=
  lock.bound && (lock.liveOwner? alive).any (· != me)

/-- The reservation is given up. -/
def clear (lock : Lock) : Lock :=
  { lock with owner := none, bound := false }

/-- The text of a lock. -/
def text (lock : Lock) (r : Roster) : String :=
  match lock.owner with
  | some owner => s!"{r.text owner} alive={r.alive owner}"
  | none =>
    if lock.reservable then "Reserved for this application"
    else if lock.base then "General use CPU"
    else "CPU not available"

end Lock

/-! ## Handles -/

/-- What a reservation gives to its thread. -/
inductive Handle where
  /-- Nothing could be reserved. -/
  | none
  | cpu (index : Nat)
  /-- Every CPU of a core, known by the first of them. -/
  | wholeCore (first : Nat)
deriving DecidableEq, Repr

namespace Handle

/-- The CPU that the handle names. -/
def cpu? : Handle → Option Nat
  | .none => Option.none
  | .cpu index => some index
  | .wholeCore first => some first

/-- The number of that CPU, or -1. -/
def number (h : Handle) : Int :=
  match h.cpu? with
  | some index => index
  | Option.none => -1

def isAllocated (h : Handle) : Bool :=
  h.cpu?.isSome

def isWholeCore : Handle → Bool
  | wholeCore _ => true
  | _ => false

end Handle

end CpuPlacement
