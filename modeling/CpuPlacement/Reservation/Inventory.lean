import CpuPlacement.Layout.Basic
import CpuPlacement.Policy
import CpuPlacement.Reservation.Lock

/-!
# The lock inventory

The inventory holds the lock of every CPU of a layout, in the order of the CPUs. Each operation on
it is one step: it takes the inventory as it is, the thread that calls and the threads that are
alive, and gives the inventory as it is afterwards.

Operations that also pin the thread natively act on the state of a backend and say in `Outcome` what
the native call answered.
-/

set_option autoImplicit false

namespace CpuPlacement

/-- The locks of a layout's CPUs. -/
structure Inventory where
  layout : Layout
  policy : Policy
  locks : List Lock

/-- What an operation gives, and what it leaves behind. -/
structure Outcome (σ α : Type) where
  result : α
  inventory : Inventory
  native : σ
  /-- The answer of the native call, if the operation made one. -/
  call : Option (Except AffinityError Unit)

namespace Inventory

/-- The inventory of a layout in which nothing is reserved. -/
def new (layout : Layout) (policy : Policy) : Inventory where
  layout := layout
  policy := policy
  locks := (List.range layout.cpus).map fun cpu =>
    Lock.new cpu (policy.isBase cpu) (policy.isReservable cpu)

/-- The number of locks, which is the number of CPUs. -/
def cpus (inv : Inventory) : Nat :=
  inv.locks.length

/-- Installs a layout. All reservations are dropped unless it describes the machine that the
inventory already has. -/
def install (inv : Inventory) (layout : Layout) : Inventory :=
  if inv.layout.sameMachine layout then inv else new layout inv.policy

/-- Changes the locks of some CPUs. -/
def update (inv : Inventory) (cpus : List Nat) (change : Lock → Lock) : Inventory :=
  { inv with locks := inv.locks.mapIdx fun cpu lock =>
      if cpus.contains cpu then change lock else lock }

/-- Makes a thread the owner of some CPUs. -/
def assign (inv : Inventory) (cpus : List Nat) (owner : ThreadId) : Inventory :=
  inv.update cpus fun lock => { lock with owner := some owner }

/-- Says of some CPUs whether their owners are bound to them. -/
def setBound (inv : Inventory) (cpus : List Nat) (bound : Bool) : Inventory :=
  inv.update cpus fun lock => { lock with bound }

/-- The CPU can be reserved now. -/
def available (inv : Inventory) (alive : ThreadId → Bool) (cpu : Nat) : Bool :=
  inv.locks[cpu]?.any (·.available alive)

/-- The CPUs that a handle stands for in the layout as it is now. -/
def covered (inv : Inventory) (h : Handle) : List Nat :=
  match h with
  | .none => []
  | .cpu cpu => [cpu]
  | .wholeCore first =>
    match inv.layout.slots[first]? with
    | some slot => inv.layout.siblings slot.core
    | none => [first]

/-- Pins a thread to a CPU natively. -/
def pin {σ : Type} (inv : Inventory) (backend : Backend σ) (native : σ) (me : ThreadId)
    (cpu : Nat) : Except AffinityError Unit × σ :=
  match inv.layout.cpuMasks[cpu]? with
  | some mask => backend.apply native me mask
  | none => (.error (.invalidCpu cpu (inv.cpus - 1)), native)

/-- One line for each CPU. -/
def text (inv : Inventory) (r : Roster) : String :=
  String.join (inv.locks.zipIdx.map fun (lock, cpu) => s!"{cpu}: {lock.text r}\n")

end Inventory

end CpuPlacement
