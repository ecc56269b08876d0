import CpuPlacement.Reservation.Inventory
import CpuPlacement.Strategy

/-!
# Searching for a CPU

Strategies are tried in order, and under each one the CPUs from the highest downwards; CPU 0 is
never handed out by itself. A CPU suits a strategy if the strategy accepts it relative to every CPU
that is to be kept in view; ids that name no CPU say nothing. When no strategy finds a CPU, any
available one will do.

A whole core is searched for in the same way among the cores, from the highest id downwards, and has
to be available and suitable with all its CPUs.
-/

set_option autoImplicit false

namespace CpuPlacement.Inventory

/-- The CPUs among some ids: those that the inventory has. -/
def known (inv : Inventory) (ids : List Int) : List Nat :=
  ids.filterMap fun (id : Int) => if 0 ≤ id ∧ id < inv.cpus then some id.toNat else none

/-- The strategy accepts the CPU relative to every CPU among the ids. -/
def suits (inv : Inventory) (s : Strategy) (ids : List Int) (cpu : Nat) : Bool :=
  (inv.known ids).all fun other => s.accepts inv.layout other cpu

/-- The highest CPU, CPU 0 excepted, of which something holds. -/
def highest? (inv : Inventory) (p : Nat → Bool) : Option Nat :=
  (List.range inv.cpus).reverse.find? fun cpu => 1 ≤ cpu && p cpu

/-- The CPU that a reservation takes. -/
def choose? (inv : Inventory) (alive : ThreadId → Bool) (strategies : List Strategy)
    (ids : List Int) : Option Nat :=
  let suitable := strategies.findSome? fun s =>
    inv.highest? fun cpu => inv.available alive cpu && inv.suits s ids cpu
  suitable.or (inv.highest? (inv.available alive))

/-- Every CPU of the core is available and suits the strategy. -/
def coreSuits (inv : Inventory) (alive : ThreadId → Bool) (s : Strategy) (ids : List Int)
    (core : Nat) : Bool :=
  let siblings := inv.layout.siblings core
  !siblings.isEmpty && siblings.all fun cpu => inv.available alive cpu && inv.suits s ids cpu

/-- The core that a reservation takes; without strategies, any. -/
def chooseCore? (inv : Inventory) (alive : ThreadId → Bool) (strategies : List Strategy)
    (ids : List Int) : Option Nat :=
  let strategies := if strategies.isEmpty then [Strategy.any] else strategies
  strategies.findSome? fun s =>
    (List.range inv.layout.cores.length).reverse.find? (inv.coreSuits alive s ids)

end CpuPlacement.Inventory
