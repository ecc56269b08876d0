import CpuPlacement.Reservation.Acquire

/-!
# Reservations in a row

A thread that wants several CPUs, or several cores, reserves them one after the other. Each is
placed relative to the ones before it, and the row ends when nothing is left to reserve.
-/

set_option autoImplicit false

namespace CpuPlacement

/-- How a row of reservations is made. -/
structure Demand where
  /-- Whole cores instead of single CPUs. -/
  cores : Bool
  /-- Pin the thread natively to each reservation. -/
  bind : Bool
  strategies : List Strategy

/-- What a row of reservations leaves behind. -/
structure Series (σ : Type) where
  /-- The reservations in the order in which they were tried, with the inventory before each. -/
  attempts : List (Inventory × Outcome σ Handle)
  inventory : Inventory
  native : σ

namespace Series

variable {σ : Type}

/-- The CPUs that were reserved, each named by its handle. -/
def held (s : Series σ) : List Nat :=
  s.attempts.filterMap fun (_, outcome) => outcome.result.cpu?

/-- The row ended because nothing was left. -/
def exhausted (s : Series σ) : Bool :=
  s.attempts.any fun (_, outcome) => !outcome.result.isAllocated

end Series

namespace Inventory

variable {σ : Type}

/-- One reservation of a row. -/
def acquireNext (inv : Inventory) (backend : Backend σ) (native : σ) (alive : ThreadId → Bool)
    (me : ThreadId) (demand : Demand) (held : List Nat) : Outcome σ Handle :=
  let ids := held.map Int.ofNat
  if demand.cores then inv.acquireCore backend native alive me demand.bind demand.strategies ids
  else inv.acquire backend native alive me demand.bind demand.strategies ids

/-- Up to a number of reservations, placed relative to those already held. -/
def acquireSeries (inv : Inventory) (backend : Backend σ) (native : σ) (alive : ThreadId → Bool)
    (me : ThreadId) (demand : Demand) (held : List Nat) : Nat → Series σ
  | 0 => ⟨[], inv, native⟩
  | more + 1 =>
    let outcome := inv.acquireNext backend native alive me demand held
    match outcome.result.cpu? with
    | none => ⟨[(inv, outcome)], outcome.inventory, outcome.native⟩
    | some cpu =>
      let rest := outcome.inventory.acquireSeries backend outcome.native alive me demand
        (held ++ [cpu]) more
      { rest with attempts := (inv, outcome) :: rest.attempts }

end Inventory

end CpuPlacement
