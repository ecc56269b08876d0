import CpuPlacement.Reservation.Search

/-!
# Reserving

A thread reserves one CPU or a whole core, and may have itself pinned to it in the same step. What
is reserved stays reserved if the native call fails; it is only not marked as bound. For a whole
core the thread is pinned to the first of its CPUs.
-/

set_option autoImplicit false

namespace CpuPlacement.Inventory

variable {σ : Type}

/-- Makes the caller the owner of what a handle stands for and, if asked to, pins it to the CPU that
the handle names; where that succeeds the locks are marked as bound. -/
def take (inv : Inventory) (backend : Backend σ) (native : σ) (me : ThreadId) (bind : Bool)
    (h : Handle) (cpu : Nat) : Outcome σ Handle :=
  let covered := inv.covered h
  let inv := inv.assign covered me
  if bind then
    match inv.pin backend native me cpu with
    | (.ok (), native) => ⟨h, inv.setBound covered true, native, some (.ok ())⟩
    | (.error refusal, native) => ⟨h, inv, native, some (.error refusal)⟩
  else ⟨h, inv, native, none⟩

/-- Reserves one CPU for the caller. -/
def acquire (inv : Inventory) (backend : Backend σ) (native : σ) (alive : ThreadId → Bool)
    (me : ThreadId) (bind : Bool) (strategies : List Strategy) (ids : List Int) :
    Outcome σ Handle :=
  match inv.choose? alive strategies ids with
  | some cpu => inv.take backend native me bind (.cpu cpu) cpu
  | none => ⟨.none, inv, native, none⟩

/-- Reserves a whole core for the caller or, where no core can be had, one CPU. -/
def acquireCore (inv : Inventory) (backend : Backend σ) (native : σ) (alive : ThreadId → Bool)
    (me : ThreadId) (bind : Bool) (strategies : List Strategy) (ids : List Int) :
    Outcome σ Handle :=
  let first? := (inv.chooseCore? alive strategies ids).bind fun core =>
    (inv.layout.siblings core).head?
  match first? with
  | some first => inv.take backend native me bind (.wholeCore first) first
  | none => inv.acquire backend native alive me bind strategies ids

end CpuPlacement.Inventory
