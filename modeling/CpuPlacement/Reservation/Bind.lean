import CpuPlacement.Reservation.Inventory

/-!
# Binding what is reserved

A handle can be passed on: the thread that binds it takes the reservation over, from whichever
thread holds it, and is pinned natively. Only a live thread that is itself bound to the CPU keeps
it. The reservation changes hands also when the native call fails; it is then not marked as bound.

A thread that has reserved a core can mark all its CPUs as its own without a native call.
-/

set_option autoImplicit false

namespace CpuPlacement.Inventory

variable {σ : Type}

/-- The caller takes over what a handle stands for and is pinned to the CPU that it names. -/
def bind (inv : Inventory) (backend : Backend σ) (native : σ) (alive : ThreadId → Bool)
    (me : ThreadId) (h : Handle) : Outcome σ Bool :=
  let refused : Outcome σ Bool := ⟨false, inv, native, none⟩
  match h.cpu? with
  | none => refused
  | some cpu =>
    match inv.locks[cpu]? with
    | none => refused
    | some lock =>
      if lock.owner.isNone || lock.boundToOther alive me then refused
      else
        let covered := inv.covered h
        let inv := inv.assign covered me
        match inv.pin backend native me cpu with
        | (.ok (), native) => ⟨true, inv.setBound covered true, native, some (.ok ())⟩
        | (.error refusal, native) =>
          ⟨false, inv.setBound covered false, native, some (.error refusal)⟩

/-- Marks every CPU of a CPU's core as bound to the caller, but for those that another live thread
is bound to. An id that names no CPU is ignored. -/
def bindWholeCore (inv : Inventory) (alive : ThreadId → Bool) (me : ThreadId) (cpu : Int) :
    Inventory :=
  if 0 ≤ cpu ∧ cpu < inv.cpus then
    inv.update (inv.covered (.wholeCore cpu.toNat)) fun lock =>
      if lock.boundToOther alive me then lock
      else { lock with owner := some me, bound := true }
  else inv

end CpuPlacement.Inventory
