import CpuPlacement.Proofs.Layout.Queries
import CpuPlacement.Reservation.Acquire
import CpuPlacement.Reservation.Bind
import CpuPlacement.Reservation.Release

/-!
# The lock table

What every operation on an inventory is made of: which CPUs a handle stands for, what changing some
locks does to each of them, and the facts about a lock that no operation changes.

`Inventory.WellFormed` is the invariant of the table. There is one lock for each CPU of the layout,
it carries the number of its CPU and what the policy says of it, and only a lock with an owner is
marked as bound. An operation that changes nothing but owners and marks keeps layout, policy and
invariant at once (`Inventory.Revises`), and all that it owes for that is one lock
(`Revises.update`).
-/

set_option autoImplicit false

namespace CpuPlacement

/-! ## What a handle stands for -/

/-- The handle stands for the CPU: for the one that it names or, if it is for a whole core, for
every CPU with the same physical core. -/
def Handle.Covers (l : Layout) (h : Handle) (cpu : Nat) : Prop :=
  match h with
  | .none => False
  | .cpu index => cpu = index
  | .wholeCore first => ∃ core, l.physicalCore first = .ok core ∧ l.physicalCore cpu = .ok core

/-- A whole core is found by the slot of its first CPU. -/
theorem Handle.covers_wholeCore_iff {l : Layout} {first cpu : Nat} :
    Handle.Covers l (.wholeCore first) cpu ↔
      ∃ slot ∈ l.slots[first]?, cpu ∈ l.siblings slot.core := by
  simp only [Covers, Layout.mem_siblings, Option.mem_def]
  constructor
  · rintro ⟨core, hfirst, hcpu⟩
    obtain ⟨slot, hslot, rfl⟩ := Layout.physicalCore_eq_ok_iff.mp hfirst
    exact ⟨slot, hslot, hcpu⟩
  · rintro ⟨slot, hslot, hcpu⟩
    exact ⟨slot.core, Layout.physicalCore_eq_ok_iff.mpr ⟨slot, hslot, rfl⟩, hcpu⟩

instance (l : Layout) (h : Handle) (cpu : Nat) : Decidable (h.Covers l cpu) :=
  match h with
  | .none => inferInstanceAs (Decidable False)
  | .cpu index => inferInstanceAs (Decidable (cpu = index))
  | .wholeCore _ => decidable_of_iff' _ Handle.covers_wholeCore_iff

namespace Inventory

/-- Whatever a handle stands for is among the CPUs that an operation on it touches. -/
theorem mem_covered_of_covers {inv : Inventory} {h : Handle} {cpu : Nat}
    (hc : h.Covers inv.layout cpu) : cpu ∈ inv.covered h := by
  cases h with
  | none => exact hc.elim
  | cpu index => exact List.mem_singleton.mpr hc
  | wholeCore first =>
    obtain ⟨core, hfirst, hcpu⟩ := hc
    obtain ⟨slot, hslot, rfl⟩ := Layout.physicalCore_eq_ok_iff.mp hfirst
    simp only [covered, hslot]
    exact Layout.mem_siblings.mpr hcpu

/-- The CPU that a handle names is one of them. -/
theorem mem_covered_of_named {inv : Inventory} {h : Handle} {cpu : Nat}
    (hnamed : h.cpu? = some cpu) : cpu ∈ inv.covered h := by
  cases h with
  | none => cases hnamed
  | cpu index => exact List.mem_singleton.mpr (Option.some.inj hnamed).symm
  | wholeCore first =>
    obtain rfl : first = cpu := Option.some.inj hnamed
    unfold covered
    dsimp only
    split
    · next slot hslot =>
      exact Layout.mem_siblings.mpr (Layout.physicalCore_eq_ok_iff.mpr ⟨slot, hslot, rfl⟩)
    · exact List.mem_singleton_self first

/-- For a core whose first CPU lies in the layout these are the only ones. -/
theorem covers_of_mem_covered {inv : Inventory} {first core cpu : Nat}
    (hfirst : inv.layout.physicalCore first = .ok core)
    (hc : cpu ∈ inv.covered (.wholeCore first)) :
    Handle.Covers inv.layout (.wholeCore first) cpu := by
  obtain ⟨slot, hslot, rfl⟩ := Layout.physicalCore_eq_ok_iff.mp hfirst
  simp only [covered, hslot] at hc
  exact ⟨slot.core, hfirst, Layout.mem_siblings.mp hc⟩

/-- An operation on a handle touches the CPU that it names and those that it covers. -/
theorem mem_covered_iff {inv : Inventory} {h : Handle} {cpu : Nat} :
    cpu ∈ inv.covered h ↔ h.cpu? = some cpu ∨ h.Covers inv.layout cpu := by
  constructor
  · intro hmem
    cases h with
    | none => cases hmem
    | cpu index => exact Or.inr (List.mem_singleton.mp hmem)
    | wholeCore first =>
      cases hslot : inv.layout.slots[first]? with
      | none =>
        simp only [covered, hslot] at hmem
        exact Or.inl (congrArg some (List.mem_singleton.mp hmem).symm)
      | some slot =>
        have hcore := Layout.physicalCore_eq_ok_iff.mpr ⟨slot, hslot, rfl⟩
        exact Or.inr (covers_of_mem_covered hcore hmem)
  · rintro (hnamed | hcovers)
    · exact mem_covered_of_named hnamed
    · exact mem_covered_of_covers hcovers

/-! ## Changing some locks -/

@[simp] theorem layout_update (inv : Inventory) (cpus : List Nat) (change : Lock → Lock) :
    (inv.update cpus change).layout = inv.layout := rfl

@[simp] theorem policy_update (inv : Inventory) (cpus : List Nat) (change : Lock → Lock) :
    (inv.update cpus change).policy = inv.policy := rfl

@[simp] theorem length_locks_update (inv : Inventory) (cpus : List Nat) (change : Lock → Lock) :
    (inv.update cpus change).locks.length = inv.locks.length := by
  simp only [update, List.length_mapIdx]

/-- Each lock after a change: changed if its CPU is listed, as it was otherwise. -/
theorem getElem?_update (inv : Inventory) (cpus : List Nat) (change : Lock → Lock) (cpu : Nat) :
    (inv.update cpus change).locks[cpu]? =
      inv.locks[cpu]?.map fun lock => if cpu ∈ cpus then change lock else lock := by
  simp only [update, List.getElem?_mapIdx, List.contains_iff_mem]

/-- A listed lock is changed. -/
theorem getElem?_update_of_mem {inv : Inventory} {cpus : List Nat} {change : Lock → Lock}
    {cpu : Nat} {lock : Lock} (hlock : inv.locks[cpu]? = some lock) (hmem : cpu ∈ cpus) :
    (inv.update cpus change).locks[cpu]? = some (change lock) := by
  rw [getElem?_update, hlock, Option.map_some, if_pos hmem]

/-- A change that leaves a lock alone where it stands does not show there. -/
theorem getElem?_update_of_fixed {inv : Inventory} {cpus : List Nat} {change : Lock → Lock}
    {cpu : Nat} {lock : Lock} (hlock : inv.locks[cpu]? = some lock)
    (hfixed : cpu ∈ cpus → change lock = lock) :
    (inv.update cpus change).locks[cpu]? = some lock := by
  rw [getElem?_update, hlock, Option.map_some]
  split
  · next hmem => rw [hfixed hmem]
  · rfl

/-- Two changes of the same locks are one. -/
theorem update_update (inv : Inventory) (cpus : List Nat) (first second : Lock → Lock) :
    (inv.update cpus first).update cpus second =
      inv.update cpus fun lock => second (first lock) := by
  simp only [update, List.mapIdx_mapIdx]
  congr 2
  funext cpu lock
  simp only [Function.comp_apply]
  split <;> rfl

end Inventory

/-! ## The invariant of the table -/

/-- What is always true of the lock of a CPU. -/
structure Lock.Fits (policy : Policy) (cpu : Nat) (lock : Lock) : Prop where
  cpu_eq : lock.cpu = cpu
  base_eq : lock.base = policy.isBase cpu
  reservable_eq : lock.reservable = policy.isReservable cpu
  owned : lock.bound = true → lock.owner.isSome = true

namespace Lock.Fits

variable {policy : Policy} {cpu : Nat} {lock : Lock}

/-- A new lock says what the policy says. -/
theorem new (policy : Policy) (cpu : Nat) :
    (Lock.new cpu (policy.isBase cpu) (policy.isReservable cpu)).Fits policy cpu where
  cpu_eq := rfl
  base_eq := rfl
  reservable_eq := rfl
  owned hbound := Bool.noConfusion hbound

/-- A lock may be given to any thread, and then be marked as bound or not. -/
theorem give (h : lock.Fits policy cpu) (owner : ThreadId) (bound : Bool) :
    ({ lock with owner := some owner, bound } : Lock).Fits policy cpu where
  cpu_eq := h.cpu_eq
  base_eq := h.base_eq
  reservable_eq := h.reservable_eq
  owned _ := rfl

/-- A lock that is cleared goes on saying what the policy says. -/
theorem clear (h : lock.Fits policy cpu) : lock.clear.Fits policy cpu where
  cpu_eq := h.cpu_eq
  base_eq := h.base_eq
  reservable_eq := h.reservable_eq
  owned hbound := Bool.noConfusion hbound

end Lock.Fits

namespace Inventory

/-- The invariant of an inventory: a lock for every CPU of the layout, each in its place. -/
structure WellFormed (inv : Inventory) : Prop where
  length_eq : inv.locks.length = inv.layout.cpus
  fits : ∀ (cpu : Nat) (lock : Lock), inv.locks[cpu]? = some lock → lock.Fits inv.policy cpu

namespace WellFormed

theorem new (layout : Layout) (policy : Policy) : (Inventory.new layout policy).WellFormed where
  length_eq := by simp only [Inventory.new, List.length_map, List.length_range]
  fits := by
    intro cpu lock hlock
    simp only [Inventory.new, List.getElem?_map, Option.map_eq_some_iff] at hlock
    obtain ⟨index, hindex, rfl⟩ := hlock
    obtain ⟨hlt, rfl⟩ := List.getElem?_eq_some_iff.mp hindex
    rw [List.getElem_range]
    exact Lock.Fits.new policy cpu

end WellFormed

/-- In a new table every lock is free and none is marked. -/
theorem free_of_getElem?_new {layout : Layout} {policy : Policy} {cpu : Nat} {lock : Lock}
    (hlock : (Inventory.new layout policy).locks[cpu]? = some lock) :
    lock.owner = none ∧ lock.bound = false := by
  simp only [Inventory.new, List.getElem?_map, Option.map_eq_some_iff] at hlock
  obtain ⟨index, -, rfl⟩ := hlock
  exact ⟨rfl, rfl⟩

/-! ## Inventories that differ in owners and marks -/

/-- The second inventory comes from the first by changes to the owners of locks and to the marks of
being bound. -/
structure Revises (inv after : Inventory) : Prop where
  layout_eq : after.layout = inv.layout
  policy_eq : after.policy = inv.policy
  wellFormed : inv.WellFormed → after.WellFormed

namespace Revises

theorem refl (inv : Inventory) : inv.Revises inv :=
  ⟨rfl, rfl, id⟩

theorem trans {first second third : Inventory} (h : first.Revises second)
    (h' : second.Revises third) : first.Revises third :=
  ⟨h'.layout_eq.trans h.layout_eq, h'.policy_eq.trans h.policy_eq,
    fun hwf => h'.wellFormed (h.wellFormed hwf)⟩

/-- A change that keeps the facts of each lock makes such an inventory. -/
theorem update {inv : Inventory} {cpus : List Nat} {change : Lock → Lock}
    (hchange : ∀ (cpu : Nat) (lock : Lock), lock.Fits inv.policy cpu →
      (change lock).Fits inv.policy cpu) :
    inv.Revises (inv.update cpus change) where
  layout_eq := rfl
  policy_eq := rfl
  wellFormed h :=
    { length_eq := by rw [length_locks_update, layout_update, h.length_eq]
      fits := by
        intro cpu lock hlock
        rw [getElem?_update, Option.map_eq_some_iff] at hlock
        obtain ⟨before, hbefore, rfl⟩ := hlock
        have hfits := h.fits cpu before hbefore
        split
        · exact hchange cpu before hfits
        · exact hfits }

end Revises

end Inventory

end CpuPlacement
