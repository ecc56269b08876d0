import CpuPlacement.Proofs.Reservation.Granting

/-!
# Taking over and giving up

What binding and releasing do to the table. A thread that binds a handle takes over all that the
handle stands for, once the lock of the CPU that it names has passed the check (`bind_cases`); the
other locks of a whole core are not checked. Marking a whole core checks each lock for itself.
Releasing gives up locks of the caller and, when it gives up everything, those of threads that have
ended.
-/

set_option autoImplicit false

namespace CpuPlacement

variable {σ : Type}

namespace Lock

/-- The check of a lock fails only against another thread, which is alive and bound. -/
theorem boundToOther_iff {lock : Lock} {alive : ThreadId → Bool} {me : ThreadId} :
    lock.boundToOther alive me = true ↔
      lock.bound = true ∧ ∃ owner, lock.owner = some owner ∧ alive owner = true ∧ owner ≠ me := by
  unfold boundToOther liveOwner?
  cases lock.owner with
  | none => simp
  | some owner => cases halive : alive owner <;> simp [Option.filter, halive]

end Lock

namespace Inventory

/-! ## Binding a handle -/

/-- The lock of the CPU that the handle names lets the caller bind it: the CPU is reserved, and no
other thread that is alive is bound to it. -/
def Binds (inv : Inventory) (alive : ThreadId → Bool) (me : ThreadId) (h : Handle) : Prop :=
  ∃ cpu lock, h.cpu? = some cpu ∧ inv.locks[cpu]? = some lock ∧ lock.owner.isSome = true ∧
    lock.boundToOther alive me = false

section Bind

variable {inv : Inventory} {backend : Backend σ} {native : σ} {alive : ThreadId → Bool}
  {me : ThreadId} {h : Handle}

/-- Binding a handle: it is refused and nothing happens, or the caller owns all that the handle
stands for, marked as bound if the native call succeeded and as not bound otherwise. -/
theorem bind_cases :
    (¬ inv.Binds alive me h ∧ inv.bind backend native alive me h = ⟨false, inv, native, none⟩) ∨
      (inv.Binds alive me h ∧
        (inv.bind backend native alive me h).inventory =
          inv.update (inv.covered h) fun lock =>
            { lock with
              owner := some me
              bound := (inv.bind backend native alive me h).result }) := by
  unfold bind
  dsimp only
  split
  -- it is refused in three ways, each of which contradicts one part of `Binds`
  · next hcpu =>
    refine Or.inl ⟨?_, rfl⟩
    rintro ⟨cpu, lock, hnamed, -⟩
    rw [hcpu] at hnamed
    cases hnamed
  · next cpu hcpu =>
    split
    · next hlock =>
      refine Or.inl ⟨?_, rfl⟩
      rintro ⟨named, lock, hnamed, hfound, -⟩
      obtain rfl := Option.some.inj (hcpu.symm.trans hnamed)
      rw [hlock] at hfound
      cases hfound
    · next lock hlock =>
      split
      · next hrefused =>
        refine Or.inl ⟨?_, rfl⟩
        rintro ⟨named, found, hnamed, hfound, howner, hfree⟩
        obtain rfl := Option.some.inj (hcpu.symm.trans hnamed)
        obtain rfl := Option.some.inj (hlock.symm.trans hfound)
        rw [hfree, Bool.or_false] at hrefused
        rw [Option.isNone_iff_eq_none.mp hrefused] at howner
        cases howner
      · next hpassed =>
        obtain ⟨howner, hfree⟩ := not_or.mp (mt Bool.or_eq_true_iff.mpr hpassed)
        refine Or.inr ⟨⟨cpu, lock, hcpu, hlock, ?_, Bool.eq_false_iff.mpr hfree⟩, ?_⟩
        · cases hown : lock.owner with
          | none => exact absurd (by rw [hown]; rfl) howner
          | some owner => rfl
        · split <;> simp only [setBound, assign, update_update]

end Bind

/-- Marking a whole core changes the locks that the handle of that core stands for, each unless
another thread that is alive is bound to it. -/
theorem bindWholeCore_eq {inv : Inventory} {alive : ThreadId → Bool} {me : ThreadId} {cpu : Int} :
    inv.bindWholeCore alive me cpu = inv ∨
      inv.bindWholeCore alive me cpu =
        inv.update (inv.covered (.wholeCore cpu.toNat)) fun lock =>
          if lock.boundToOther alive me then lock
          else { lock with owner := some me, bound := true } := by
  unfold bindWholeCore
  split
  · exact Or.inr rfl
  · exact Or.inl rfl

/-! ## Releasing -/

/-- Each lock after the caller gave up everything. -/
theorem getElem?_release (inv : Inventory) (backend : Backend σ) (native : σ)
    (alive : ThreadId → Bool) (me : ThreadId) (cpu : Nat) :
    (inv.release backend native alive me).inventory.locks[cpu]? =
      inv.locks[cpu]?.map fun lock => if freedBy alive me lock then lock.clear else lock := by
  simp only [release, List.getElem?_map]

/-- A CPU is given up if the caller owns it, and otherwise the answer is an error. -/
theorem releaseCpu_eq_ok_iff {inv after : Inventory} {me : ThreadId} {cpu : Int} :
    inv.releaseCpu me cpu = .ok after ↔
      0 ≤ cpu ∧ inv.Owns me cpu.toNat ∧ after = inv.update [cpu.toNat] Lock.clear := by
  have howns : inv.locks[cpu.toNat]?.any (·.owner == some me) = true ↔ inv.Owns me cpu.toNat := by
    rw [owns_iff, Option.any_eq_true]
    simp only [beq_iff_eq]
  unfold releaseCpu
  constructor
  · intro h
    split at h
    · next hrange =>
      split at h
      · next hany => exact ⟨hrange.1, howns.mp hany, (Except.ok.inj h).symm⟩
      · cases h
    · cases h
  · rintro ⟨hpos, hown, rfl⟩
    obtain ⟨lock, hlock, -⟩ := owns_iff.mp hown
    have hlt : cpu.toNat < inv.cpus := (List.getElem?_eq_some_iff.mp hlock).1
    rw [if_pos ⟨hpos, by omega⟩, if_pos (howns.mpr hown)]

/-! ## What binding and releasing leave alone -/

section Revises

variable (inv : Inventory) (backend : Backend σ) (native : σ) (alive : ThreadId → Bool)
  (me : ThreadId)

/-- Binding changes owners only. -/
theorem revises_bind (h : Handle) :
    inv.Revises (inv.bind backend native alive me h).inventory := by
  rcases bind_cases with ⟨-, hrefused⟩ | ⟨-, hinventory⟩
  · rw [hrefused]
    exact Revises.refl inv
  · rw [hinventory]
    exact Revises.update fun _ _ hfits => hfits.give me _

/-- Binding to a whole core changes owners only. -/
theorem revises_bindWholeCore (cpu : Int) : inv.Revises (inv.bindWholeCore alive me cpu) := by
  rcases bindWholeCore_eq with hsame | hupdate
  · rw [hsame]
    exact Revises.refl inv
  · rw [hupdate]
    refine Revises.update fun _ lock hfits => ?_
    split
    · exact hfits
    · exact hfits.give me true

/-- Giving everything up changes owners only. -/
theorem revises_release :
    inv.Revises (inv.release backend native alive me).inventory where
  layout_eq := rfl
  policy_eq := rfl
  wellFormed h :=
    { length_eq := by simp only [release, List.length_map, h.length_eq]
      fits := by
        intro cpu lock hlock
        rw [getElem?_release, Option.map_eq_some_iff] at hlock
        obtain ⟨before, hbefore, rfl⟩ := hlock
        have hfits := h.fits cpu before hbefore
        split
        · exact hfits.clear
        · exact hfits }

/-- Giving up a CPU changes owners only. -/
theorem revises_releaseCpu {inv after : Inventory} {me : ThreadId} {cpu : Int}
    (h : inv.releaseCpu me cpu = .ok after) : inv.Revises after := by
  obtain ⟨-, -, rfl⟩ := releaseCpu_eq_ok_iff.mp h
  exact Revises.update fun _ _ hfits => hfits.clear

end Revises

end Inventory

end CpuPlacement
