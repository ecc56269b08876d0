import CpuPlacement.Proofs.Reservation.Run
import Mathlib

/-!
# What a failed binding leaves behind

A thread is told that it could not bind a handle for one of two reasons. The lock of the CPU that
the handle names does not let it, because there is no such CPU, nobody has reserved it, or another
live thread is bound to it; then the table stays as it is. Or the native call is refused; by then
the caller has already become the owner of all that the handle stands for, and none of it is marked
as bound afterwards. The main statement says of which locks that makes something else than they were
before: of those that another thread held and of those that were marked.
-/

set_option autoImplicit false

namespace CpuPlacement

variable {σ : Type}

namespace Inventory

/-- A failed binding leaves the table as it is, or gives all that the handle stands for to the
caller without marking it. -/
theorem bind_failed_cases {inv : Inventory} {backend : Backend σ} {native : σ}
    {alive : ThreadId → Bool} {me : ThreadId} {h : Handle}
    (hfailed : (inv.bind backend native alive me h).result = false) :
    (¬ inv.Binds alive me h ∧ (inv.bind backend native alive me h).inventory = inv) ∨
      (inv.Binds alive me h ∧
        (inv.bind backend native alive me h).inventory =
          inv.update (inv.covered h) fun lock =>
            { lock with owner := some me, bound := false }) := by
  rcases @bind_cases _ inv backend native alive me h with ⟨hnot, hrefused⟩ | ⟨hbinds, heq⟩
  · exact Or.inl ⟨hnot, congrArg Outcome.inventory hrefused⟩
  · exact Or.inr ⟨hbinds, hfailed ▸ heq⟩

end Inventory

namespace World

/-- The caller may bind the handle, which stands for the CPU among others, and the lock of that CPU
is not the caller's or is marked as bound. If the native call is refused, the lock loses its owner
to the caller, or the mark. -/
def Unsettles (w : World σ) (me : ThreadId) (h : Handle) (cpu : Nat) : Prop :=
  w.inventory.Binds w.roster.alive me h ∧
    (h.cpu? = some cpu ∨ h.Covers w.inventory.layout cpu) ∧
    ∃ lock, w.inventory.locks[cpu]? = some lock ∧ (lock.owner ≠ some me ∨ lock.bound = true)

end World

/-- A thread is told that it could not bind a handle. The lock of a CPU is then as it was before,
exactly unless the call unsettles it. -/
theorem failed_bind_keeps_lock_iff {backend : Backend σ} {w next : World σ} {me : ThreadId}
    {h : Handle} (step : Step backend w (.call me (.bind h) (.bound false)) next) (cpu : Nat) :
    next.inventory.locks[cpu]? = w.inventory.locks[cpu]? ↔ ¬ w.Unsettles me h cpu := by
  obtain ⟨-, hreply, rfl⟩ := step.of_call
  have hfailed := (Reply.bound.inj hreply).symm
  unfold World.afterCall World.serve Inventory.serve World.Unsettles
  rw [Outcome.map_inventory]
  rcases Inventory.bind_failed_cases hfailed with ⟨hnot, heq⟩ | ⟨hbinds, heq⟩
  · rw [heq]
    exact iff_of_true rfl fun hunsettles => hnot hunsettles.1
  · rw [heq, ← Inventory.mem_covered_iff]
    constructor
    · rintro hkept ⟨-, hmem, lock, hlock, hdiffers⟩
      rw [Inventory.getElem?_update_of_mem hlock hmem, hlock] at hkept
      have hlock' := Option.some.inj hkept
      rcases hdiffers with howner | hbound
      · exact howner (congrArg Lock.owner hlock').symm
      · exact Bool.noConfusion (hbound.symm.trans (congrArg Lock.bound hlock').symm)
    · intro hsettled
      cases hlock : w.inventory.locks[cpu]? with
      | none => rw [Inventory.getElem?_update, hlock, Option.map_none]
      | some lock =>
        refine Inventory.getElem?_update_of_fixed hlock fun hmem => ?_
        -- nothing was there to change: the lock was the caller's already, and not marked
        obtain ⟨howner, hbound⟩ :=
          not_or.mp fun hdiffers => hsettled ⟨hbinds, hmem, lock, hlock, hdiffers⟩
        rw [← not_ne_iff.mp howner, ← Bool.eq_false_iff.mpr hbound]

/-- A world in which the first thread has reserved CPU 3 without being pinned, and every native call
is refused from then on. -/
def World.refusing : World Simulated :=
  let w := World.small.afterCall Simulated.backend ⟨1⟩ (.acquire false [] [])
  { w with native := w.native.reject true }

/-- The machine begins to refuse masks after a reservation. -/
theorem run_refusing :
    Run Simulated.backend World.small
      [.call ⟨1⟩ (.acquire false [] []) (.handle (.cpu 3)),
        .drift World.refusing.native] World.refusing :=
  .cons (.of_reply rfl (by cbv)) (.cons (.drift _ _) (.nil _))

/-- The first thread then cannot bind its own CPU, and keeps it. -/
theorem failed_bind_keeps_own_lock :
    ∃ next, Run Simulated.backend World.small
        [.call ⟨1⟩ (.acquire false [] []) (.handle (.cpu 3)),
          .drift World.refusing.native] World.refusing ∧
      Step Simulated.backend World.refusing (.call ⟨1⟩ (.bind (.cpu 3)) (.bound false)) next ∧
      next.inventory.locks[3]? = World.refusing.inventory.locks[3]? := by
  have step : Step Simulated.backend World.refusing
      (.call ⟨1⟩ (.bind (.cpu 3)) (.bound false)) _ := .of_reply rfl (by cbv)
  have hlock : World.refusing.inventory.locks[3]? = some ⟨3, true, true, some ⟨1⟩, false⟩ := by
    cbv
  refine ⟨_, run_refusing, step, (failed_bind_keeps_lock_iff step 3).mpr ?_⟩
  rintro ⟨-, -, lock, hfound, hdiffers⟩
  obtain rfl := Option.some.inj (hlock.symm.trans hfound)
  rcases hdiffers with howner | hbound
  · exact howner rfl
  · exact Bool.noConfusion hbound

/-! ## The exception happens -/

/-- The second thread then cannot bind CPU 3 either, and takes it from the first all the same. -/
theorem failed_bind_takes_lock :
    ∃ next, Run Simulated.backend World.small
        [.call ⟨1⟩ (.acquire false [] []) (.handle (.cpu 3)),
          .drift World.refusing.native] World.refusing ∧
      Step Simulated.backend World.refusing (.call ⟨2⟩ (.bind (.cpu 3)) (.bound false)) next ∧
      World.refusing.inventory.Owns ⟨1⟩ 3 ∧ next.inventory.Owns ⟨2⟩ 3 := by
  refine ⟨_, run_refusing, .of_reply rfl ?_, ?_, ?_⟩ <;> cbv

end CpuPlacement
