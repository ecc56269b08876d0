import CpuPlacement.Proofs.Reservation.Run
import Mathlib

/-!
# What the mark of a fresh reservation says

A lock that is marked as bound says that its owner has been pinned to the CPU. A reservation sets
the mark when it pins the caller, and otherwise leaves the mark of every lock as it finds it. A lock
that can be reserved is free, and then not marked, or it still has an owner that has ended; if that
thread was bound to the CPU, the mark stays and is wrong from then on. The main statement says that
this is the one way in which a fresh reservation is marked wrongly, in every state that a run
reaches.
-/

set_option autoImplicit false

namespace CpuPlacement

variable {σ : Type}

/-- The owner of the CPU has ended, and was bound to it. -/
def World.LeftBound (w : World σ) (cpu : Nat) : Prop :=
  ∃ lock owner, w.inventory.locks[cpu]? = some lock ∧ lock.owner = some owner ∧
    w.roster.alive owner = false ∧ lock.bound = true

/-- The lock of the CPU is marked as bound, or it is not. -/
def World.Marked (w : World σ) (cpu : Nat) (mark : Bool) : Prop :=
  w.inventory.locks[cpu]?.map (·.bound) = some mark

/-- Of the locks that can be reserved, those are marked whose owner has ended and left the mark. -/
theorem World.marked_of_available {w : World σ} (h : w.inventory.WellFormed) {cpu : Nat}
    (havailable : w.inventory.available w.roster.alive cpu = true) :
    ∃ mark, w.Marked cpu mark ∧ (mark = true ↔ w.LeftBound cpu) := by
  obtain ⟨lock, hlock, hreservable⟩ := Inventory.available_iff.mp havailable
  refine ⟨lock.bound, by rw [World.Marked, hlock, Option.map_some], ?_⟩
  constructor
  · intro hbound
    obtain ⟨owner, howner⟩ := Option.isSome_iff_exists.mp ((h.fits cpu lock hlock).owned hbound)
    have hdead : w.roster.alive owner = false := by
      have hfree := (Bool.and_eq_true_iff.mp hreservable).2
      simpa [Lock.liveOwner?, howner, Option.filter] using hfree
    exact ⟨lock, owner, hlock, howner, hdead, hbound⟩
  · rintro ⟨found, _, hfound, -, -, hbound⟩
    obtain rfl := Option.some.inj (hlock.symm.trans hfound)
    exact hbound

/-- What a reservation leaves behind at a CPU that it takes: the mark that was there, or one because
the caller has been pinned. -/
theorem Inventory.marked_take {inv : Inventory} {backend : Backend σ} {native : σ} {me : ThreadId}
    {pinned : Bool} {h : Handle} {named cpu : Nat} {mark : Bool}
    (hmark : inv.locks[cpu]?.map (·.bound) = some mark) (hmem : cpu ∈ inv.covered h) :
    (inv.take backend native me pinned h named).inventory.locks[cpu]?.map (·.bound) =
      some (mark || (inv.take backend native me pinned h named).pinned) := by
  obtain ⟨lock, hlock, rfl⟩ := Option.map_eq_some_iff.mp hmark
  rw [take_inventory, getElem?_update_of_mem hlock hmem, Option.map_some]

/-- After a reservation its CPUs are marked as bound if the caller was to be pinned and the native
call succeeded, and are not marked otherwise, exactly unless the caller was not pinned and took a
CPU over from a thread that ended while it was bound to it. -/
theorem fresh_mark_iff_pinned_or_not_leftBound {backend : Backend σ} {layout : Layout}
    {policy : Policy} {native : σ} {roster : Roster} {events : List (Event σ)} {w next : World σ}
    {me : ThreadId} {request : Request} {bind : Bool} {h : Handle}
    (run : Run backend (World.initial layout policy native roster) events w)
    (hreserve : request.reserve? = some bind)
    (step : Step backend w (.call me request (.handle h)) next) :
    (∀ cpu, h.Covers w.inventory.layout cpu →
        next.Marked cpu (bind && (w.serve backend me request).pinned)) ↔
      (bind && (w.serve backend me request).pinned) = true ∨
        ∀ cpu, h.Covers w.inventory.layout cpu → ¬ w.LeftBound cpu := by
  obtain ⟨-, hreply, rfl⟩ := step.of_call
  unfold World.afterCall
  unfold World.serve at hreply ⊢
  rcases Inventory.serve_reserve_cases hreserve with hnone | ⟨h', named, -, hgrant, htake⟩
  · rw [hnone] at hreply
    obtain rfl : h = .none := Reply.handle.inj hreply
    exact iff_of_true (fun _ hcovers => hcovers.elim) (Or.inr fun _ hcovers => hcovers.elim)
  · rw [htake] at hreply ⊢
    rw [Outcome.map_result, Inventory.take_result] at hreply
    obtain rfl := Reply.handle.inj hreply
    rw [Outcome.map_pinned, Inventory.and_pinned_take]
    generalize hpinned : (w.inventory.take backend w.native me bind h named).pinned = pinned
    -- every covered CPU keeps the mark that it has, or gets one with the call
    have hmarks : ∀ cpu, h.Covers w.inventory.layout cpu →
        ∃ mark, (mark = true ↔ w.LeftBound cpu) ∧
          (w.inventory.take backend w.native me bind h named).inventory.locks[cpu]?.map (·.bound) =
            some (mark || pinned) := by
      intro cpu hcovers
      have hmem := Inventory.mem_covered_of_covers hcovers
      obtain ⟨mark, hmark, hleft⟩ :=
        World.marked_of_available run.wellFormed (hgrant.available cpu hmem)
      exact ⟨mark, hleft, hpinned ▸ Inventory.marked_take hmark hmem⟩
    constructor
    · intro hall
      cases pinned with
      | true => exact Or.inl rfl
      | false =>
        refine Or.inr fun cpu hcovers hleft => ?_
        obtain ⟨mark, hiff, hafter⟩ := hmarks cpu hcovers
        rw [hiff.mpr hleft] at hafter
        cases hafter.symm.trans (hall cpu hcovers)
    · rintro hcase cpu hcovers
      obtain ⟨mark, hiff, hafter⟩ := hmarks cpu hcovers
      rcases hcase with rfl | hnone
      · rwa [Bool.or_true] at hafter
      · rwa [Bool.eq_false_iff.mpr (mt hiff.mp (hnone cpu hcovers)), Bool.false_or] at hafter

/-- A world in which the first thread has reserved core 1, been pinned to it, and given it up. -/
def World.givenUp : World Simulated :=
  (World.small.afterCall Simulated.backend ⟨1⟩ (.acquireCore true [] [])).afterCall
    Simulated.backend ⟨1⟩ .release

/-- The second thread then reserves the core without being pinned, and neither of its CPUs is
marked. -/
theorem fresh_mark_after_release :
    ∃ next, Run Simulated.backend World.small
        [.call ⟨1⟩ (.acquireCore true [] []) (.handle (.wholeCore 1)), .call ⟨1⟩ .release .done]
        World.givenUp ∧
      Step Simulated.backend World.givenUp
        (.call ⟨2⟩ (.acquireCore false [] []) (.handle (.wholeCore 1))) next ∧
      next.Marked 1 false ∧ next.Marked 3 false := by
  have run : Run Simulated.backend World.small
      [.call ⟨1⟩ (.acquireCore true [] []) (.handle (.wholeCore 1)), .call ⟨1⟩ .release .done]
      World.givenUp := by
    refine .cons (.of_reply rfl ?_) (.cons (.of_reply rfl rfl) (.nil _))
    cbv
  have step : Step Simulated.backend World.givenUp
      (.call ⟨2⟩ (.acquireCore false [] []) (.handle (.wholeCore 1))) _ := .of_reply rfl (by cbv)
  have hfree : World.givenUp.inventory.locks.all (·.owner.isNone) = true := by cbv
  have hnone : ∀ cpu, ¬ World.givenUp.LeftBound cpu := by
    rintro cpu ⟨lock, owner, hlock, howner, -⟩
    have hisNone := List.all_eq_true.mp hfree lock (List.mem_of_getElem? hlock)
    rw [howner] at hisNone
    cases hisNone
  have hmarks := (fresh_mark_iff_pinned_or_not_leftBound run rfl step).mpr
    (Or.inr fun cpu _ => hnone cpu)
  exact ⟨_, run, step, hmarks 1 ⟨1, by cbv, by cbv⟩, hmarks 3 ⟨1, by cbv, by cbv⟩⟩

/-! ## The exception happens -/

/-- A world in which the first thread has reserved CPU 3, been pinned to it, and ended. -/
def World.abandoned : World Simulated :=
  let w := World.small.afterCall Simulated.backend ⟨1⟩ (.acquire true [] [])
  { w with roster := w.roster.finish ⟨1⟩ }

/-- The second thread then reserves CPU 3 without being pinned, and yet the lock is marked. -/
theorem fresh_mark_wrong_after_bound_owner_ended :
    ∃ next, Run Simulated.backend World.small
        [.call ⟨1⟩ (.acquire true [] []) (.handle (.cpu 3)), .finish ⟨1⟩] World.abandoned ∧
      Step Simulated.backend World.abandoned
        (.call ⟨2⟩ (.acquire false [] []) (.handle (.cpu 3))) next ∧ next.Marked 3 true := by
  refine ⟨_, .cons (.of_reply rfl ?_) (.cons (.finish _ ⟨1⟩) (.nil _)), .of_reply rfl ?_, ?_⟩
    <;> cbv

end CpuPlacement
