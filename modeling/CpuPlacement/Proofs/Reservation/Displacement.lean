import CpuPlacement.Proofs.Reservation.Run
import Mathlib

/-!
# Who can lose a lock that it is bound to

A thread that is alive and bound to a CPU keeps its lock whatever other threads ask for, with one
exception. Binding the handle of a whole core checks the lock of the CPU that the handle names and
then takes over every CPU of the core; where another thread has come to be bound to one of the other
CPUs since the handle was given, that thread loses it (`World.Displaces`). The main statement says
that this is the only way and that it always happens then.
-/

set_option autoImplicit false

namespace CpuPlacement

variable {σ : Type}

namespace World

/-- The thread is alive, owns the lock of the CPU, and the lock is marked as bound. -/
def Bound (w : World σ) (thread : ThreadId) (cpu : Nat) : Prop :=
  w.roster.alive thread = true ∧
    ∃ lock, w.inventory.locks[cpu]? = some lock ∧ lock.owner = some thread ∧ lock.bound = true

/-- The caller binds the handle of a whole core, the lock of the CPU that it names lets it, and
another thread is bound to another CPU of that core. -/
def Displaces (w : World σ) (me : ThreadId) (request : Request) : Prop :=
  ∃ first cpu other, request = .bind (.wholeCore first) ∧
    w.inventory.Binds w.roster.alive me (.wholeCore first) ∧ cpu ≠ first ∧
    (Handle.wholeCore first).Covers w.inventory.layout cpu ∧ other ≠ me ∧ w.Bound other cpu

/-- Owner and mark of a lock can be looked up. -/
theorem exists_bound_iff {w : World σ} {thread : ThreadId} {cpu : Nat} :
    (∃ lock, w.inventory.locks[cpu]? = some lock ∧ lock.owner = some thread ∧ lock.bound = true) ↔
      w.inventory.locks[cpu]?.any (fun lock => lock.owner == some thread && lock.bound) = true := by
  simp only [Option.any_eq_true, Bool.and_eq_true, beq_iff_eq]

end World

namespace Inventory

variable {inv : Inventory} {alive : ThreadId → Bool} {me : ThreadId} {cpu : Nat} {lock : Lock}

/-- A lock that another thread is bound to has that thread as its owner. -/
theorem owns_of_boundToOther (hlock : inv.locks[cpu]? = some lock)
    (hother : lock.boundToOther alive me = true) :
    ∃ owner, inv.Owns owner cpu ∧ alive owner = true ∧ owner ≠ me := by
  obtain ⟨-, owner, howner, halive, hne⟩ := Lock.boundToOther_iff.mp hother
  exact ⟨owner, owns_iff.mpr ⟨lock, hlock, howner⟩, halive, hne⟩

/-- A handle that the caller may bind names no CPU that another thread is bound to. -/
theorem Binds.ne_named (hlock : inv.locks[cpu]? = some lock)
    (hother : lock.boundToOther alive me = true) {h : Handle} (hbinds : inv.Binds alive me h)
    {named : Nat} (hnamed : h.cpu? = some named) : cpu ≠ named := by
  rintro rfl
  obtain ⟨named, found, hnamed', hfound, -, hfree⟩ := hbinds
  obtain rfl := Option.some.inj (hnamed.symm.trans hnamed')
  obtain rfl := Option.some.inj (hlock.symm.trans hfound)
  rw [hother] at hfree
  cases hfree

/-- No request changes a lock that another thread is bound to, but for one that binds a handle which
covers the CPU. -/
theorem getElem?_serve_of_boundToOther (backend : Backend σ) (native : σ) {request : Request}
    (hlayout : request.replacesLayout = false) (hlock : inv.locks[cpu]? = some lock)
    (hother : lock.boundToOther alive me = true)
    (hspared : ∀ h, request = .bind h → inv.Binds alive me h → cpu ∉ inv.covered h) :
    (inv.serve backend native alive me request).inventory.locks[cpu]? = some lock := by
  obtain ⟨owner, howns, halive, hne⟩ := owns_of_boundToOther hlock hother
  cases hreserve : request.reserve? with
  | some pinned =>
    rcases serve_reserve_cases hreserve with hnone | ⟨h, named, -, hgrant, htake⟩
    · rw [hnone]
      exact hlock
    · rw [htake]
      rw [Outcome.map_inventory, take_inventory]
      -- what is granted was available, and this CPU is not
      exact getElem?_update_of_fixed hlock
        fun hmem => absurd hmem (hgrant.not_mem_covered howns halive)
  | none =>
    cases request with
    | bind h =>
      rw [serve, Outcome.map_inventory]
      rcases bind_cases with ⟨-, hrefused⟩ | ⟨hbinds, hinventory⟩
      · rw [hrefused]
        exact hlock
      · rw [hinventory]
        exact getElem?_update_of_fixed hlock fun hmem => absurd hmem (hspared h rfl hbinds)
    | bindWholeCore given =>
      simp only [serve]
      rcases bindWholeCore_eq with hsame | hupdate
      · rw [hsame]
        exact hlock
      · rw [hupdate]
        -- binding a whole core by number spares each sibling that another thread is bound to
        exact getElem?_update_of_fixed hlock fun _ => if_pos hother
    | release =>
      rw [serve, Outcome.map_inventory, getElem?_release, hlock, Option.map_some, if_neg]
      obtain ⟨-, owner', howner', halive', hne'⟩ := Lock.boundToOther_iff.mp hother
      simp [freedBy, howner', halive', hne']
    | releaseCpu given =>
      simp only [serve]
      split
      · next after hafter =>
        obtain ⟨-, hmine, rfl⟩ := releaseCpu_eq_ok_iff.mp hafter
        -- a CPU is released by number only by its owner
        refine getElem?_update_of_fixed hlock fun hmem => absurd ?_ hne
        obtain rfl := List.mem_singleton.mp hmem
        exact Option.some.inj (howns.symm.trans hmine)
      · exact hlock
    | acquire => cases hreserve
    | acquireCore => cases hreserve
    | install => cases hlayout

end Inventory

/-- Whatever a thread asks for, all others stay bound to the CPUs that they are bound to, exactly
unless it binds a whole core of which another thread is bound to a CPU that the handle does not
name. -/
theorem stays_bound_iff_not_displaces {backend : Backend σ} {w next : World σ} {me : ThreadId}
    {request : Request} {reply : Reply} (step : Step backend w (.call me request reply) next)
    (hlayout : request.replacesLayout = false) :
    (∀ cpu other, other ≠ me → w.Bound other cpu → next.Bound other cpu) ↔
      ¬ w.Displaces me request := by
  obtain ⟨-, -, rfl⟩ := step.of_call
  constructor
  · rintro hstays ⟨first, cpu, other, rfl, hbinds, -, hcovers, hne, hbound⟩
    obtain ⟨-, after, hafter, howner, -⟩ := hstays cpu other hne hbound
    obtain ⟨-, lock, hlock, -⟩ := hbound
    -- the binding goes through and gives the sibling a new owner
    rcases Inventory.bind_cases with ⟨hnot, -⟩ | ⟨-, hinventory⟩
    · exact hnot hbinds
    · simp only [World.afterCall, World.serve, Inventory.serve, Outcome.map] at hafter
      rw [hinventory, Inventory.getElem?_update_of_mem hlock
        (Inventory.mem_covered_of_covers hcovers)] at hafter
      obtain rfl := Option.some.inj hafter
      exact hne (Option.some.inj howner).symm
  · intro hspared cpu other hne hbound
    obtain ⟨halive, lock, hlock, howner, hmark⟩ := id hbound
    have hother : lock.boundToOther w.roster.alive me = true :=
      Lock.boundToOther_iff.mpr ⟨hmark, other, howner, halive, hne⟩
    refine ⟨halive, lock, ?_, howner, hmark⟩
    refine Inventory.getElem?_serve_of_boundToOther backend w.native hlayout hlock hother ?_
    intro h hrequest hbinds hmem
    cases h with
    | none => cases hmem
    -- the CPU that a handle names is checked, so only siblings of it remain
    | cpu index => exact hbinds.ne_named hlock hother rfl (List.mem_singleton.mp hmem)
    | wholeCore first =>
      have hnamed : cpu ≠ first := hbinds.ne_named hlock hother rfl
      cases hslot : w.inventory.layout.slots[first]? with
      | none =>
        simp only [Inventory.covered, hslot] at hmem
        exact hnamed (List.mem_singleton.mp hmem)
      | some slot =>
        have hcore := Layout.physicalCore_eq_ok_iff.mpr ⟨slot, hslot, rfl⟩
        have hcovers := Inventory.covers_of_mem_covered hcore hmem
        exact hspared ⟨first, cpu, other, hrequest, hbinds, hnamed, hcovers, hne, hbound⟩

/-! ## The exception happens -/

/-- A world in which the first thread has reserved core 1 and given up CPU 3, and the second has
reserved that and is bound to it. -/
def World.handedOn : World Simulated :=
  ((World.small.afterCall Simulated.backend ⟨1⟩ (.acquireCore false [] [])).afterCall
    Simulated.backend ⟨1⟩ (.releaseCpu 3)).afterCall Simulated.backend ⟨2⟩ (.acquire true [] [])

/-- The first thread gives up one of its siblings, and the second one is pinned to it. -/
theorem run_handedOn :
    Run Simulated.backend World.small
      [.call ⟨1⟩ (.acquireCore false [] []) (.handle (.wholeCore 1)),
        .call ⟨1⟩ (.releaseCpu 3) (.released (.ok ())),
        .call ⟨2⟩ (.acquire true [] []) (.handle (.cpu 3))] World.handedOn := by
  refine .cons (.of_reply rfl ?_) (.cons (.of_reply rfl ?_) (.cons (.of_reply rfl ?_) (.nil _)))
    <;> cbv

theorem bound_handedOn : World.handedOn.Bound ⟨2⟩ 3 :=
  ⟨rfl, World.exists_bound_iff.mpr (by cbv)⟩

/-- The first thread then marks the core as its own, and the second stays bound to CPU 3. -/
theorem stays_bound_when_core_marked :
    ∃ next, Step Simulated.backend World.handedOn (.call ⟨1⟩ (.bindWholeCore 1) .done) next ∧
      World.handedOn.Bound ⟨2⟩ 3 ∧ next.Bound ⟨2⟩ 3 := by
  have step : Step Simulated.backend World.handedOn (.call ⟨1⟩ (.bindWholeCore 1) .done) _ :=
    .of_reply rfl rfl
  have hspared : ¬ World.handedOn.Displaces ⟨1⟩ (.bindWholeCore 1) := by
    rintro ⟨_, _, _, ⟨⟩, _⟩
  exact ⟨_, step, bound_handedOn,
    (stays_bound_iff_not_displaces step rfl).mpr hspared 3 ⟨2⟩ (by decide) bound_handedOn⟩

/-- The first thread then binds its handle of the core, and the second loses CPU 3. -/
theorem not_stays_bound_when_core_bound :
    ∃ next, Run Simulated.backend World.small
        [.call ⟨1⟩ (.acquireCore false [] []) (.handle (.wholeCore 1)),
          .call ⟨1⟩ (.releaseCpu 3) (.released (.ok ())),
          .call ⟨2⟩ (.acquire true [] []) (.handle (.cpu 3))] World.handedOn ∧
      Step Simulated.backend World.handedOn (.call ⟨1⟩ (.bind (.wholeCore 1)) (.bound true)) next ∧
      World.handedOn.Bound ⟨2⟩ 3 ∧ ¬ next.Bound ⟨2⟩ 3 := by
  refine ⟨_, run_handedOn, .of_reply rfl ?_, bound_handedOn, ?_⟩
  · cbv
  · rintro ⟨-, hbound⟩
    exact absurd (World.exists_bound_iff.mp hbound) (by cbv; exact Bool.noConfusion)

end CpuPlacement
