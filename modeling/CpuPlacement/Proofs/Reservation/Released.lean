import CpuPlacement.Proofs.Reservation.Run
import Mathlib

/-!
# What releasing gives up

A thread that gives up everything frees its own locks and those of threads that have ended. A thread
that gives up one CPU frees the lock of that CPU if it owns it, and is refused otherwise. Whether
the native mask can be restored does not matter, and every other lock stays as it is; those of other
threads that are alive are among them.

A CPU that was given up belongs to nobody until somebody reserves or binds something
(`Run.vacant`), so that nobody can give it up again. If a layout is installed in the meantime, the
CPU belongs to nobody in the new table either, or the new table has no such CPU.
-/

set_option autoImplicit false

namespace CpuPlacement

variable {σ : Type}

namespace Inventory

variable {inv : Inventory} {alive : ThreadId → Bool} {me : ThreadId}

/-! ## Giving up everything -/

/-- A thread frees what it owns and what belongs to threads that have ended. -/
theorem freedBy_iff {lock : Lock} :
    freedBy alive me lock = true ↔
      lock.owner = some me ∨ ∃ owner, lock.owner = some owner ∧ alive owner = false := by
  simp only [freedBy, Option.any_eq_true, Bool.or_eq_true, beq_iff_eq, Bool.not_eq_true',
    and_or_left, exists_or, exists_eq_right]

/-- A lock that was given up is not given up again. -/
@[simp] theorem freedBy_clear (lock : Lock) : freedBy alive me lock.clear = false := rfl

/-- The lock of another thread that is alive is not given up. -/
theorem freedBy_of_other {lock : Lock} {owner : ThreadId} (howner : lock.owner = some owner)
    (hother : owner ≠ me) (halive : alive owner = true) : freedBy alive me lock = false := by
  simp [freedBy, howner, hother, halive]

/-- Giving up everything twice comes to the same table. -/
theorem release_release (inv : Inventory) (backend : Backend σ) (native again : σ)
    (alive : ThreadId → Bool) (me : ThreadId) :
    ((inv.release backend native alive me).inventory.release backend again alive me).inventory =
      (inv.release backend native alive me).inventory := by
  simp only [release, List.map_map]
  congr 2
  funext lock
  rw [Function.comp_apply]
  cases hfreed : freedBy alive me lock with
  | true => rfl
  | false => rw [if_neg Bool.false_ne_true, hfreed, if_neg Bool.false_ne_true]

/-! ## Giving up one CPU -/

/-- Why a caller that may not give the CPU up may not do so. -/
def refusal (inv : Inventory) (cpu : Int) : ReleaseError :=
  if 0 ≤ cpu ∧ cpu < inv.layout.cpus then .notHeld cpu else .outOfRange cpu inv.layout.cpus

/-- A caller gives up a CPU of the layout that it owns, and is refused otherwise. -/
theorem WellFormed.releaseCpu_cases (h : inv.WellFormed) (me : ThreadId) (cpu : Int) :
    ((0 ≤ cpu ∧ cpu < inv.layout.cpus ∧ inv.Owns me cpu.toNat) ∧
        inv.releaseCpu me cpu = .ok (inv.update [cpu.toNat] Lock.clear)) ∨
      (¬ (0 ≤ cpu ∧ cpu < inv.layout.cpus ∧ inv.Owns me cpu.toNat) ∧
        inv.releaseCpu me cpu = .error (inv.refusal cpu)) := by
  have hcpus : inv.cpus = inv.layout.cpus := h.length_eq
  by_cases howns : 0 ≤ cpu ∧ cpu < inv.layout.cpus ∧ inv.Owns me cpu.toNat
  · exact Or.inl ⟨howns, releaseCpu_eq_ok_iff.mpr ⟨howns.1, howns.2.2, rfl⟩⟩
  · refine Or.inr ⟨howns, ?_⟩
    unfold releaseCpu refusal
    rw [hcpus]
    split
    · next hrange =>
      rw [if_neg]
      intro hany
      obtain ⟨lock, hlock, howner⟩ := (Option.any_eq_true _ _).mp hany
      exact howns ⟨hrange.1, hrange.2, owns_iff.mpr ⟨lock, hlock, beq_iff_eq.mp howner⟩⟩
    · rfl

/-! ## A CPU that belongs to nobody -/

/-- Nobody owns the CPU, if there is one of that number. -/
def Vacant (inv : Inventory) (cpu : Nat) : Prop :=
  ∀ lock, inv.locks[cpu]? = some lock → lock.owner = none

/-- Nobody owns a CPU that is vacant. -/
theorem Vacant.not_owns {cpu : Nat} (h : inv.Vacant cpu) (owner : ThreadId) :
    ¬ inv.Owns owner cpu := by
  rintro howns
  obtain ⟨lock, hlock, howner⟩ := owns_iff.mp howns
  rw [h lock hlock] at howner
  cases howner

theorem vacant_new (layout : Layout) (policy : Policy) (cpu : Nat) :
    (Inventory.new layout policy).Vacant cpu :=
  fun _ hlock => (free_of_getElem?_new hlock).1

/-- A CPU whose lock was cleared is vacant. -/
theorem vacant_update_clear (inv : Inventory) (cpu : Nat) :
    (inv.update [cpu] Lock.clear).Vacant cpu := by
  intro lock hlock
  rw [getElem?_update, Option.map_eq_some_iff] at hlock
  obtain ⟨before, -, rfl⟩ := hlock
  rw [if_pos (List.mem_singleton_self cpu)]
  rfl

/-- Clearing locks makes nobody an owner. -/
theorem Vacant.update_clear {cpu : Nat} (h : inv.Vacant cpu) (cpus : List Nat) :
    (inv.update cpus Lock.clear).Vacant cpu := by
  intro lock hlock
  rw [getElem?_update, Option.map_eq_some_iff] at hlock
  obtain ⟨before, hbefore, rfl⟩ := hlock
  split
  · rfl
  · exact h before hbefore

/-- Neither does giving up everything. -/
theorem Vacant.release {cpu : Nat} (h : inv.Vacant cpu) (backend : Backend σ) (native : σ)
    (alive : ThreadId → Bool) (me : ThreadId) :
    (inv.release backend native alive me).inventory.Vacant cpu := by
  intro lock hlock
  rw [getElem?_release, Option.map_eq_some_iff] at hlock
  obtain ⟨before, hbefore, rfl⟩ := hlock
  split
  · rfl
  · exact h before hbefore

end Inventory

namespace Request

/-- The request may make the caller the owner of a CPU. -/
def takes : Request → Bool
  | acquire .. | acquireCore .. | bind _ | bindWholeCore _ => true
  | release | releaseCpu _ | install _ => false

/-- The caller gives something up. -/
def givesUp : Request → Bool
  | release | releaseCpu _ => true
  | _ => false

end Request

/-- A thread reserves or binds something. -/
def Event.Takes : Event σ → Prop
  | .call _ request _ => request.takes = true
  | _ => False

/-- A CPU that belongs to nobody still does after a step in which nobody reserves or binds. -/
theorem Step.vacant {backend : Backend σ} {w next : World σ} {event : Event σ} {cpu : Nat}
    (step : Step backend w event next) (hevent : ¬ event.Takes) (h : w.inventory.Vacant cpu) :
    next.inventory.Vacant cpu := by
  cases step with
  | start name => exact h
  | finish thread => exact h
  | drift native => exact h
  | call me request halive =>
    cases request with
    | release => exact h.release backend w.native w.roster.alive me
    | releaseCpu given =>
      simp only [World.afterCall, World.serve, Inventory.serve]
      split
      · next after hafter =>
        obtain ⟨-, -, rfl⟩ := Inventory.releaseCpu_eq_ok_iff.mp hafter
        exact h.update_clear _
      · exact h
    -- a new layout comes with a new table
    | install layout =>
      simp only [World.afterCall, World.serve, Inventory.serve, Inventory.install]
      split
      · exact h
      · exact Inventory.vacant_new layout _ cpu
    | acquire => exact absurd rfl hevent
    | acquireCore => exact absurd rfl hevent
    | bind => exact absurd rfl hevent
    | bindWholeCore => exact absurd rfl hevent

/-- As long as nobody reserves or binds, a CPU that belongs to nobody stays so. -/
theorem Run.vacant {backend : Backend σ} {w last : World σ} {events : List (Event σ)} {cpu : Nat}
    (run : Run backend w events last) (hevents : ∀ event ∈ events, ¬ event.Takes)
    (h : w.inventory.Vacant cpu) : last.inventory.Vacant cpu :=
  run.keeps (fun event => ¬ event.Takes) (fun w => w.inventory.Vacant cpu)
    (fun step hevent h => step.vacant hevent h) hevents h

namespace World

/-! ## The two requests -/

section Serve

variable {w : World σ}

/-- A thread that gives up a CPU is told so and the lock is cleared, exactly if the layout has the
CPU and the thread owns it; otherwise it is told why not and nothing happens. -/
theorem serve_releaseCpu_cases (h : w.inventory.WellFormed) (backend : Backend σ) (me : ThreadId)
    (cpu : Int) :
    ((0 ≤ cpu ∧ cpu < w.inventory.layout.cpus ∧ w.inventory.Owns me cpu.toNat) ∧
        w.serve backend me (.releaseCpu cpu) =
          ⟨.released (.ok ()), w.inventory.update [cpu.toNat] Lock.clear, w.native, none⟩) ∨
      (¬ (0 ≤ cpu ∧ cpu < w.inventory.layout.cpus ∧ w.inventory.Owns me cpu.toNat) ∧
        w.serve backend me (.releaseCpu cpu) =
          ⟨.released (.error (w.inventory.refusal cpu)), w.inventory, w.native, none⟩) := by
  simp only [serve, Inventory.serve]
  rcases h.releaseCpu_cases me cpu with ⟨howns, heq⟩ | ⟨hnot, heq⟩
  · exact Or.inl ⟨howns, by rw [heq]⟩
  · exact Or.inr ⟨hnot, by rw [heq]⟩

/-- What belongs to nobody cannot be given up. -/
theorem refuses_of_vacant (h : w.inventory.WellFormed) {cpu : Int}
    (hvacant : w.inventory.Vacant cpu.toNat) (backend : Backend σ) (me : ThreadId) :
    (w.serve backend me (.releaseCpu cpu)).result =
      .released (.error (w.inventory.refusal cpu)) := by
  rcases serve_releaseCpu_cases h backend me cpu with ⟨howns, -⟩ | ⟨-, heq⟩
  · exact absurd howns.2.2 (hvacant.not_owns me)
  · exact congrArg Outcome.result heq

/-- A thread that gives something up leaves the locks of other threads that are alive alone. -/
theorem getElem?_serve_of_givesUp {backend : Backend σ} {me owner : ThreadId} {request : Request}
    (hrequest : request.givesUp = true) {cpu : Nat} {lock : Lock}
    (hlock : w.inventory.locks[cpu]? = some lock) (howner : lock.owner = some owner)
    (hne : owner ≠ me) (halive : w.roster.alive owner = true) :
    (w.serve backend me request).inventory.locks[cpu]? = some lock := by
  cases request with
  | release =>
    rw [serve, Inventory.serve, Outcome.map_inventory, Inventory.getElem?_release, hlock,
      Option.map_some, Inventory.freedBy_of_other howner hne halive, if_neg Bool.false_ne_true]
  | releaseCpu given =>
    simp only [serve, Inventory.serve]
    split
    · next after hafter =>
      obtain ⟨-, hmine, rfl⟩ := Inventory.releaseCpu_eq_ok_iff.mp hafter
      refine Inventory.getElem?_update_of_fixed hlock fun hmem => absurd ?_ hne
      obtain rfl := List.mem_singleton.mp hmem
      have howns := Inventory.owns_iff.mpr ⟨lock, hlock, howner⟩
      exact Option.some.inj (howns.symm.trans hmine)
    · exact hlock
  | _ => cases hrequest

end Serve

end World

/-- What happens when the thread gives up everything: its own locks and those of threads that have
ended are cleared, the others stay, and doing so again right away changes nothing. -/
structure World.GivesUpAll (w : World σ) (backend : Backend σ) (me : ThreadId) : Prop where
  revises : w.inventory.Revises (w.serve backend me .release).inventory
  freed : ∀ (cpu : Nat) (lock : Lock), w.inventory.locks[cpu]? = some lock →
    (lock.owner = some me ∨ ∃ owner, lock.owner = some owner ∧ w.roster.alive owner = false) →
    (w.serve backend me .release).inventory.locks[cpu]? =
      some { lock with owner := none, bound := false }
  kept : ∀ (cpu : Nat) (lock : Lock), w.inventory.locks[cpu]? = some lock →
    ¬ (lock.owner = some me ∨ ∃ owner, lock.owner = some owner ∧ w.roster.alive owner = false) →
    (w.serve backend me .release).inventory.locks[cpu]? = some lock
  twice : ((w.afterCall backend me .release).serve backend me .release).inventory =
    (w.serve backend me .release).inventory

/-- A thread that gives everything up gives up just what it owns and what ended threads owned. -/
theorem World.givesUpAll (w : World σ) (backend : Backend σ) (me : ThreadId) :
    w.GivesUpAll backend me := by
  have hafter {cpu : Nat} {lock : Lock} (hlock : w.inventory.locks[cpu]? = some lock) :
      (w.serve backend me .release).inventory.locks[cpu]? =
        some (if Inventory.freedBy w.roster.alive me lock then lock.clear else lock) := by
    rw [World.serve, Inventory.serve, Outcome.map_inventory, Inventory.getElem?_release, hlock,
      Option.map_some]
  refine ⟨w.inventory.revises_release backend w.native w.roster.alive me,
    fun cpu lock hlock hfreed => ?_, fun cpu lock hlock hkept => ?_,
    w.inventory.release_release backend w.native (w.afterCall backend me .release).native
      w.roster.alive me⟩
  · rw [hafter hlock, if_pos (Inventory.freedBy_iff.mpr hfreed)]
    rfl
  · rw [hafter hlock, if_neg (mt Inventory.freedBy_iff.mp hkept)]

/-- What happens when the thread gives up one CPU: it succeeds exactly if the layout has the CPU and
the thread owns it, and clears that lock alone. A refusal says what is wrong and changes nothing.
Once the CPU was given up, nobody can give it up until somebody reserves or binds something. -/
structure World.GivesUpOne (w : World σ) (backend : Backend σ) (me : ThreadId) (cpu : Int) :
    Prop where
  ok_iff : (w.serve backend me (.releaseCpu cpu)).result = .released (.ok ()) ↔
    0 ≤ cpu ∧ cpu < w.inventory.layout.cpus ∧ w.inventory.Owns me cpu.toNat
  revises : w.inventory.Revises (w.serve backend me (.releaseCpu cpu)).inventory
  freed : (w.serve backend me (.releaseCpu cpu)).result = .released (.ok ()) →
    ∀ other : Nat, (w.serve backend me (.releaseCpu cpu)).inventory.locks[other]? =
      w.inventory.locks[other]?.map fun lock =>
        if (other : Int) = cpu then { lock with owner := none, bound := false } else lock
  refused : (w.serve backend me (.releaseCpu cpu)).result ≠ .released (.ok ()) →
    (w.serve backend me (.releaseCpu cpu)).result =
        .released (.error (w.inventory.refusal cpu)) ∧
      (w.serve backend me (.releaseCpu cpu)).inventory = w.inventory
  twice : (w.serve backend me (.releaseCpu cpu)).result = .released (.ok ()) →
    ∀ {later : List (Event σ)} {last : World σ},
      Run backend (w.afterCall backend me (.releaseCpu cpu)) later last →
      (∀ event ∈ later, ¬ event.Takes) → ∀ again : ThreadId,
        (last.serve backend again (.releaseCpu cpu)).result =
            .released (.error (last.inventory.refusal cpu)) ∧
          ((∀ event ∈ later, event.KeepsLayout) → last.inventory.refusal cpu = .notHeld cpu)

/-- A thread that gives up a CPU gives up that one, if it owns it. -/
theorem World.givesUpOne {w : World σ} (hwf : w.inventory.WellFormed) (backend : Backend σ)
    (me : ThreadId) (cpu : Int) : w.GivesUpOne backend me cpu := by
  rcases World.serve_releaseCpu_cases hwf backend me cpu with ⟨howns, heq⟩ | ⟨hnot, heq⟩
  · have hrevises : w.inventory.Revises (w.inventory.update [cpu.toNat] Lock.clear) :=
      .update fun _ _ hfits => hfits.clear
    have hresult : (w.serve backend me (.releaseCpu cpu)).result = .released (.ok ()) :=
      congrArg Outcome.result heq
    have hinventory : (w.serve backend me (.releaseCpu cpu)).inventory =
        w.inventory.update [cpu.toNat] Lock.clear := congrArg Outcome.inventory heq
    refine ⟨iff_of_true hresult howns, hinventory ▸ hrevises, fun _ other => ?_,
      fun hrefused => absurd hresult hrefused, fun _ later last run hlater again => ?_⟩
    · have hindex : other ∈ [cpu.toNat] ↔ (other : Int) = cpu := by
        rw [List.mem_singleton]
        omega
      simp only [hinventory, Inventory.getElem?_update, hindex]
      rfl
    · -- once released it stays vacant until somebody takes something, so it is refused again
      have hvacant : (w.afterCall backend me (.releaseCpu cpu)).inventory.Vacant cpu.toNat := by
        rw [World.afterCall, hinventory]
        exact w.inventory.vacant_update_clear cpu.toNat
      refine ⟨World.refuses_of_vacant
        (run.wellFormed_of (hwf.serve backend w.native w.roster.alive me _))
        (run.vacant hlater hvacant) backend again, fun hkeeps => if_pos ⟨howns.1, ?_⟩⟩
      rw [(run.revises hkeeps).layout_eq, World.afterCall, hinventory]
      exact howns.2.1
  · have hresult : (w.serve backend me (.releaseCpu cpu)).result =
        .released (.error (w.inventory.refusal cpu)) := congrArg Outcome.result heq
    have hinventory : (w.serve backend me (.releaseCpu cpu)).inventory = w.inventory :=
      congrArg Outcome.inventory heq
    have hne : (w.serve backend me (.releaseCpu cpu)).result ≠ .released (.ok ()) := by
      rw [hresult]
      exact nofun
    exact ⟨iff_of_false hne hnot, hinventory ▸ .refl w.inventory, fun hok => absurd hok hne,
      fun _ => ⟨hresult, hinventory⟩, fun hok => absurd hok hne⟩

/-- In every inventory that a run reaches, a thread that gives up everything or one CPU frees what
it should and nothing else, and other threads that are alive lose nothing by it. -/
theorem releases_exactly {backend : Backend σ} {layout : Layout} {policy : Policy} {native : σ}
    {roster : Roster} {events : List (Event σ)} {w : World σ}
    (run : Run backend (World.initial layout policy native roster) events w) (me : ThreadId) :
    w.GivesUpAll backend me ∧ (∀ cpu, w.GivesUpOne backend me cpu) ∧
    ∀ request : Request, request.givesUp = true →
      ∀ (cpu : Nat) (lock : Lock) (owner : ThreadId), w.inventory.locks[cpu]? = some lock →
        lock.owner = some owner → owner ≠ me → w.roster.alive owner = true →
        (w.serve backend me request).inventory.locks[cpu]? = some lock :=
  ⟨w.givesUpAll backend me, w.givesUpOne run.wellFormed backend me,
    fun _ hrequest _ _ _ hlock howner hne halive =>
      World.getElem?_serve_of_givesUp hrequest hlock howner hne halive⟩

/-- A third thread starts, the first is pinned to CPU 3, the third reserves CPU 2 and the second
CPU 1, and the second ends. -/
def threeOwnersHistory : List (Event Simulated) :=
  [.start none,
    .call ⟨1⟩ (.acquire true [] []) (.handle (.cpu 3)),
    .call ⟨3⟩ (.acquire false [] []) (.handle (.cpu 2)),
    .call ⟨2⟩ (.acquire false [] []) (.handle (.cpu 1)),
    .finish ⟨2⟩]

/-- The first thread then frees CPUs 1 and 3 and leaves CPU 2 with the third, and CPU 3 is the only
one that it can give up by its number. -/
theorem releases_exactly_own_and_ended :
    ∃ w, Run Simulated.backend World.small threeOwnersHistory w ∧
      (w.serve Simulated.backend ⟨1⟩ .release).inventory.locks[3]? =
        some ⟨3, true, true, none, false⟩ ∧
      (w.serve Simulated.backend ⟨1⟩ .release).inventory.locks[2]? =
        some ⟨2, true, true, some ⟨3⟩, false⟩ ∧
      (w.serve Simulated.backend ⟨1⟩ .release).inventory.locks[1]? =
        some ⟨1, true, true, none, false⟩ ∧
      ∀ cpu, (w.serve Simulated.backend ⟨1⟩ (.releaseCpu cpu)).result = .released (.ok ()) ↔
        cpu = 3 := by
  obtain ⟨w, run, hlocks, hcpus, halive⟩ : ∃ w,
      Run Simulated.backend World.small threeOwnersHistory w ∧
        w.inventory.locks = [⟨0, true, false, none, false⟩, ⟨1, true, true, some ⟨2⟩, false⟩,
          ⟨2, true, true, some ⟨3⟩, false⟩, ⟨3, true, true, some ⟨1⟩, true⟩] ∧
        w.inventory.layout.cpus = 4 ∧
        w.roster.alive ⟨2⟩ = false ∧ w.roster.alive ⟨3⟩ = true := by
    refine ⟨_, .cons (.start _ _) (.cons (.of_reply ?_ ?_) (.cons (.of_reply ?_ ?_)
      (.cons (.of_reply ?_ ?_) (.cons (.finish _ _) (.nil _))))), ?_, ?_, ?_, ?_⟩ <;> cbv
  obtain ⟨hall, hone, hothers⟩ := releases_exactly run ⟨1⟩
  refine ⟨w, run, ?_, ?_, ?_, fun cpu => (hone cpu).ok_iff.trans ?_⟩
  · exact hall.freed 3 ⟨3, true, true, some ⟨1⟩, true⟩ (by rw [hlocks]; rfl) (Or.inl rfl)
  · exact hothers .release rfl 2 _ ⟨3⟩ (by rw [hlocks]; rfl) rfl (by decide) halive.2
  · exact hall.freed 1 ⟨1, true, true, some ⟨2⟩, false⟩ (by rw [hlocks]; rfl)
      (Or.inr ⟨⟨2⟩, rfl, halive.1⟩)
  · constructor
    · rintro ⟨hpos, hlt, howns⟩
      rw [hcpus] at hlt
      rw [Inventory.Owns, hlocks] at howns
      obtain rfl | rfl | rfl | rfl : cpu = 0 ∨ cpu = 1 ∨ cpu = 2 ∨ cpu = 3 := by omega
      · exact absurd howns (by decide)
      · exact absurd howns (by decide)
      · exact absurd howns (by decide)
      · rfl
    · rintro rfl
      exact ⟨by decide, by rw [hcpus]; decide, by rw [Inventory.Owns, hlocks]; rfl⟩

end CpuPlacement
