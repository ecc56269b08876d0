import CpuPlacement.Proofs.Reservation.Checked
import CpuPlacement.Proofs.Reservation.Run
import Mathlib

/-!
# The table in every run

Every inventory that a run reaches is in order and has a layout that there is, whichever layouts
were installed on the way (`Run.sound`): a smaller one takes the locks of the CPUs that it does not
have away, and the lists of siblings with them. Handles and numbers from before are still around,
but no request faults, whoever makes it and whatever it names (`Inventory.Checked.serve_eq_ok`).
-/

set_option autoImplicit false

namespace CpuPlacement

namespace Inventory

namespace Checked

variable {σ : Type}

/-! ## Requests -/

/-- What an inventory does with a request, where looking up what is not there is a fault. -/
def serve (inv : Inventory) (backend : Backend σ) (native : σ) (alive : ThreadId → Bool)
    (me : ThreadId) : Request → Except Fault (Outcome σ Reply)
  | .acquire pinned strategies ids => do
    return (← acquire inv backend native alive me pinned strategies ids).map .handle
  | .acquireCore pinned strategies ids => do
    return (← acquireCore inv backend native alive me pinned strategies ids).map .handle
  | .bind h => do return (← bind inv backend native alive me h).map .bound
  | .bindWholeCore cpu => do return ⟨.done, ← bindWholeCore inv alive me cpu, native, none⟩
  | .release => return (inv.release backend native alive me).map fun _ => .done
  | .releaseCpu cpu => do
    match ← releaseCpu inv me cpu with
    | .ok after => return ⟨.released (.ok ()), after, native, none⟩
    | .error refusal => return ⟨.released (.error refusal), inv, native, none⟩
  | .install layout => do return ⟨.done, ← install inv layout, native, none⟩

end Checked

end Inventory

/-- A layout that the request installs is one that there is. -/
def Request.InstallsConstructed : Request → Prop
  | .install layout => layout.Constructed
  | _ => True

/-- So is one that a request of the event installs. -/
def Event.InstallsConstructed {σ : Type} : Event σ → Prop
  | .call _ request _ => request.InstallsConstructed
  | _ => True

namespace Inventory

variable {σ : Type} {inv : Inventory}

/-- No request faults, and looking things up with care changes no answer. -/
theorem Checked.serve_eq_ok (h : inv.Sound) (backend : Backend σ) (native : σ)
    (alive : ThreadId → Bool) (me : ThreadId) {request : Request}
    (hrequest : request.InstallsConstructed) :
    Checked.serve inv backend native alive me request =
      .ok (inv.serve backend native alive me request) := by
  cases request with
  | acquire pinned strategies ids =>
    exact bind_eq_ok_iff.mpr ⟨_, acquire_eq_ok h pinned strategies ids, rfl⟩
  | acquireCore pinned strategies ids =>
    exact bind_eq_ok_iff.mpr ⟨_, acquireCore_eq_ok h pinned strategies ids, rfl⟩
  | bind handle => exact bind_eq_ok_iff.mpr ⟨_, bind_eq_ok h handle, rfl⟩
  | bindWholeCore cpu => exact bind_eq_ok_iff.mpr ⟨_, bindWholeCore_eq_ok h cpu, rfl⟩
  | release => rfl
  | releaseCpu cpu =>
    refine bind_eq_ok_iff.mpr ⟨_, releaseCpu_eq_ok inv me cpu, ?_⟩
    simp only [Inventory.serve]
    cases inv.releaseCpu me cpu <;> rfl
  | install layout => exact bind_eq_ok_iff.mpr ⟨_, install_eq_ok inv hrequest, rfl⟩

theorem Sound.new {layout : Layout} (hlayout : layout.Constructed) (policy : Policy) :
    (Inventory.new layout policy).Sound :=
  ⟨.new layout policy, hlayout⟩

/-- Every request leaves an inventory sound and its policy as it is. -/
theorem Sound.serve (h : inv.Sound) (backend : Backend σ) (native : σ) (alive : ThreadId → Bool)
    (me : ThreadId) {request : Request} (hrequest : request.InstallsConstructed) :
    (inv.serve backend native alive me request).inventory.Sound ∧
      (inv.serve backend native alive me request).inventory.policy = inv.policy := by
  have hwf := h.wellFormed.serve backend native alive me request
  cases hlayout : request.replacesLayout with
  | false =>
    have hrevises := inv.revises_serve backend native alive me hlayout
    exact ⟨⟨hwf, hrevises.layout_eq ▸ h.constructed⟩, hrevises.policy_eq⟩
  | true =>
    cases request with
    | install layout =>
      simp only [Inventory.serve, Inventory.install]
      split
      · exact ⟨h, rfl⟩
      · exact ⟨Sound.new hrequest inv.policy, rfl⟩
    | _ => cases hlayout

end Inventory

/-! ## Runs -/

section Runs

variable {σ : Type} {backend : Backend σ}

/-- No step makes a table unsound or changes its policy. -/
theorem Step.sound {w next : World σ} {event : Event σ} {policy : Policy}
    (step : Step backend w event next) (hevent : event.InstallsConstructed)
    (h : w.inventory.Sound ∧ w.inventory.policy = policy) :
    next.inventory.Sound ∧ next.inventory.policy = policy := by
  cases step with
  | start name => exact h
  | finish thread => exact h
  | drift native => exact h
  | call me request halive =>
    obtain ⟨hsound, hpolicy⟩ := h.1.serve backend w.native w.roster.alive me hevent
    exact ⟨hsound, hpolicy.trans h.2⟩

/-- No run does so either. -/
theorem Run.sound {layout : Layout} {policy : Policy} {native : σ} {roster : Roster}
    {events : List (Event σ)} {w : World σ} (hlayout : layout.Constructed)
    (run : Run backend (World.initial layout policy native roster) events w)
    (hevents : ∀ event ∈ events, event.InstallsConstructed) :
    w.inventory.Sound ∧ w.inventory.policy = policy :=
  run.keeps Event.InstallsConstructed
    (fun w => w.inventory.Sound ∧ w.inventory.policy = policy)
    (fun step hevent h => step.sound hevent h) hevents ⟨.new hlayout policy, rfl⟩

/-- Whatever layouts are installed on the way, there is a lock for every CPU of the layout as it is,
in its place, with what the policy says of the CPU, and marked as bound only with an owner. The
lists of siblings divide the CPUs. Building the locks does not fault, and no request faults, whoever
makes it. -/
theorem table_sound {layout : Layout} {policy : Policy} {native : σ} {roster : Roster}
    {events : List (Event σ)} {w : World σ} (hlayout : layout.Constructed)
    (run : Run backend (World.initial layout policy native roster) events w)
    (hevents : ∀ event ∈ events, event.InstallsConstructed) :
    w.inventory.locks.length = w.inventory.layout.cpus ∧
    (∀ (cpu : Nat) (lock : Lock), w.inventory.locks[cpu]? = some lock → lock.Fits policy cpu) ∧
    w.inventory.layout.Siblings ∧
    Inventory.Checked.new layout policy = .ok (Inventory.new layout policy) ∧
    ∀ me request, request.InstallsConstructed →
      Inventory.Checked.serve w.inventory backend w.native w.roster.alive me request =
        .ok (w.serve backend me request) := by
  obtain ⟨hsound, rfl⟩ := run.sound hlayout hevents
  refine ⟨hsound.wellFormed.length_eq, hsound.wellFormed.fits, hsound.constructed.siblings,
    Inventory.Checked.new_eq_ok hlayout _, fun me request hrequest => ?_⟩
  exact Inventory.Checked.serve_eq_ok hsound backend w.native w.roster.alive me hrequest

/-- A thread reserves a core, and then a layout with fewer CPUs is installed. There are as many
locks, and binding what the thread has reserved does not fault. -/
theorem table_sound_fewer_cpus : ∃ w,
    Run Simulated.backend
      (World.initial (.flat 4) ⟨Mask.full 4, Mask.ofIndices 4 [1, 2, 3]⟩ (.forLayout (.flat 4))
        ⟨[⟨none, true⟩]⟩)
      [.call ⟨1⟩ (.acquireCore true [] []) (.handle (.wholeCore 3)),
        .call ⟨1⟩ (.install (.flat 2)) .done] w ∧
    w.inventory.locks.length = 2 ∧
    Inventory.Checked.serve w.inventory Simulated.backend w.native w.roster.alive ⟨1⟩
      (.bind (.wholeCore 3)) = .ok (w.serve Simulated.backend ⟨1⟩ (.bind (.wholeCore 3))) := by
  obtain ⟨w, run, hcpus⟩ : ∃ w, Run Simulated.backend
      (World.initial (.flat 4) ⟨Mask.full 4, Mask.ofIndices 4 [1, 2, 3]⟩ (.forLayout (.flat 4))
        ⟨[⟨none, true⟩]⟩)
      [.call ⟨1⟩ (.acquireCore true [] []) (.handle (.wholeCore 3)),
        .call ⟨1⟩ (.install (.flat 2)) .done] w ∧ w.inventory.layout.cpus = 2 :=
    ⟨_, .cons (.of_reply rfl (by cbv)) (.cons (.of_reply rfl (by cbv)) (.nil _)), by cbv⟩
  have hevents : ∀ event ∈ [(.call ⟨1⟩ (.acquireCore true [] []) (.handle (.wholeCore 3)) :
      Event Simulated), .call ⟨1⟩ (.install (.flat 2)) .done], event.InstallsConstructed := by
    simp [Event.InstallsConstructed, Request.InstallsConstructed, Layout.Constructed.flat]
  obtain ⟨hlength, -, -, -, hserve⟩ := table_sound (.flat 4) run hevents
  exact ⟨w, run, hlength.trans hcpus, hserve ⟨1⟩ _ trivial⟩

end Runs

end CpuPlacement
