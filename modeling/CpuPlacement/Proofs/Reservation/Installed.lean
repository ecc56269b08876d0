import CpuPlacement.Proofs.Layout.Determined
import CpuPlacement.Proofs.Reservation.Pinned
import CpuPlacement.Proofs.Reservation.Sound
import Mathlib

/-!
# What installing a layout does

A layout is installed unless the inventory has one with the same descriptors; then nothing happens.
Where neither layout has group masks that makes no difference, as the descriptors determine cores
and masks. Otherwise it does: the CPUs keep the masks of the layout that was there, and threads are
pinned by those from then on (`installs_unless_described`).
-/

set_option autoImplicit false

namespace CpuPlacement

variable {σ : Type}

namespace Inventory

variable {inv : Inventory} {backend : Backend σ} {native : σ} {alive : ThreadId → Bool}
  {me : ThreadId}

/-! ## Installing -/

theorem install_of_same {l : Layout} (h : inv.layout.descriptors = l.descriptors) :
    inv.install l = inv :=
  if_pos (beq_iff_eq.mpr h)

theorem install_of_ne {l : Layout} (h : inv.layout.descriptors ≠ l.descriptors) :
    inv.install l = new l inv.policy :=
  if_neg (mt beq_iff_eq.mp h)

/-! ## Native calls -/

/-- A thread that became the owner of some CPUs is pinned by the masks of the layout. -/
theorem pin_assign {cpu : Nat} {mask : Mask} (hmask : inv.layout.cpuMask cpu = .ok mask)
    (given : List Nat) :
    (inv.assign given me).pin backend native me cpu = backend.apply native me mask := by
  have hlayout : (inv.assign given me).layout = inv.layout := rfl
  rw [pin, hlayout, Layout.cpuMask_eq_ok_iff.mp hmask]

/-- The native call of a reservation is made for the mask of its CPU. -/
theorem apply_of_call_take {pinned : Bool} {h : Handle} {cpu : Nat} {mask : Mask}
    (hmask : inv.layout.cpuMask cpu = .ok mask) {answer : Except AffinityError Unit}
    (hcall : (inv.take backend native me pinned h cpu).call = some answer) :
    backend.apply native me mask = (answer, (inv.take backend native me pinned h cpu).native) := by
  unfold take at hcall ⊢
  simp only [pin_assign hmask] at hcall ⊢
  generalize backend.apply native me mask = result at hcall ⊢
  cases pinned with
  | false => cases hcall
  | true =>
    obtain ⟨applied, after⟩ := result
    cases applied <;> exact congrArg (·, after) (Option.some.inj hcall)

/-- The native call of binding is made for the mask of the CPU that the handle names. -/
theorem apply_of_call_bind {h : Handle} {answer : Except AffinityError Unit}
    (hsound : inv.Sound) (hcall : (inv.bind backend native alive me h).call = some answer) :
    ∃ cpu mask, h.cpu? = some cpu ∧ inv.layout.cpuMask cpu = .ok mask ∧
      backend.apply native me mask = (answer, (inv.bind backend native alive me h).native) := by
  unfold bind at hcall ⊢
  dsimp only at hcall ⊢
  split at hcall
  · cases hcall
  · next cpu hcpu =>
    split at hcall
    · cases hcall
    · next lock hlock =>
      have hlt : cpu < inv.layout.cpus :=
        hsound.wellFormed.length_eq ▸ (List.getElem?_eq_some_iff.mp hlock).1
      obtain ⟨mask, hmask⟩ := hsound.constructed.exists_cpuMask_iff.mpr hlt
      refine ⟨cpu, mask, hcpu, hmask, ?_⟩
      split at hcall
      · cases hcall
      · next hpassed =>
        rw [if_neg hpassed]
        simp only [pin_assign hmask] at hcall ⊢
        generalize backend.apply native me mask = result at hcall ⊢
        obtain ⟨applied, after⟩ := result
        cases applied <;> exact congrArg (·, after) (Option.some.inj hcall)

/-- What a request but for a release does natively is to pin its thread to the CPU that a handle
names, by the mask of the CPU in the layout. -/
theorem apply_of_call_serve {request : Request} {answer : Except AffinityError Unit}
    (hsound : inv.Sound) (hrequest : request ≠ .release)
    (hcall : (inv.serve backend native alive me request).call = some answer) :
    ∃ h cpu mask,
      ((inv.serve backend native alive me request).result = .handle h ∨ request = .bind h) ∧
      h.cpu? = some cpu ∧ inv.layout.cpuMask cpu = .ok mask ∧
      backend.apply native me mask =
        (answer, (inv.serve backend native alive me request).native) := by
  cases hreserve : request.reserve? with
  | some pinned =>
    rcases serve_reserve_cases hreserve with hnone | ⟨h, cpu, hnamed, hgrant, htake⟩
    · rw [hnone] at hcall
      cases hcall
    · -- the CPU has a lock, hence a mask in the layout
      obtain ⟨lock, hlock, -⟩ :=
        available_iff.mp (hgrant.available cpu (mem_covered_of_named hnamed))
      have hlt : cpu < inv.layout.cpus :=
        hsound.wellFormed.length_eq ▸ (List.getElem?_eq_some_iff.mp hlock).1
      obtain ⟨mask, hmask⟩ := hsound.constructed.exists_cpuMask_iff.mpr hlt
      rw [htake] at hcall ⊢
      refine ⟨h, cpu, mask, Or.inl ?_, hnamed, hmask, apply_of_call_take hmask hcall⟩
      rw [Outcome.map_result, take_result]
  | none =>
    cases request with
    | bind h =>
      obtain ⟨cpu, mask, hnamed, hmask, happly⟩ := apply_of_call_bind hsound hcall
      exact ⟨h, cpu, mask, Or.inr rfl, hnamed, hmask, happly⟩
    | release => exact absurd rfl hrequest
    | releaseCpu cpu =>
      simp only [serve] at hcall
      split at hcall <;> cases hcall
    | acquire => cases hreserve
    | acquireCore => cases hreserve
    | bindWholeCore => cases hcall
    | install => cases hcall

end Inventory

namespace World

/-- Whoever reserves or binds, and is pinned natively, is pinned by the mask that the layout has for
the CPU of its handle. -/
def PinsBy (w : World σ) (backend : Backend σ) (l : Layout) : Prop :=
  ∀ (me : ThreadId) (request : Request) (answer : Except AffinityError Unit),
    request ≠ .release → (w.serve backend me request).call = some answer →
    ∃ h cpu mask, ((w.serve backend me request).result = .handle h ∨ request = .bind h) ∧
      h.cpu? = some cpu ∧ l.cpuMask cpu = .ok mask ∧
      backend.apply w.native me mask = (answer, (w.serve backend me request).native)

/-- Layouts with the same CPUs pin in the same way. -/
theorem PinsBy.of_sameCpus {w : World σ} {backend : Backend σ} {l m : Layout}
    (h : w.PinsBy backend m) (hsame : l.SameCpus m) : w.PinsBy backend l := by
  intro me request answer hrequest hcall
  obtain ⟨handle, cpu, mask, hhandle, hnamed, hmask, happly⟩ := h me request answer hrequest hcall
  exact ⟨handle, cpu, mask, hhandle, hnamed, (hsame.cpuMask cpu).symm.trans hmask, happly⟩

/-- As long as no other layout is installed, threads are pinned by the masks of the one that there
is. -/
theorem pinsBy_of_run {backend : Backend σ} {w last : World σ} {events : List (Event σ)}
    (h : w.inventory.Sound) (run : Run backend w events last)
    (hevents : ∀ event ∈ events, event.KeepsLayout) : last.PinsBy backend w.inventory.layout := by
  have hrevises := run.revises hevents
  have hlast : last.inventory.Sound :=
    ⟨hrevises.wellFormed h.wellFormed, hrevises.layout_eq ▸ h.constructed⟩
  intro me request answer hrequest hcall
  rw [← hrevises.layout_eq]
  exact Inventory.apply_of_call_serve hlast hrequest hcall

/-- What the second world is if the layout was installed in the first. -/
structure Installs (w next : World σ) (backend : Backend σ) (l : Layout) : Prop where
  cpus : next.inventory.layout.cpus = l.cpus
  /-- With other descriptors than before, the layout is there and nothing is reserved. -/
  replaced : w.inventory.layout.descriptors ≠ l.descriptors →
    next.inventory.layout = l ∧ ∀ (cpu : Nat) (lock : Lock),
      next.inventory.locks[cpu]? = some lock → lock.owner = none ∧ lock.bound = false
  /-- With the same descriptors as before nothing happens. -/
  kept : w.inventory.layout.descriptors = l.descriptors → next.inventory = w.inventory
  /-- With other descriptors, or without group masks, the CPUs are those of the layout. -/
  shown : w.inventory.layout.descriptors ≠ l.descriptors ∨
      (w.inventory.layout.isGrouped = false ∧ l.isGrouped = false) →
    l.SameCpus next.inventory.layout ∧
      ∀ {later : List (Event σ)} {last : World σ}, Run backend next later last →
        (∀ event ∈ later, event.KeepsLayout) → last.PinsBy backend l
  /-- With group masks before and now, the cores are those of the layout. -/
  cores : w.inventory.layout.isGrouped = true → l.isGrouped = true →
    ∀ cpu, next.inventory.layout.physicalCore cpu = l.physicalCore cpu
  /-- With the same descriptors, and group masks either before or now, no mask is. -/
  masks : w.inventory.layout.descriptors = l.descriptors →
    w.inventory.layout.isGrouped ≠ l.isGrouped →
    ∀ cpu < l.cpus, ∃ mask other, l.cpuMask cpu = .ok mask ∧
      next.inventory.layout.cpuMask cpu = .ok other ∧ other.same mask = false

section Installs

variable {backend : Backend σ} {w : World σ} {l : Layout}

/-- With the same descriptors as before, the layout that there was is left to show its CPUs. -/
theorem installs_of_same (hsound : w.inventory.Sound) (hl : l.Constructed)
    (hsame : w.inventory.layout.descriptors = l.descriptors) : w.Installs w backend l where
  cpus := congrArg List.length hsame
  replaced hne := absurd hsame hne
  kept _ := rfl
  shown := by
    rintro (hne | ⟨hold, hplain⟩)
    · exact absurd hsame hne
    · have hcpus := hl.sameCpus hsound.constructed hsame hplain hold
      exact ⟨hcpus, fun run hlater => (pinsBy_of_run hsound run hlater).of_sameCpus hcpus⟩
  cores hold hgrouped := hl.physicalCore_eq hsound.constructed hsame hgrouped hold
  masks _ hdiffer cpu hcpu := by
    obtain ⟨mask, hmask⟩ := hl.exists_cpuMask_iff.mpr hcpu
    have hcpu' : cpu < w.inventory.layout.cpus := by rwa [Layout.cpus, hsame]
    obtain ⟨other, hother⟩ := hsound.constructed.exists_cpuMask_iff.mpr hcpu'
    exact ⟨mask, other, hmask, hother,
      hl.not_same_cpuMask hsound.constructed hdiffer hmask hother⟩

/-- With other descriptors, the layout is there with a new table. -/
theorem installs_of_ne {next : World σ} {policy : Policy} (hl : l.Constructed)
    (hne : w.inventory.layout.descriptors ≠ l.descriptors)
    (hnext : next.inventory = .new l policy) : w.Installs next backend l := by
  have hlayout : next.inventory.layout = l := congrArg (·.layout) hnext
  have hcpus : l.SameCpus next.inventory.layout := hlayout ▸ .refl l
  have hsound : next.inventory.Sound := hnext ▸ .new hl policy
  refine
    { cpus := hcpus.cpus
      replaced := fun _ => ⟨hlayout, fun cpu lock hlock => ?_⟩
      kept := fun hsame => absurd hsame hne
      shown := fun _ =>
        ⟨hcpus, fun run hlater => (pinsBy_of_run hsound run hlater).of_sameCpus hcpus⟩
      cores := fun _ _ => hcpus.physicalCore
      masks := fun hsame => absurd hsame hne }
  rw [hnext] at hlock
  exact Inventory.free_of_getElem?_new hlock

end Installs

end World

/-- A layout is installed in any inventory that a run reaches, exactly unless that has a layout with
the same descriptors. -/
theorem installs_unless_described {backend : Backend σ} {layout l : Layout} {policy : Policy}
    {native : σ} {roster : Roster} {events : List (Event σ)} {w next : World σ} {me : ThreadId}
    {reply : Reply} (hlayout : layout.Constructed)
    (run : Run backend (World.initial layout policy native roster) events w)
    (hevents : ∀ event ∈ events, event.InstallsConstructed) (hl : l.Constructed)
    (step : Step backend w (.call me (.install l) reply) next) : w.Installs next backend l := by
  obtain ⟨hsound, -⟩ := run.sound hlayout hevents
  obtain ⟨-, -, rfl⟩ := step.of_call
  by_cases hsame : w.inventory.layout.descriptors = l.descriptors
  · have hkept : w.afterCall backend me (.install l) = w :=
      congrArg (fun inventory => { w with inventory }) (Inventory.install_of_same hsame)
    rw [hkept]
    exact World.installs_of_same hsound hl hsame
  · exact World.installs_of_ne hl hsame (Inventory.install_of_ne hsame)

/-- A thread has reserved CPU 3 of four when a layout of two CPUs is installed. The CPUs are then
those two, and nobody owns any. -/
theorem installs_unless_described_fewer_cpus : ∃ w next,
    Run Simulated.backend
      (World.initial (.flat 4) ⟨Mask.full 4, Mask.ofIndices 4 [1, 2, 3]⟩ (.forLayout (.flat 4))
        ⟨[⟨none, true⟩]⟩)
      [.call ⟨1⟩ (.acquire true [] []) (.handle (.cpu 3))] w ∧
    w.inventory.Owns ⟨1⟩ 3 ∧
    Step Simulated.backend w (.call ⟨1⟩ (.install (.flat 2)) .done) next ∧
    (Layout.flat 2).SameCpus next.inventory.layout ∧
    ∀ (cpu : Nat) (lock : Lock), next.inventory.locks[cpu]? = some lock → lock.owner = none := by
  obtain ⟨w, run, howns, hcpus, halive⟩ : ∃ w, Run Simulated.backend
      (World.initial (.flat 4) ⟨Mask.full 4, Mask.ofIndices 4 [1, 2, 3]⟩ (.forLayout (.flat 4))
        ⟨[⟨none, true⟩]⟩)
      [.call ⟨1⟩ (.acquire true [] []) (.handle (.cpu 3))] w ∧ w.inventory.Owns ⟨1⟩ 3 ∧
      w.inventory.layout.cpus = 4 ∧ w.roster.alive ⟨1⟩ = true := by
    refine ⟨_, .cons (.of_reply ?_ ?_) (.nil _), ?_, ?_, ?_⟩ <;> cbv
  have step : Step Simulated.backend w (.call ⟨1⟩ (.install (.flat 2)) .done) _ :=
    .of_reply halive rfl
  have hother : w.inventory.layout.descriptors ≠ (Layout.flat 2).descriptors := by
    intro hsame
    have hcount : w.inventory.layout.cpus = (Layout.flat 2).cpus := congrArg List.length hsame
    rw [hcpus] at hcount
    exact absurd hcount (by decide)
  have hinstalls := installs_unless_described (.flat 4) run
    (by simp [Event.InstallsConstructed, Request.InstallsConstructed]) (.flat 2) step
  exact ⟨w, _, run, howns, step, (hinstalls.shown (Or.inl hother)).1,
    fun cpu lock hlock => ((hinstalls.replaced hother).2 cpu lock hlock).1⟩

/-- The layout of the descriptors of the machine of two groups. Its masks are bit-sets. -/
def Layout.twoGroupsDescribed : Layout :=
  (Layout.ofDescriptors Layout.twoGroups.descriptors).toOption.getD (Layout.flat 1)

/-- It is not installed on that machine: the mask of CPU 3 is still the group mask, and a thread
that reserves CPU 3 is pinned by that. -/
theorem not_installs_bitsets_for_groups : ∃ w,
    Layout.ofDescriptors Layout.twoGroups.descriptors = .ok Layout.twoGroupsDescribed ∧
    Run Simulated.backend World.twoGroups
      [.call ⟨1⟩ (.install Layout.twoGroupsDescribed) .done,
        .call ⟨2⟩ (.acquire true [] []) (.handle (.cpu 3))] w ∧
    Layout.twoGroupsDescribed.cpuMask 3 = .ok (.single 4 3) ∧
    w.inventory.layout.cpuMask 3 = .ok (.groupSingle 1 1) ∧
    Simulated.backend.mask w.native ⟨2⟩ = .ok (.groupSingle 1 1) ∧
    (Mask.groupSingle 1 1).same (.single 4 3) = false := by
  refine ⟨_, ?_, .cons (.of_reply rfl rfl) (.cons (.of_reply rfl ?_) (.nil _)), ?_, ?_, ?_, ?_⟩
  · obtain ⟨l, hl, -⟩ := exists_ok_of_any
      (x := Layout.ofDescriptors Layout.twoGroups.descriptors) (p := fun _ => true) (by cbv)
    rw [Layout.twoGroupsDescribed, hl]
    rfl
  · cbv
  · cbv
  · cbv
  · cbv
  · cbv

end CpuPlacement
