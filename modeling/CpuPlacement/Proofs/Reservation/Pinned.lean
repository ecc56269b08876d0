import CpuPlacement.Proofs.Layout.Addressed
import CpuPlacement.Proofs.Native.Simulated
import CpuPlacement.Proofs.Reservation.Run
import Mathlib

/-!
# A thread runs on the CPU that it has reserved

A reservation is made by the number of a CPU, and the thread is pinned by the mask of that CPU. On
the simulated machine of the inventory's layout the two come to the same: a thread that was pinned
has exactly the mask of the CPU that its handle names, and runs there (`Outcome.PinnedTo`).

That the mask leads back to the number is a fact of the layout. What is left to the run is that the
layout stays, that there is a lock for every CPU of it, and that the machine stays the one of the
layout (`World.On`); the masks of the threads may change by other means as they like.
-/

set_option autoImplicit false

namespace CpuPlacement

/-- What the answer tells the thread: it was to be pinned to what the handle stands for, and was not
left without a CPU. -/
inductive Pins : Request → Reply → Handle → Prop where
  | acquire {strategies : List Strategy} {ids : List Int} {h : Handle}
    (hallocated : h.isAllocated = true) : Pins (.acquire true strategies ids) (.handle h) h
  | acquireCore {strategies : List Strategy} {ids : List Int} {h : Handle}
    (hallocated : h.isAllocated = true) : Pins (.acquireCore true strategies ids) (.handle h) h
  | bind (h : Handle) : Pins (.bind h) (.bound true) h

/-- The native call succeeded, and the thread has the mask of the CPU and runs on it. -/
structure Outcome.PinnedTo {α : Type} (o : Outcome Simulated α) (l : Layout) (me : ThreadId)
    (cpu : Nat) : Prop where
  call : o.call = some (.ok ())
  mask : ∃ single, l.cpuMask cpu = .ok single ∧ Simulated.backend.mask o.native me = .ok single
  current : Simulated.backend.currentCpu o.native me = cpu

/-- What the thread is told does not matter for it. -/
theorem Outcome.PinnedTo.map {α β : Type} {o : Outcome Simulated α} {l : Layout} {me : ThreadId}
    {cpu : Nat} (h : o.PinnedTo l me cpu) (f : α → β) : (o.map f).PinnedTo l me cpu :=
  ⟨h.call, h.mask, h.current⟩

/-- No other layout is installed, and by whatever means the native state changes, it stays that of
a machine with the CPUs and groups of the layout. -/
def Event.OnMachine (l : Layout) : Event Simulated → Prop
  | .call _ request _ => request.replacesLayout = false
  | .drift native => native.Models l
  | _ => True

/-- The inventory is in order, and it and the machine are those of the layout. -/
structure World.On (w : World Simulated) (l : Layout) (policy : Policy) : Prop where
  layout_eq : w.inventory.layout = l
  policy_eq : w.inventory.policy = policy
  wellFormed : w.inventory.WellFormed
  models : w.native.Models l

namespace Inventory

variable {inv : Inventory} {s : Simulated} {alive : ThreadId → Bool} {me : ThreadId}

/-! ## Whom a request concerns -/

/-- Pinning changes the mask of the caller only. -/
theorem changesOnly_pin {cpu : Nat} : s.ChangesOnly me (inv.pin Simulated.backend s me cpu).2 := by
  unfold pin
  split
  · exact Simulated.changesOnly_apply
  · exact Or.inl rfl

/-- Taking a CPU changes the mask of the caller only. -/
theorem changesOnly_take {pinned : Bool} {h : Handle} {cpu : Nat} :
    s.ChangesOnly me (inv.take Simulated.backend s me pinned h cpu).native := by
  have hpin : s.ChangesOnly me ((inv.assign (inv.covered h) me).pin Simulated.backend s me cpu).2 :=
    changesOnly_pin
  unfold take
  dsimp only
  cases pinned with
  | false => exact Or.inl rfl
  | true =>
    rw [if_pos rfl]
    split
    · next native hcall => rwa [hcall] at hpin
    · next refusal native hcall => rwa [hcall] at hpin

/-- Binding changes the mask of the caller only. -/
theorem changesOnly_bind {h : Handle} :
    s.ChangesOnly me (inv.bind Simulated.backend s alive me h).native := by
  unfold bind
  dsimp only
  split
  · exact Or.inl rfl
  · next cpu hcpu =>
    split
    · exact Or.inl rfl
    · split
      · exact Or.inl rfl
      · have hpin : s.ChangesOnly me
            ((inv.assign (inv.covered h) me).pin Simulated.backend s me cpu).2 := changesOnly_pin
        split
        · next native hcall => rwa [hcall] at hpin
        · next refusal native hcall => rwa [hcall] at hpin

/-- A request changes the mask of the thread that makes it, and no other. -/
theorem changesOnly_serve {request : Request} :
    s.ChangesOnly me (inv.serve Simulated.backend s alive me request).native := by
  cases hreserve : request.reserve? with
  | some pinned =>
    rcases serve_reserve_cases hreserve with hnone | ⟨h, cpu, -, -, htake⟩
    · rw [hnone]
      exact Or.inl rfl
    · rw [htake]
      exact changesOnly_take
  | none =>
    cases request with
    | bind h => exact changesOnly_bind
    | release => exact Simulated.changesOnly_setMask
    | releaseCpu cpu =>
      simp only [serve]
      split <;> exact Or.inl rfl
    | acquire => cases hreserve
    | acquireCore => cases hreserve
    | _ => exact Or.inl rfl

/-! ## Pinning to a CPU -/

/-- Pinning a thread that was made the owner to a CPU of the layout succeeds, and gives it the mask
of the CPU. -/
theorem exists_pin_eq (hl : inv.layout.Constructed) (hmodels : s.Models inv.layout)
    (hworking : s.rejecting = false) (me : ThreadId) (given : List Nat) {cpu : Nat}
    (hcpu : cpu < inv.layout.cpus) :
    ∃ single, inv.layout.cpuMask cpu = .ok single ∧
      (inv.assign given me).pin Simulated.backend s me cpu = (.ok (), s.remember me single) := by
  obtain ⟨single, hsingle⟩ := hl.exists_cpuMask_iff.mpr hcpu
  have hcpus := hl.cpusOf_cpuMask hsingle
  refine ⟨single, hsingle, ?_⟩
  have hlayout : (inv.assign given me).layout = inv.layout := rfl
  rw [pin, hlayout, Layout.cpuMask_eq_ok_iff.mp hsingle]
  refine hmodels.apply_eq_ok hworking ?_ ?_
  · rw [hcpus]
    exact List.cons_ne_nil _ _
  · intro other hother
    rw [hcpus] at hother
    rwa [List.mem_singleton.mp hother]

/-- Where a call has left the thread with the mask of a CPU, the thread is pinned to the CPU. -/
theorem pinnedTo_of_remember {α : Type} {o : Outcome Simulated α} {single : Mask} {cpu : Nat}
    (hl : inv.layout.Constructed) (hmodels : s.Models inv.layout)
    (hsingle : inv.layout.cpuMask cpu = .ok single) (hcall : o.call = some (.ok ()))
    (hnative : o.native = s.remember me single) : o.PinnedTo inv.layout me cpu where
  call := hcall
  mask := ⟨single, hsingle, hnative ▸ Simulated.backend_mask_remember_self⟩
  current := by
    rw [hnative]
    refine hmodels.currentCpu_remember ?_
    rw [hl.cpusOf_cpuMask hsingle, List.head?_cons]

/-- Where the machine takes masks, taking a CPU pins the caller to it. -/
theorem pinnedTo_take (hl : inv.layout.Constructed) (hmodels : s.Models inv.layout)
    (hworking : s.rejecting = false) (me : ThreadId) (h : Handle) {cpu : Nat}
    (hcpu : cpu < inv.layout.cpus) :
    (inv.take Simulated.backend s me true h cpu).PinnedTo inv.layout me cpu := by
  obtain ⟨single, hsingle, hpin⟩ := exists_pin_eq hl hmodels hworking me (inv.covered h) hcpu
  refine pinnedTo_of_remember hl hmodels hsingle ?_ ?_
  · simp only [take, if_true, hpin]
  · simp only [take, if_true, hpin]

/-- Binding a handle that names a lock of the layout either is refused or pins the thread. -/
theorem pinnedTo_bind (hl : inv.layout.Constructed) (hmodels : s.Models inv.layout)
    (hworking : s.rejecting = false) (hwf : inv.WellFormed) {h : Handle}
    (hbound : (inv.bind Simulated.backend s alive me h).result = true) :
    ∃ cpu, h.cpu? = some cpu ∧
      (inv.bind Simulated.backend s alive me h).PinnedTo inv.layout me cpu := by
  unfold bind at hbound ⊢
  dsimp only at hbound ⊢
  split at hbound
  · cases hbound
  · next cpu hcpu =>
    refine ⟨cpu, hcpu, ?_⟩
    split at hbound
    · cases hbound
    · next lock hlock =>
      have hlt : cpu < inv.layout.cpus := hwf.length_eq ▸ (List.getElem?_eq_some_iff.mp hlock).1
      obtain ⟨single, hsingle, hpin⟩ := exists_pin_eq hl hmodels hworking me (inv.covered h) hlt
      split at hbound
      · cases hbound
      · next hpassed =>
        refine pinnedTo_of_remember hl hmodels hsingle ?_ ?_
        · rw [if_neg hpassed, hpin]
        · rw [if_neg hpassed, hpin]

/-- A request that is to pin the thread has pinned it to the CPU that the handle names. -/
theorem pinnedTo_serve (hl : inv.layout.Constructed) (hmodels : s.Models inv.layout)
    (hworking : s.rejecting = false) (hwf : inv.WellFormed) {request : Request} {h : Handle}
    (hpins : Pins request (inv.serve Simulated.backend s alive me request).result h) :
    ∃ cpu, h.cpu? = some cpu ∧
      (inv.serve Simulated.backend s alive me request).PinnedTo inv.layout me cpu := by
  -- both ways of reserving end in taking a handle whose CPU is available, so it has a lock
  have reserved (hreserve : request.reserve? = some true) (hallocated : h.isAllocated = true)
      (hresult : (inv.serve Simulated.backend s alive me request).result = .handle h) :
      ∃ cpu, h.cpu? = some cpu ∧
        (inv.serve Simulated.backend s alive me request).PinnedTo inv.layout me cpu := by
    rcases serve_reserve_cases hreserve with hnone | ⟨given, cpu, hcpu, hgrant, htake⟩
    · rw [hnone] at hresult
      obtain rfl := Reply.handle.inj hresult
      cases hallocated
    · rw [htake, Outcome.map_result, take_result] at hresult
      obtain rfl := Reply.handle.inj hresult
      obtain ⟨lock, hlock, -⟩ := available_iff.mp (hgrant.available cpu (mem_covered_of_named hcpu))
      have hlt : cpu < inv.layout.cpus := hwf.length_eq ▸ (List.getElem?_eq_some_iff.mp hlock).1
      rw [htake]
      exact ⟨cpu, hcpu, (pinnedTo_take hl hmodels hworking me given hlt).map Reply.handle⟩
  generalize hreply : (inv.serve Simulated.backend s alive me request).result = reply at hpins
  cases hpins with
  | acquire hallocated => exact reserved rfl hallocated hreply
  | acquireCore hallocated => exact reserved rfl hallocated hreply
  | bind h =>
    obtain ⟨cpu, hcpu, hpinned⟩ :=
      pinnedTo_bind hl hmodels hworking hwf (Reply.bound.inj hreply)
    exact ⟨cpu, hcpu, hpinned.map Reply.bound⟩

end Inventory

/-! ## Runs on one machine -/

theorem World.on_initial (l : Layout) (policy : Policy) (roster : Roster) :
    (World.initial l policy (.forLayout l) roster).On l policy :=
  ⟨rfl, rfl, .new l policy, Simulated.models_forLayout l⟩

/-- A step that leaves the machine to itself keeps the world on its layout. -/
theorem Step.on {w next : World Simulated} {event : Event Simulated} {l : Layout} {policy : Policy}
    (step : Step Simulated.backend w event next) (hevent : event.OnMachine l) (h : w.On l policy) :
    next.On l policy := by
  have hwf := step.wellFormed h.wellFormed
  cases step with
  | start name => exact ⟨h.layout_eq, h.policy_eq, hwf, h.models⟩
  | finish thread => exact ⟨h.layout_eq, h.policy_eq, hwf, h.models⟩
  | drift native => exact ⟨h.layout_eq, h.policy_eq, hwf, hevent⟩
  | call me request halive =>
    have hrevises :=
      w.inventory.revises_serve Simulated.backend w.native w.roster.alive me hevent
    exact ⟨hrevises.layout_eq.trans h.layout_eq, hrevises.policy_eq.trans h.policy_eq, hwf,
      h.models.of_changesOnly Inventory.changesOnly_serve⟩

/-- So does a whole run. -/
theorem Run.on {w last : World Simulated} {events : List (Event Simulated)} {l : Layout}
    {policy : Policy} (run : Run Simulated.backend w events last)
    (hevents : ∀ event ∈ events, event.OnMachine l) (h : w.On l policy) : last.On l policy :=
  run.keeps (Event.OnMachine l) (World.On · l policy) (fun step hevent hw => step.on hevent hw)
    hevents h

/-- A thread that was to be pinned, and was told of a CPU, has been pinned to the CPU that its
handle names: it has the mask of that CPU and runs on it. A thread that gives everything up has the
base mask again, if the machine can take it. No other thread has another mask than before. -/
theorem pinned_to_reserved {l : Layout} {policy : Policy} {roster : Roster}
    {events : List (Event Simulated)} {w next : World Simulated} {me : ThreadId}
    {request : Request} {reply : Reply} (hl : l.Constructed)
    (run : Run Simulated.backend (World.initial l policy (.forLayout l) roster) events w)
    (hevents : ∀ event ∈ events, event.OnMachine l) (hworking : w.native.rejecting = false)
    (step : Step Simulated.backend w (.call me request reply) next) :
    (∀ h, Pins request reply h → ∃ cpu single, h.cpu? = some cpu ∧
      (w.serve Simulated.backend me request).call = some (.ok ()) ∧ l.cpuMask cpu = .ok single ∧
        Simulated.backend.mask next.native me = .ok single ∧
        Simulated.backend.currentCpu next.native me = h.number) ∧
    (request = .release → policy.base.isGroup = false → policy.base.isEmpty = false →
      (∀ cpu, policy.base.test cpu = true → cpu < l.cpus) →
        Simulated.backend.mask next.native me = .ok policy.base) ∧
    ∀ other ≠ me,
      Simulated.backend.mask next.native other = Simulated.backend.mask w.native other := by
  obtain ⟨rfl, rfl, hwf, hmodels⟩ := run.on hevents (World.on_initial l policy roster)
  obtain ⟨-, rfl, rfl⟩ := step.of_call
  refine ⟨fun h hpins => ?_, ?_, fun other hother => ?_⟩
  · obtain ⟨cpu, hcpu, hcall, ⟨single, hsingle, hmask⟩, hcurrent⟩ :=
      Inventory.pinnedTo_serve hl hmodels hworking hwf hpins
    refine ⟨cpu, single, hcpu, hcall, hsingle, hmask, ?_⟩
    rw [Handle.number, hcpu]
    exact hcurrent
  · rintro rfl - hsome hbelow
    have haccepted : w.native.setMask me w.inventory.policy.base =
        (.ok (), w.native.remember me w.inventory.policy.base) :=
      Simulated.setMask_eq_ok hworking hsome fun cpu hcpu => hmodels.cpus_eq ▸ hbelow cpu hcpu
    show Simulated.backend.mask (w.native.setMask me w.inventory.policy.base).2 me = _
    rw [haccepted]
    exact Simulated.backend_mask_remember_self
  · exact Inventory.changesOnly_serve.backend_mask hother

/-- The machine of two groups, with two CPUs in each. -/
def Layout.twoGroups : Layout :=
  (Layout.ofRecords Record.twoGroups).toOption.getD (Layout.flat 1)

/-- Records of two groups make this layout. -/
theorem Layout.ofRecords_twoGroups : Layout.ofRecords Record.twoGroups = .ok Layout.twoGroups := by
  obtain ⟨l, hl, -⟩ := exists_ok_of_any (x := Layout.ofRecords Record.twoGroups)
    (p := fun _ => true) (by cbv)
  rw [Layout.twoGroups, hl]
  rfl

/-- Two threads on it, which can reserve every CPU but CPU 0. -/
def World.twoGroups : World Simulated :=
  initial Layout.twoGroups ⟨Mask.ofIndices 4 [0], Mask.ofIndices 4 [1, 2, 3]⟩
    (.forLayout Layout.twoGroups) ⟨[⟨none, true⟩, ⟨none, true⟩]⟩

/-- The first thread reserves the core of the second group and hands it on. The second thread binds
it, and runs on CPU 2 with the mask of position 0 of that group. -/
theorem pinned_to_reserved_handed_on : ∃ w next,
    Run Simulated.backend World.twoGroups
      [.call ⟨1⟩ (.acquireCore false [] []) (.handle (.wholeCore 2))] w ∧
    Step Simulated.backend w (.call ⟨2⟩ (.bind (.wholeCore 2)) (.bound true)) next ∧
    Simulated.backend.mask next.native ⟨2⟩ = .ok (.groupSingle 1 0) ∧
    Simulated.backend.currentCpu next.native ⟨2⟩ = 2 := by
  obtain ⟨w, next, run, step, hworking⟩ : ∃ w next,
      Run Simulated.backend World.twoGroups
        [.call ⟨1⟩ (.acquireCore false [] []) (.handle (.wholeCore 2))] w ∧
      Step Simulated.backend w (.call ⟨2⟩ (.bind (.wholeCore 2)) (.bound true)) next ∧
      w.native.rejecting = false :=
    ⟨_, _, .cons (.of_reply rfl (by cbv)) (.nil _), .of_reply rfl (by cbv), by cbv⟩
  obtain ⟨hpinned, -, -⟩ := pinned_to_reserved (.records Layout.ofRecords_twoGroups) run
    (by simp [Event.OnMachine, Request.replacesLayout]) hworking step
  obtain ⟨cpu, single, hcpu, -, hsingle, hmask, hcurrent⟩ := hpinned _ (.bind _)
  obtain rfl := Option.some.inj hcpu
  have hposition : Layout.twoGroups.cpuMask 2 = .ok (.groupSingle 1 0) :=
    Layout.cpuMask_eq_ok_iff.mpr (by cbv)
  cases Except.ok.inj (hsingle.symm.trans hposition)
  exact ⟨w, next, run, step, hmask, hcurrent⟩

end CpuPlacement
