import CpuPlacement.Proofs.Layout.Siblings
import CpuPlacement.Proofs.Reservation.Choice

/-!
# Which core a reservation takes

A core is eligible for a strategy if each of its CPUs can be taken and suits the strategy; CPU 0 is
not excepted. As with single CPUs, the first strategy under which any core is eligible decides, and
the highest of its cores is taken, as a whole and without touching another lock. Where no core is
eligible for any strategy, the reservation is in all respects one of a single CPU.
-/

set_option autoImplicit false

namespace CpuPlacement

variable {σ : Type}

/-- The strategies that cores are searched by: without any, the one that accepts everything. -/
def Strategy.orAny (strategies : List Strategy) : List Strategy :=
  if strategies.isEmpty then [.any] else strategies

/-- A whole core covers the CPUs of the core that its first CPU is in. -/
theorem Handle.covers_wholeCore_iff_of_physicalCore {l : Layout} {core first : Nat}
    (hfirst : l.physicalCore first = .ok core) (cpu : Nat) :
    (wholeCore first).Covers l cpu ↔ l.physicalCore cpu = .ok core := by
  constructor
  · rintro ⟨other, hother, hcpu⟩
    exact Except.ok.inj (hother.symm.trans hfirst) ▸ hcpu
  · exact fun hcpu => ⟨core, hfirst, hcpu⟩

namespace Inventory

/-- The core has CPUs, and all of them can be taken and suit the strategy. -/
def CoreEligible (inv : Inventory) (alive : ThreadId → Bool) (s : Strategy) (ids : List Int)
    (core : Nat) : Prop :=
  (∃ cpu, inv.layout.physicalCore cpu = .ok core) ∧
    ∀ cpu, inv.layout.physicalCore cpu = .ok core →
      inv.Takeable alive cpu ∧ inv.Suited s ids cpu

section Search

variable {inv : Inventory} {alive : ThreadId → Bool}

/-- A core suits a strategy if it is eligible. -/
theorem coreSuits_iff {s : Strategy} {ids : List Int} {core : Nat} :
    inv.coreSuits alive s ids core = true ↔ inv.CoreEligible alive s ids core := by
  simp only [coreSuits, CoreEligible, Bool.and_eq_true, List.all_eq_true, Bool.not_eq_true',
    List.isEmpty_eq_false_iff_exists_mem, Layout.mem_siblings, takeable_iff, suited_iff]

/-- The handle of an eligible core can be given. -/
theorem CoreEligible.grantable {s : Strategy} {ids : List Int} {core first : Nat}
    (h : inv.CoreEligible alive s ids core) (hfirst : inv.layout.physicalCore first = .ok core) :
    inv.Grantable alive (.wholeCore first) :=
  grantable_wholeCore (Layout.mem_siblings.mpr hfirst) fun cpu hcpu =>
    takeable_iff.mp (h.2 cpu (Layout.mem_siblings.mp hcpu)).1

variable (inv alive)

/-- Under one strategy, the highest eligible core is found. -/
theorem highest_coreEligible (hlayout : inv.layout.Constructed) (s : Strategy) (ids : List Int) :
    Highest (inv.CoreEligible alive s ids)
      ((List.range inv.layout.cores.length).reverse.find? (inv.coreSuits alive s ids)) := by
  refine (Highest.find?_reverse_range _ _).congr fun core => ?_
  rw [coreSuits_iff, and_iff_right_iff_imp]
  rintro ⟨⟨cpu, hcpu⟩, -⟩
  -- cores are numbered from 0 on, and every CPU is in one of them
  have hlt : cpu < inv.layout.cpus := hlayout.siblings.lt_cpus (Layout.mem_siblings.mpr hcpu)
  obtain ⟨own, hown, hin⟩ := hlayout.siblings.exists_core cpu hlt
  cases Except.ok.inj (hcpu.symm.trans hin)
  exact hown

/-- The search for a core finds the highest that is eligible for the strategy that decides. -/
theorem chosen_chooseCore? (hlayout : inv.layout.Constructed) (strategies : List Strategy)
    (ids : List Int) :
    Strategy.Chosen (Strategy.orAny strategies) (inv.CoreEligible alive · ids)
      (inv.chooseCore? alive strategies ids) :=
  Strategy.chosen_findSome? (fun s => inv.highest_coreEligible alive hlayout s ids) _

end Search

/-- The siblings of a core that has CPUs begin with the first of them. -/
theorem exists_leader {l : Layout} (hl : l.Constructed) {core cpu : Nat}
    (hcpu : l.physicalCore cpu = .ok core) :
    ∃ first, (l.siblings core).head? = some first ∧ l.Leads core first := by
  have hmem : cpu ∈ l.siblings core := Layout.mem_siblings.mpr hcpu
  obtain ⟨first, hfirst⟩ := Option.ne_none_iff_exists'.mp
    (mt List.head?_eq_none_iff.mp (List.ne_nil_of_mem hmem))
  refine ⟨first, hfirst, Layout.leads_of_head? (fun other hother => ?_) hfirst⟩
  exact Layout.exists_descriptor_iff.mpr (hl.siblings.lt_cpus hother)

section AcquireCore

variable {inv : Inventory} (hlayout : inv.layout.Constructed) (backend : Backend σ) (native : σ)
  (alive : ThreadId → Bool) (me : ThreadId) (bind : Bool) (strategies : List Strategy)
  (ids : List Int)

include hlayout

/-- A reservation of a core takes the core that the search should find, or is one of a single CPU
where there is none to find. -/
theorem acquireCore_chosen :
    (∃ s core first, Strategy.Decides (Strategy.orAny strategies) (inv.CoreEligible alive · ids) s ∧
      IsGreatest {k | inv.CoreEligible alive s ids k} core ∧ inv.layout.Leads core first ∧
      inv.acquireCore backend native alive me bind strategies ids =
        inv.take backend native me bind (.wholeCore first) first) ∨
    ((∀ s ∈ Strategy.orAny strategies, ∀ core, ¬ inv.CoreEligible alive s ids core) ∧
      inv.acquireCore backend native alive me bind strategies ids =
        inv.acquire backend native alive me bind strategies ids) := by
  have hchosen := inv.chosen_chooseCore? alive hlayout strategies ids
  unfold acquireCore
  generalize inv.chooseCore? alive strategies ids = chosen at hchosen ⊢
  cases hchosen with
  | @decided s core hs hcore =>
    obtain ⟨⟨cpu, hcpu⟩, -⟩ := hcore.1
    obtain ⟨first, hfirst, hleads⟩ := exists_leader hlayout hcpu
    refine .inl ⟨s, core, first, hs, hcore, hleads, ?_⟩
    simp only [Option.bind_some, hfirst]
  | undecided hnone => exact .inr ⟨hnone, rfl⟩

end AcquireCore

end Inventory

/-- Where some core is eligible for some strategy, a reservation of a core is for the highest one
that is eligible for the first strategy that has one. The handle names the first CPU of the core,
all its locks get the caller as their owner, and no other lock changes. Otherwise the outcome is
that of a reservation of one CPU. Without a handle, no CPU but CPU 0 can be taken. -/
theorem acquireCore_whole_or_single {inv : Inventory} (hlayout : inv.layout.Constructed)
    (backend : Backend σ) (native : σ) (alive : ThreadId → Bool) (me : ThreadId) (bind : Bool)
    (strategies : List Strategy) (ids : List Int) :
    let requested := Strategy.orAny strategies
    let outcome := inv.acquireCore backend native alive me bind strategies ids
    ((∃ s ∈ requested, ∃ core, inv.CoreEligible alive s ids core) →
      ∃ s core first, Strategy.Decides requested (inv.CoreEligible alive · ids) s ∧
        IsGreatest {k | inv.CoreEligible alive s ids k} core ∧ inv.layout.Leads core first ∧
        outcome.result = .wholeCore first ∧
        inv.Gives outcome.inventory me outcome.pinned
          fun cpu => inv.layout.physicalCore cpu = .ok core) ∧
    ((∀ s ∈ requested, ∀ core, ¬ inv.CoreEligible alive s ids core) →
      outcome = inv.acquire backend native alive me bind strategies ids) ∧
    (outcome.result = .none → ∀ cpu, 1 ≤ cpu → ¬ inv.Takeable alive cpu) := by
  intro requested outcome
  -- either a core is decided on, or none is eligible and one CPU is reserved
  rcases Inventory.acquireCore_chosen hlayout backend native alive me bind strategies ids with
    ⟨s, core, first, hs, hcore, hleads, htake⟩ | ⟨hnone, hsingle⟩
  · have hresult : outcome.result = .wholeCore first :=
      (congrArg Outcome.result htake).trans (Inventory.take_result ..)
    have hgives : inv.Gives outcome.inventory me outcome.pinned
        ((Handle.wholeCore first).Covers inv.layout) := by
      simp only [outcome, htake]
      exact .take (hcore.1.grantable hleads.1) backend native me bind first
    refine ⟨fun _ => ⟨s, core, first, hs, hcore, hleads, hresult, ?given⟩, ?single, ?none⟩
    case given => exact hgives.congr (Handle.covers_wholeCore_iff_of_physicalCore hleads.1)
    case single => exact fun hnone => absurd hcore.1 (hnone s hs.mem core)
    case none =>
      intro hno
      cases hresult.symm.trans hno
  · refine ⟨?whole, fun _ => hsingle, ?nothing⟩
    case whole =>
      rintro ⟨s, hs, core, hcore⟩
      exact absurd hcore (hnone s hs core)
    case nothing =>
      intro hno
      have hpicks := inv.picks_acquire backend native alive me bind strategies ids
      exact hpicks.eq_none_iff.mp (hsingle ▸ hno)

/-- The layout of the small world is a constructed one. -/
theorem World.constructed_small : World.small.inventory.layout.Constructed := by
  have hlayout : Layout.ofDescriptors (Layout.gridDescriptors 1 2 2) =
      .ok World.small.inventory.layout := by
    cbv
  exact .descriptors hlayout

/-- CPU 0 keeps core 0 from being reserved, so a thread that wants to be on the core of CPU 2 or
else on another one gets core 1, and with it CPU 3. -/
theorem acquireCore_whole_or_single_second_strategy :
    World.small.inventory.layout.Constructed ∧
      (∃ s ∈ Strategy.orAny [.sameCore, .differentCore], ∃ core,
        World.small.inventory.CoreEligible World.small.roster.alive s [2] core) ∧
      (World.small.serve Simulated.backend ⟨1⟩
        (.acquireCore true [.sameCore, .differentCore] [2])).result = .handle (.wholeCore 1) ∧
      (World.small.serve Simulated.backend ⟨1⟩
        (.acquireCore true [.sameCore, .differentCore] [2])).inventory.Owns ⟨1⟩ 3 := by
  have heligible :
      World.small.inventory.CoreEligible World.small.roster.alive .differentCore [2] 1 :=
    Inventory.coreSuits_iff.mp (by cbv)
  have hsome : ∃ s ∈ Strategy.orAny [.sameCore, .differentCore], ∃ core,
      World.small.inventory.CoreEligible World.small.roster.alive s [2] core :=
    ⟨.differentCore, by decide, 1, heligible⟩
  have hreply : (World.small.serve Simulated.backend ⟨1⟩
      (.acquireCore true [.sameCore, .differentCore] [2])).result = .handle (.wholeCore 1) := by cbv
  obtain ⟨hwhole, -⟩ := acquireCore_whole_or_single World.constructed_small Simulated.backend
    World.small.native World.small.roster.alive ⟨1⟩ true [.sameCore, .differentCore] [2]
  obtain ⟨s, core, first, -, hcore, hleads, hresult, hgives⟩ := hwhole hsome
  -- the handle names CPU 1, so the core is that of CPU 1
  obtain rfl : first = 1 :=
    Handle.wholeCore.inj (Reply.handle.inj ((congrArg Reply.handle hresult).symm.trans hreply))
  obtain rfl : core = 1 := Except.ok.inj (hleads.1.symm.trans (by cbv))
  obtain ⟨⟨lock, hlock, -⟩, -⟩ := hcore.1.2 3 (by cbv)
  exact ⟨World.constructed_small, hsome, hreply,
    Inventory.owns_iff.mpr ⟨_, hgives.given 3 lock (by cbv) hlock, rfl⟩⟩

end CpuPlacement
