import CpuPlacement.Proofs.Reservation.Granting
import CpuPlacement.Proofs.Traversal
import CpuPlacement.Reservation.Series
import Mathlib.Data.List.Perm.Subperm

/-!
# What a row of reservations gives

A thread that reserves in a row is given handles that have no CPU in common, each for CPUs that were
available to begin with, and afterwards owns exactly these CPUs. The row ends early only when none
of the CPUs is left that a reservation of a single CPU can take, because that is what every
reservation falls back to (`Series.Accounts`). Whichever way the strategies choose, a row of single
CPUs therefore goes through all of these CPUs, in some order, as far as it gets (`held_eq_take`).
-/

set_option autoImplicit false

namespace CpuPlacement

variable {σ : Type}

namespace Series

/-- The handles that were given, in order. -/
def handles (s : Series σ) : List Handle :=
  (s.attempts.map fun (_, outcome) => outcome.result).filter (·.isAllocated)

/-- The CPUs that are held are those that the handles name. -/
theorem held_eq (s : Series σ) : s.held = s.handles.filterMap (·.cpu?) := by
  rw [held, handles, List.filterMap_filter, List.filterMap_map]
  refine List.filterMap_congr fun ⟨_, outcome⟩ _ => ?_
  show outcome.result.cpu? = if outcome.result.cpu?.isSome then outcome.result.cpu? else none
  cases outcome.result.cpu? <;> rfl

/-- Each handle names one of them. -/
theorem map_cpu?_handles (s : Series σ) : s.handles.map (·.cpu?) = s.held.map some := by
  have hnamed : ∀ name ∈ s.handles.map (·.cpu?), name.isSome = true :=
    List.forall_mem_map.mpr fun handle hmem => (List.mem_filter.mp hmem).2
  rw [← map_some_filterMap_id hnamed, List.filterMap_map, s.held_eq]
  rfl

section Cons

variable (rest : Series σ) (inv : Inventory) {first : Outcome σ Handle} {h : Handle}

/-- A reservation that succeeds gives the first handle. -/
theorem handles_cons (hresult : first.result = h) (hallocated : h.isAllocated = true) :
    ({ rest with attempts := (inv, first) :: rest.attempts } : Series σ).handles =
      h :: rest.handles := by
  unfold handles
  simp only [List.map_cons, hresult, List.filter_cons_of_pos hallocated]

/-- The CPU that its handle names is held first. -/
theorem held_cons {cpu : Nat} (hresult : first.result = h) (hcpu : h.cpu? = some cpu) :
    ({ rest with attempts := (inv, first) :: rest.attempts } : Series σ).held =
      cpu :: rest.held :=
  List.filterMap_cons_some (show first.result.cpu? = some cpu from hresult ▸ hcpu)

/-- Whether the row ran out is decided after it. -/
theorem exhausted_cons (hresult : first.result = h) (hallocated : h.isAllocated = true) :
    ({ rest with attempts := (inv, first) :: rest.attempts } : Series σ).exhausted =
      rest.exhausted := by
  unfold exhausted
  simp only [List.any_cons, hresult, hallocated, Bool.not_true, Bool.false_or]

end Cons

end Series

namespace Inventory

/-! ## What is left -/

/-- The CPUs that a reservation of a single CPU can take now. -/
def free (inv : Inventory) (alive : ThreadId → Bool) : List Nat :=
  (List.range inv.cpus).filter fun cpu => 1 ≤ cpu && inv.available alive cpu

section Free

variable {inv : Inventory} {alive : ThreadId → Bool}

/-- What can be taken is every CPU but 0 that is available. -/
theorem mem_free {cpu : Nat} :
    cpu ∈ inv.free alive ↔ 1 ≤ cpu ∧ inv.available alive cpu = true := by
  simp only [free, List.mem_filter, List.mem_range, Bool.and_eq_true, decide_eq_true_eq]
  refine and_iff_right_of_imp ?_
  rintro ⟨-, havailable⟩
  obtain ⟨lock, hlock, -⟩ := available_iff.mp havailable
  exact (List.getElem?_eq_some_iff.mp hlock).1

theorem nodup_free (inv : Inventory) (alive : ThreadId → Bool) : (inv.free alive).Nodup :=
  List.nodup_range.filter _

/-- No CPU is chosen only where none can be taken. -/
theorem free_eq_nil_of_choose? {strategies : List Strategy} {ids : List Int}
    (h : inv.choose? alive strategies ids = none) : inv.free alive = [] := by
  unfold choose? at h
  obtain ⟨-, hany⟩ := Option.or_eq_none_iff.mp h
  apply List.filter_eq_nil_iff.mpr
  intro cpu hcpu
  exact List.find?_eq_none.mp hany cpu (List.mem_reverse.mpr hcpu)

end Free

/-! ## Taking a handle -/

section Take

variable {inv : Inventory} {alive : ThreadId → Bool} {backend : Backend σ} {native : σ}
  {me : ThreadId} {pinned : Bool} {h : Handle}

/-- The owner of a CPU. -/
def owner? (inv : Inventory) (cpu : Nat) : Option ThreadId :=
  inv.locks[cpu]?.bind (·.owner)

/-- What a handle stands for depends on the layout alone. -/
theorem covered_congr {other : Inventory} (hlayout : other.layout = inv.layout) (h : Handle) :
    other.covered h = inv.covered h := by
  unfold covered
  rw [hlayout]

/-- A thread that has taken a handle owns what the handle stands for, and nobody else loses or gains
anything. -/
theorem owner?_take (hgrant : inv.Grantable alive h) (named cpu : Nat) :
    (inv.take backend native me pinned h named).inventory.owner? cpu =
      if cpu ∈ inv.covered h then some me else inv.owner? cpu := by
  rw [owner?, take_inventory, getElem?_update]
  by_cases hmem : cpu ∈ inv.covered h
  · obtain ⟨lock, hlock, -⟩ := available_iff.mp (hgrant.available cpu hmem)
    simp only [hlock, hmem, if_true, Option.map_some, Option.bind_some]
  · simp only [hmem, if_false, Option.map_id']
    rfl

/-- While the thread is alive, what it has taken cannot be reserved, and all else can as before. -/
theorem available_take (halive : alive me = true) (named cpu : Nat) :
    (inv.take backend native me pinned h named).inventory.available alive cpu = true ↔
      inv.available alive cpu = true ∧ cpu ∉ inv.covered h := by
  rw [take_inventory, available, available, getElem?_update]
  by_cases hmem : cpu ∈ inv.covered h
  · cases inv.locks[cpu]? <;> simp [hmem, Lock.available, Lock.liveOwner?, halive]
  · simp [hmem]

end Take

/-! ## One reservation of a row -/

section Next

variable (inv : Inventory) (backend : Backend σ) (native : σ) (alive : ThreadId → Bool)
  (me : ThreadId)

/-- A reservation of a single CPU finds nothing only where no CPU is left to take. -/
theorem acquire_free_cases (bind : Bool) (strategies : List Strategy) (ids : List Int) :
    (inv.acquire backend native alive me bind strategies ids = ⟨.none, inv, native, none⟩ ∧
      inv.free alive = []) ∨
    ∃ cpu, 1 ≤ cpu ∧ inv.Grantable alive (.cpu cpu) ∧
      inv.acquire backend native alive me bind strategies ids =
        inv.take backend native me bind (.cpu cpu) cpu := by
  rcases inv.acquire_cases backend native alive me bind strategies ids with hnone | htake
  · refine Or.inl ⟨hnone, ?_⟩
    unfold acquire at hnone
    split at hnone
    · next cpu hchoose =>
      have hresult := congrArg Outcome.result hnone
      rw [take_result] at hresult
      cases hresult
    · next hchoose => exact free_eq_nil_of_choose? hchoose
  · exact Or.inr htake

variable (demand : Demand) (held : List Nat)

/-- A reservation of a row is one of a whole core, if cores are asked for and one can be had, and of
a single CPU otherwise. -/
theorem acquireNext_eq :
    (demand.cores = true ∧ ∃ first, inv.Grantable alive (.wholeCore first) ∧
      inv.acquireNext backend native alive me demand held =
        inv.take backend native me demand.bind (.wholeCore first) first) ∨
    inv.acquireNext backend native alive me demand held =
      inv.acquire backend native alive me demand.bind demand.strategies (held.map Int.ofNat) := by
  unfold acquireNext
  cases hcores : demand.cores with
  | false => exact Or.inr rfl
  | true =>
    dsimp only
    rw [if_pos rfl]
    rcases inv.acquireCore_cases backend native alive me demand.bind demand.strategies
      (held.map Int.ofNat) with htake | hone
    · exact Or.inl ⟨rfl, htake⟩
    · exact Or.inr hone

/-- A reservation of a row finds nothing only where no CPU is left to take. Otherwise the thread
takes a handle; without whole cores it is for one CPU, which is not CPU 0. -/
theorem acquireNext_cases :
    (inv.acquireNext backend native alive me demand held = ⟨.none, inv, native, none⟩ ∧
      inv.free alive = []) ∨
    ∃ h cpu, h.cpu? = some cpu ∧ inv.Grantable alive h ∧
      (demand.cores = false → h = .cpu cpu ∧ 1 ≤ cpu) ∧
      inv.acquireNext backend native alive me demand held =
        inv.take backend native me demand.bind h cpu := by
  rcases inv.acquireNext_eq backend native alive me demand held with
    ⟨hcores, first, hgrant, htake⟩ | hone
  · refine Or.inr ⟨.wholeCore first, first, rfl, hgrant, ?_, htake⟩
    intro hsingle
    rw [hcores] at hsingle
    cases hsingle
  · rw [hone]
    rcases inv.acquire_free_cases backend native alive me demand.bind demand.strategies
      (held.map Int.ofNat) with hnone | ⟨cpu, hpos, hgrant, htake⟩
    · exact Or.inl hnone
    · exact Or.inr ⟨.cpu cpu, cpu, rfl, hgrant, fun _ => ⟨rfl, hpos⟩, htake⟩

end Next

/-! ## The whole row -/

section Row

variable {backend : Backend σ} {alive : ThreadId → Bool} {me : ThreadId} {demand : Demand}

/-- A row that finds nothing ends there. -/
theorem acquireSeries_of_none {inv : Inventory} {native : σ} {held : List Nat} (count : Nat)
    (hnone : inv.acquireNext backend native alive me demand held = ⟨.none, inv, native, none⟩) :
    inv.acquireSeries backend native alive me demand held (count + 1) =
      ⟨[(inv, ⟨.none, inv, native, none⟩)], inv, native⟩ := by
  rw [acquireSeries, hnone]
  rfl

/-- A row that has taken a handle goes on from there. -/
theorem acquireSeries_of_take {inv : Inventory} {native : σ} {held : List Nat} (count : Nat)
    {h : Handle} {cpu : Nat} (hcpu : h.cpu? = some cpu)
    (htake : inv.acquireNext backend native alive me demand held =
      inv.take backend native me demand.bind h cpu) :
    inv.acquireSeries backend native alive me demand held (count + 1) =
      let taken := inv.take backend native me demand.bind h cpu
      let rest := taken.inventory.acquireSeries backend taken.native alive me demand
        (held ++ [cpu]) count
      { rest with attempts := (inv, taken) :: rest.attempts } := by
  rw [acquireSeries, htake]
  dsimp only
  rw [take_result, hcpu]

end Row

end Inventory

/-- What a row of reservations has done to the inventory that it began with. -/
structure Series.Accounts (s : Series σ) (inv : Inventory) (alive : ThreadId → Bool)
    (me : ThreadId) (count : Nat) : Prop where
  revises : inv.Revises s.inventory
  length_le : s.handles.length ≤ count
  exhausted_iff : s.exhausted = true ↔ s.handles.length < count
  /-- All that a handle stands for was available, and no two handles stand for one CPU. -/
  granted : ∀ h ∈ s.handles, inv.Grantable alive h
  apart : s.handles.Pairwise fun a b => ∀ cpu ∈ inv.covered a, cpu ∉ inv.covered b
  owner?_eq : ∀ cpu, s.inventory.owner? cpu =
    if ∃ h ∈ s.handles, cpu ∈ inv.covered h then some me else inv.owner? cpu
  /-- A row that ended early has left nothing that a reservation of a single CPU could take. -/
  left : s.exhausted = true → ∀ cpu ∈ inv.free alive, ∃ h ∈ s.handles, cpu ∈ inv.covered h

namespace Series.Accounts

variable {inv : Inventory} {alive : ThreadId → Bool} {me : ThreadId}

/-- A row of no reservations. -/
theorem nil (inv : Inventory) (native : σ) (alive : ThreadId → Bool) (me : ThreadId) :
    (⟨[], inv, native⟩ : Series σ).Accounts inv alive me 0 where
  revises := .refl inv
  length_le := Nat.le_refl 0
  exhausted_iff := by simp [Series.exhausted]
  granted := nofun
  apart := List.Pairwise.nil
  owner?_eq := by simp [Series.handles]
  left hexhausted := by simp [Series.exhausted] at hexhausted

/-- A row that ends at once, because nothing is left. -/
theorem nothing (native : σ) (me : ThreadId) (count : Nat) (hfree : inv.free alive = []) :
    (⟨[(inv, ⟨.none, inv, native, none⟩)], inv, native⟩ : Series σ).Accounts inv alive me
      (count + 1) where
  revises := .refl inv
  length_le := Nat.zero_le _
  exhausted_iff := iff_of_true rfl (Nat.succ_pos count)
  granted := nofun
  apart := List.Pairwise.nil
  owner?_eq := by simp [Series.handles, Handle.isAllocated, Handle.cpu?]
  left _ := by simp [hfree]

/-- A row that goes on after a handle was taken. -/
theorem cons {rest : Series σ} {backend : Backend σ} {native : σ} {pinned : Bool} {h : Handle}
    {cpu count : Nat} (halive : alive me = true) (hcpu : h.cpu? = some cpu)
    (hgrant : inv.Grantable alive h)
    (hrest : rest.Accounts (inv.take backend native me pinned h cpu).inventory alive me count) :
    ({ rest with attempts := (inv, inv.take backend native me pinned h cpu) :: rest.attempts } :
      Series σ).Accounts inv alive me (count + 1) := by
  have hrevises := inv.revises_take backend native me pinned h cpu
  have hcovered : ∀ other, (inv.take backend native me pinned h cpu).inventory.covered other =
      inv.covered other := fun other => Inventory.covered_congr hrevises.layout_eq other
  have hallocated : h.isAllocated = true := by rw [Handle.isAllocated, hcpu, Option.isSome_some]
  have hresult := inv.take_result backend native me pinned h cpu
  have hhandles := rest.handles_cons inv hresult hallocated
  have hexhausted := rest.exhausted_cons inv hresult hallocated
  -- what is granted later was available before, and is none of what was taken first
  have hlater : ∀ other ∈ rest.handles, ∀ place ∈ inv.covered other,
      inv.available alive place = true ∧ place ∉ inv.covered h := by
    intro other hother place hplace
    have havailable := (hrest.granted other hother).available place (hcovered other ▸ hplace)
    exact (Inventory.available_take halive cpu place).mp havailable
  refine ⟨?revises, ?length, ?exhausted, ?granted, ?apart, ?owner, ?left⟩
  case revises => exact hrevises.trans hrest.revises
  case length =>
    rw [hhandles]
    exact Nat.succ_le_succ hrest.length_le
  case exhausted =>
    rw [hexhausted, hhandles, hrest.exhausted_iff, List.length_cons, Nat.add_lt_add_iff_right]
  case granted =>
    rw [hhandles]
    refine List.forall_mem_cons.mpr ⟨hgrant, ?_⟩
    intro other hother
    constructor
    · intro place hplace
      have hcovers := (hrest.granted other hother).covers place (hcovered other ▸ hplace)
      rwa [hrevises.layout_eq] at hcovers
    · intro place hplace
      exact (hlater other hother place hplace).1
  case apart =>
    rw [hhandles]
    constructor
    · intro other hother place hplace hagain
      exact (hlater other hother place hagain).2 hplace
    · apply hrest.apart.imp
      intro a b hab place ha hb
      exact hab place (hcovered a ▸ ha) (hcovered b ▸ hb)
  case owner =>
    intro place
    refine (hrest.owner?_eq place).trans ?_
    rw [Inventory.owner?_take hgrant, hhandles]
    simp only [hcovered, List.exists_mem_cons_iff]
    by_cases hfirst : place ∈ inv.covered h
    · simp [hfirst]
    · simp [hfirst]
  case left =>
    intro hended place hplace
    rw [hhandles]
    by_cases hfirst : place ∈ inv.covered h
    · exact ⟨h, List.mem_cons_self, hfirst⟩
    · obtain ⟨hpos, havailable⟩ := Inventory.mem_free.mp hplace
      obtain ⟨other, hother, hcovers⟩ := hrest.left (hexhausted ▸ hended) place
        (Inventory.mem_free.mpr
          ⟨hpos, (Inventory.available_take halive cpu place).mpr ⟨havailable, hfirst⟩⟩)
      exact ⟨other, List.mem_cons_of_mem h hother, hcovered other ▸ hcovers⟩

end Series.Accounts

/-- Every row accounts for the inventory that it began with. -/
theorem Inventory.acquireSeries_accounts {backend : Backend σ} {alive : ThreadId → Bool}
    {me : ThreadId} (halive : alive me = true) (demand : Demand) (count : Nat) (inv : Inventory)
    (native : σ) (held : List Nat) :
    (inv.acquireSeries backend native alive me demand held count).Accounts inv alive me count := by
  induction count generalizing inv native held with
  | zero => exact .nil inv native alive me
  | succ count ih =>
    rcases inv.acquireNext_cases backend native alive me demand held with
      ⟨hnone, hfree⟩ | ⟨h, cpu, hcpu, hgrant, -, htake⟩
    · rw [acquireSeries_of_none count hnone]
      exact .nothing native me count hfree
    · rw [acquireSeries_of_take count hcpu htake]
      exact .cons halive hcpu hgrant (ih _ _ _)

/-! ## Rows of single CPUs -/

/-- Every handle is for one CPU, which is not CPU 0. -/
def Series.Single (s : Series σ) : Prop :=
  ∀ h ∈ s.handles, ∃ cpu, h = .cpu cpu ∧ 1 ≤ cpu

namespace Series.Single

variable {s : Series σ}

/-- The handles are for the CPUs that are held, in order. -/
theorem handles_eq (hone : s.Single) : s.handles = s.held.map .cpu := by
  rw [held_eq, List.map_filterMap]
  symm
  have hnames : ∀ h ∈ s.handles, h.cpu?.map Handle.cpu = some h := by
    intro h hmem
    obtain ⟨cpu, rfl, -⟩ := hone h hmem
    rfl
  exact (List.filterMap_congr hnames).trans List.filterMap_some

theorem length_handles (hone : s.Single) : s.handles.length = s.held.length := by
  rw [hone.handles_eq, List.length_map]

variable {inv : Inventory} {alive : ThreadId → Bool} {me : ThreadId} {count : Nat}

/-- No CPU is held twice. -/
theorem nodup_held (hone : s.Single) (h : s.Accounts inv alive me count) : s.held.Nodup := by
  have hapart := h.apart
  rw [hone.handles_eq, List.pairwise_map] at hapart
  apply hapart.imp
  intro a b hab heq
  exact hab a (List.mem_singleton_self a) (List.mem_singleton.mpr heq)

/-- All CPUs that are held were free. -/
theorem held_subset (hone : s.Single) (h : s.Accounts inv alive me count) :
    s.held ⊆ inv.free alive := by
  intro cpu hheld
  have hmem : Handle.cpu cpu ∈ s.handles := by
    rw [hone.handles_eq]
    exact List.mem_map_of_mem hheld
  obtain ⟨_, heq, hpos⟩ := hone _ hmem
  obtain rfl := Handle.cpu.inj heq
  exact Inventory.mem_free.mpr
    ⟨hpos, (h.granted _ hmem).available cpu (List.mem_singleton_self cpu)⟩

/-- A row that ended early holds all CPUs that were free. -/
theorem free_subset (hone : s.Single) (h : s.Accounts inv alive me count)
    (hexhausted : s.exhausted = true) : inv.free alive ⊆ s.held := by
  intro cpu hfree
  obtain ⟨_, hmem, hcovered⟩ := h.left hexhausted cpu hfree
  rw [hone.handles_eq] at hmem
  obtain ⟨other, hheld, rfl⟩ := List.mem_map.mp hmem
  obtain rfl := List.mem_singleton.mp hcovered
  exact hheld

/-- As many CPUs are held as were asked for, or as were free if that is fewer. -/
theorem length_held (hone : s.Single) (h : s.Accounts inv alive me count) :
    s.held.length = min count (inv.free alive).length := by
  have hcount : s.held.length ≤ count := hone.length_handles ▸ h.length_le
  have hfree : s.held.length ≤ (inv.free alive).length :=
    ((hone.nodup_held h).subperm (hone.held_subset h)).length_le
  by_cases hexhausted : s.exhausted = true
  · have hall := ((inv.nodup_free alive).subperm (hone.free_subset h hexhausted)).length_le
    omega
  · have hnot := mt h.exhausted_iff.mpr hexhausted
    rw [hone.length_handles] at hnot
    omega

/-- The row ended early just if more CPUs were asked for than were free. -/
theorem exhausted_iff (hone : s.Single) (h : s.Accounts inv alive me count) :
    s.exhausted = true ↔ (inv.free alive).length < count := by
  rw [h.exhausted_iff, hone.length_handles, hone.length_held h]
  omega

end Series.Single

namespace Inventory

section Single

variable {backend : Backend σ} {alive : ThreadId → Bool} {me : ThreadId} {demand : Demand}

/-- Without whole cores a row is one of single CPUs. -/
theorem acquireSeries_single (hsingle : demand.cores = false) (count : Nat) (inv : Inventory)
    (native : σ) (held : List Nat) :
    (inv.acquireSeries backend native alive me demand held count).Single := by
  induction count generalizing inv native held with
  | zero => exact nofun
  | succ count ih =>
    rcases inv.acquireNext_cases backend native alive me demand held with
      ⟨hnone, -⟩ | ⟨h, cpu, hcpu, -, hone, htake⟩
    · rw [acquireSeries_of_none count hnone]
      exact nofun
    · obtain ⟨rfl, hpos⟩ := hone hsingle
      rw [acquireSeries_of_take count hcpu htake, Series.Single,
        Series.handles_cons _ _ (take_result ..) rfl]
      exact List.forall_mem_cons.mpr ⟨⟨cpu, rfl, hpos⟩, ih _ _ _⟩

/-- A row holds what a longer one held at that point. -/
theorem held_eq_take {count more : Nat} (hle : count ≤ more) (inv : Inventory) (native : σ)
    (held : List Nat) :
    (inv.acquireSeries backend native alive me demand held count).held =
      (inv.acquireSeries backend native alive me demand held more).held.take count := by
  induction count generalizing more inv native held with
  | zero => rfl
  | succ count ih =>
    obtain ⟨more, rfl⟩ := Nat.exists_eq_add_of_le' (Nat.le_trans (Nat.succ_pos count) hle)
    rcases inv.acquireNext_cases backend native alive me demand held with
      ⟨hnone, -⟩ | ⟨h, cpu, hcpu, -, -, htake⟩
    · rw [acquireSeries_of_none count hnone, acquireSeries_of_none more hnone]
      rfl
    · rw [acquireSeries_of_take count hcpu htake, acquireSeries_of_take more hcpu htake,
        Series.held_cons _ _ (take_result ..) hcpu, Series.held_cons _ _ (take_result ..) hcpu,
        List.take_succ_cons, ih (Nat.le_of_succ_le_succ hle)]

/-- Without whole cores a row goes through the free CPUs in some order, which does not depend on how
far it goes. -/
theorem exists_order (inv : Inventory) (backend : Backend σ) (native : σ)
    (alive : ThreadId → Bool) (me : ThreadId) (demand : Demand) (held : List Nat)
    (hsingle : demand.cores = false) (halive : alive me = true) :
    ∃ order : List Nat, order.Perm (inv.free alive) ∧
      ∀ count, (inv.acquireSeries backend native alive me demand held count).held =
        order.take count := by
  let row := inv.acquireSeries backend native alive me demand held
  have haccounts : ∀ count, (row count).Accounts inv alive me count := fun count =>
    acquireSeries_accounts halive demand count inv native held
  have hone : ∀ count, (row count).Single := fun count =>
    acquireSeries_single hsingle count inv native held
  have hshorter : ∀ {count more : Nat}, count ≤ more →
      (row count).held = (row more).held.take count := fun hle => held_eq_take hle inv native held
  obtain ⟨total, htotal⟩ : ∃ total, (inv.free alive).length = total := ⟨_, rfl⟩
  have hlength : ∀ count, (row count).held.length = min count total := fun count =>
    htotal ▸ (hone count).length_held (haccounts count)
  -- as long a row as there are free CPUs goes through all of them
  refine ⟨(row total).held, ?perm, fun count => ?take⟩
  case perm =>
    have hsubperm := ((hone total).nodup_held (haccounts total)).subperm
      ((hone total).held_subset (haccounts total))
    exact hsubperm.perm_of_length_le (by rw [hlength, htotal]; omega)
  case take =>
    show (row count).held = (row total).held.take count
    have hheld := hlength count
    rcases Nat.le_total count total with hle | hge
    · exact hshorter hle
    · -- A longer row holds nothing more.
      have hsame : (row total).held = (row count).held :=
        (hshorter hge).trans (List.take_of_length_le (by omega))
      rw [hsame]
      exact (List.take_of_length_le (by omega)).symm

end Single

end Inventory

end CpuPlacement
