import CpuPlacement.Proofs.Reservation.Run
import Mathlib

/-!
# Which CPU a reservation takes

The first strategy under which any CPU is eligible decides, and the highest of its CPUs is taken;
where no strategy has one, the highest CPU that can be reserved at all (`Inventory.Picks`). The main
statement says so of every inventory, with what becomes of the locks. Since the ids only say which
CPUs a strategy has to accept the choice against, their order and repetition play no part, and
neither do ids of CPUs that there are not; a last strategy that accepts everything adds nothing to
what a reservation falls back to.
-/

set_option autoImplicit false

namespace CpuPlacement

variable {σ : Type}

/-! ## The first strategy and the highest number -/

/-- The strategy is the first of the list under which anything is eligible. -/
def Strategy.Decides (strategies : List Strategy) (eligible : Strategy → Nat → Prop)
    (s : Strategy) : Prop :=
  ∃ before after, strategies = before ++ s :: after ∧ (∃ n, eligible s n) ∧
    ∀ t ∈ before, ∀ n, ¬ eligible t n

/-- The strategy that decides is one of those that were given. -/
theorem Strategy.Decides.mem {strategies : List Strategy} {eligible : Strategy → Nat → Prop}
    {s : Strategy} (h : Decides strategies eligible s) : s ∈ strategies := by
  obtain ⟨before, after, rfl, -⟩ := h
  exact List.mem_append_right before List.mem_cons_self

/-- What a search should find: the highest number with the property, or nothing where there is
none. -/
inductive Highest (p : Nat → Prop) : Option Nat → Prop where
  | found {n : Nat} (h : IsGreatest {k | p k} n) : Highest p (some n)
  | nothing (h : ∀ n, ¬ p n) : Highest p none

namespace Highest

/-- What the highest number is depends only on which numbers qualify. -/
theorem congr {p q : Nat → Prop} {found : Option Nat} (hpq : ∀ n, p n ↔ q n)
    (h : Highest p found) : Highest q found :=
  (funext fun n => propext (hpq n) : p = q) ▸ h

/-- Going downwards through a range finds the highest number in it. -/
theorem find?_reverse_range (count : Nat) (p : Nat → Bool) :
    Highest (fun n => n < count ∧ p n = true) ((List.range count).reverse.find? p) := by
  induction count with
  | zero => exact .nothing fun n h => Nat.not_lt_zero n h.1
  | succ count ih =>
    rw [List.range_succ, List.reverse_append, List.reverse_singleton, List.singleton_append]
    cases hlast : p count with
    | true =>
      rw [List.find?_cons_of_pos hlast]
      exact .found ⟨⟨Nat.lt_succ_self count, hlast⟩, fun n h => Nat.le_of_lt_succ h.1⟩
    | false =>
      rw [List.find?_cons_of_neg (by rw [hlast]; exact Bool.false_ne_true)]
      refine ih.congr fun n => and_congr_left fun hn => ?_
      have hne : n ≠ count := fun heq => Bool.false_ne_true (hlast.symm.trans (heq ▸ hn))
      omega

end Highest

/-- What a search by strategies should find: the highest number that is eligible for the strategy
that decides, or nothing where none decides. -/
inductive Strategy.Chosen (strategies : List Strategy) (eligible : Strategy → Nat → Prop) :
    Option Nat → Prop where
  | decided {s : Strategy} {n : Nat} (hs : Decides strategies eligible s)
    (hn : IsGreatest {k | eligible s k} n) : Chosen strategies eligible (some n)
  | undecided (h : ∀ s ∈ strategies, ∀ n, ¬ eligible s n) : Chosen strategies eligible none

/-- Searching under one strategy after the other finds it. -/
theorem Strategy.chosen_findSome? {eligible : Strategy → Nat → Prop}
    {find : Strategy → Option Nat} (hfind : ∀ s, Highest (eligible s) (find s))
    (strategies : List Strategy) :
    Chosen strategies eligible (strategies.findSome? find) := by
  have hnone : ∀ {s}, find s = none → ∀ n, ¬ eligible s n := by
    intro s hs
    cases hs ▸ hfind s with
    | nothing h => exact h
  cases hfound : strategies.findSome? find with
  | none =>
    exact .undecided fun s hs => hnone (List.findSome?_eq_none_iff.mp hfound s hs)
  | some n =>
    obtain ⟨before, s, after, hsplit, hs, hbefore⟩ := List.findSome?_eq_some_iff.mp hfound
    cases hs ▸ hfind s with
    | found h =>
      exact .decided ⟨before, after, hsplit, ⟨n, h.1⟩, fun t ht => hnone (hbefore t ht)⟩ h

namespace Inventory

/-! ## Eligible CPUs -/

/-- The CPU may be reserved, and nobody who is alive owns it. -/
def Takeable (inv : Inventory) (alive : ThreadId → Bool) (cpu : Nat) : Prop :=
  ∃ lock, inv.locks[cpu]? = some lock ∧ lock.reservable = true ∧
    ∀ owner, lock.owner = some owner → alive owner = false

/-- The strategy accepts the CPU relative to every CPU that there is among the ids. -/
def Suited (inv : Inventory) (s : Strategy) (ids : List Int) (cpu : Nat) : Prop :=
  ∀ id ∈ ids, 0 ≤ id → id < inv.cpus → s.accepts inv.layout id.toNat cpu = true

/-- The CPU can be taken under the strategy. -/
structure Eligible (inv : Inventory) (alive : ThreadId → Bool) (s : Strategy) (ids : List Int)
    (cpu : Nat) : Prop where
  pos : 1 ≤ cpu
  takeable : inv.Takeable alive cpu
  suited : inv.Suited s ids cpu

section Search

variable {inv : Inventory} {alive : ThreadId → Bool}

/-- A CPU can be taken if the table says that it is available. -/
theorem takeable_iff {cpu : Nat} :
    inv.Takeable alive cpu ↔ inv.available alive cpu = true := by
  rw [available_iff]
  refine exists_congr fun lock => and_congr_right fun _ => ?_
  rw [Lock.available, Bool.and_eq_true, Lock.liveOwner?, Option.isNone_iff_eq_none,
    Option.filter_eq_none_iff]
  refine and_congr_right fun _ => forall₂_congr fun owner _ => ?_
  exact Bool.not_eq_true _ ▸ Iff.rfl

theorem Takeable.lt_cpus {cpu : Nat} (h : inv.Takeable alive cpu) : cpu < inv.cpus := by
  obtain ⟨lock, hlock, -⟩ := h
  exact (List.getElem?_eq_some_iff.mp hlock).1

/-- A CPU suits a strategy if the search says so. -/
theorem suited_iff {s : Strategy} {ids : List Int} {cpu : Nat} :
    inv.Suited s ids cpu ↔ inv.suits s ids cpu = true := by
  simp only [Suited, suits, known, List.all_eq_true, List.mem_filterMap,
    Option.ite_none_right_eq_some, Option.some.injEq]
  constructor
  · rintro h _ ⟨id, hid, ⟨hpos, hlt⟩, rfl⟩
    exact h id hid hpos hlt
  · exact fun h id hid hpos hlt => h _ ⟨id, hid, ⟨hpos, hlt⟩, rfl⟩

/-- Everything suits the strategy that accepts everything. -/
theorem suited_any (ids : List Int) (cpu : Nat) : inv.Suited .any ids cpu :=
  fun _ _ _ _ => rfl

/-- Only the ids of CPUs that there are count, each once and in any order. -/
theorem suits_congr {ids others : List Int}
    (hsame : ∀ id : Int, 0 ≤ id → id < inv.cpus → (id ∈ ids ↔ id ∈ others)) (s : Strategy)
    (cpu : Nat) : inv.suits s ids cpu = inv.suits s others cpu := by
  rw [Bool.eq_iff_iff, ← suited_iff, ← suited_iff]
  constructor
  · exact fun h id hid hpos hlt => h id ((hsame id hpos hlt).mpr hid) hpos hlt
  · exact fun h id hid hpos hlt => h id ((hsame id hpos hlt).mp hid) hpos hlt

/-- The highest CPU of which something holds is found, CPU 0 excepted. -/
theorem highest_highest? (p : Nat → Bool) :
    Highest (fun cpu => 1 ≤ cpu ∧ cpu < inv.cpus ∧ p cpu = true) (inv.highest? p) := by
  refine (Highest.find?_reverse_range inv.cpus fun cpu => 1 ≤ cpu && p cpu).congr fun cpu => ?_
  rw [Bool.and_eq_true, decide_eq_true_eq]
  exact and_left_comm

variable (inv alive)

/-- Under one strategy, the highest eligible CPU is found. -/
theorem highest_eligible (s : Strategy) (ids : List Int) :
    Highest (inv.Eligible alive s ids)
      (inv.highest? fun cpu => inv.available alive cpu && inv.suits s ids cpu) := by
  refine (highest_highest? _).congr fun cpu => ?_
  rw [Bool.and_eq_true, ← takeable_iff, ← suited_iff]
  constructor
  · rintro ⟨hpos, -, htakeable, hsuited⟩
    exact ⟨hpos, htakeable, hsuited⟩
  · rintro ⟨hpos, htakeable, hsuited⟩
    exact ⟨hpos, htakeable.lt_cpus, htakeable, hsuited⟩

/-- Whatever is searched for beside the strategies, the highest CPU that can be taken is found. -/
theorem highest_takeable (ids : List Int) :
    Highest (inv.Eligible alive .any ids) (inv.highest? (inv.available alive)) := by
  refine (highest_highest? _).congr fun cpu => ?_
  rw [← takeable_iff]
  constructor
  · rintro ⟨hpos, -, htakeable⟩
    exact ⟨hpos, htakeable, suited_any ids cpu⟩
  · rintro ⟨hpos, htakeable, -⟩
    exact ⟨hpos, htakeable.lt_cpus, htakeable⟩

end Search

/-- The handle that a reservation should give: for the highest CPU that is eligible for the first
strategy that has one, or else for the highest CPU that can be taken, or else for none. -/
inductive Picks (inv : Inventory) (alive : ThreadId → Bool) (strategies : List Strategy)
    (ids : List Int) : Handle → Prop where
  | suited {s : Strategy} {cpu : Nat}
    (hs : Strategy.Decides strategies (inv.Eligible alive · ids) s)
    (hcpu : IsGreatest {c | inv.Eligible alive s ids c} cpu) :
    Picks inv alive strategies ids (.cpu cpu)
  | anywhere {cpu : Nat} (hnone : ∀ s ∈ strategies, ∀ c, ¬ inv.Eligible alive s ids c)
    (hcpu : IsGreatest {c | inv.Eligible alive .any ids c} cpu) :
    Picks inv alive strategies ids (.cpu cpu)
  | nothing (hnone : ∀ c, 1 ≤ c → ¬ inv.Takeable alive c) : Picks inv alive strategies ids .none

/-- No handle is given only where no CPU can be taken. -/
theorem Picks.eq_none_iff {inv : Inventory} {alive : ThreadId → Bool} {strategies : List Strategy}
    {ids : List Int} {h : Handle} (hpicks : inv.Picks alive strategies ids h) :
    h = .none ↔ ∀ cpu, 1 ≤ cpu → ¬ inv.Takeable alive cpu := by
  cases hpicks with
  | nothing hnone => exact iff_of_true rfl hnone
  | suited _ hcpu => exact iff_of_false nofun fun hnone => hnone _ hcpu.1.pos hcpu.1.takeable
  | anywhere _ hcpu => exact iff_of_false nofun fun hnone => hnone _ hcpu.1.pos hcpu.1.takeable

/-! ## What becomes of the locks -/

/-- The second inventory is the first with some CPUs given to a thread, their locks marked as bound
in addition if the thread was pinned. -/
structure Gives (inv after : Inventory) (me : ThreadId) (pinned : Bool) (cpus : Nat → Prop) :
    Prop where
  layout_eq : after.layout = inv.layout
  policy_eq : after.policy = inv.policy
  given : ∀ cpu lock, cpus cpu → inv.locks[cpu]? = some lock →
    after.locks[cpu]? = some { lock with owner := some me, bound := lock.bound || pinned }
  kept : ∀ cpu, ¬ cpus cpu → after.locks[cpu]? = inv.locks[cpu]?

namespace Gives

variable {inv after : Inventory} {me : ThreadId} {pinned : Bool} {p q : Nat → Prop}

theorem congr (hpq : ∀ cpu, p cpu ↔ q cpu) (h : inv.Gives after me pinned p) :
    inv.Gives after me pinned q :=
  (funext fun cpu => propext (hpq cpu) : p = q) ▸ h

/-- Nothing is given. -/
theorem nothing (inv : Inventory) (me : ThreadId) (pinned : Bool) :
    inv.Gives inv me pinned fun _ => False where
  layout_eq := rfl
  policy_eq := rfl
  given _ _ hgiven _ := hgiven.elim
  kept _ _ := rfl

/-- A thread that takes a handle is given what the handle stands for. -/
theorem take {alive : ThreadId → Bool} {h : Handle} (hgrant : inv.Grantable alive h)
    (backend : Backend σ) (native : σ) (me : ThreadId) (bind : Bool) (named : Nat) :
    inv.Gives (inv.take backend native me bind h named).inventory me
      (inv.take backend native me bind h named).pinned (h.Covers inv.layout) := by
  rw [take_inventory]
  refine ⟨rfl, rfl, fun cpu lock hcovers hlock => ?_, fun cpu hnot => ?_⟩
  · exact getElem?_update_of_mem hlock (mem_covered_of_covers hcovers)
  · rw [getElem?_update]
    simp only [hgrant.mem_covered_iff, hnot, if_false, Option.map_id']

end Gives

section Acquire

variable (inv : Inventory) (backend : Backend σ) (native : σ) (alive : ThreadId → Bool)
  (me : ThreadId) (bind : Bool) (strategies : List Strategy) (ids : List Int)

/-- A reservation of one CPU answers with the handle that it should. -/
theorem picks_acquire :
    inv.Picks alive strategies ids
      (inv.acquire backend native alive me bind strategies ids).result := by
  have hsuitable := Strategy.chosen_findSome?
    (fun s => inv.highest_eligible alive s ids) strategies
  have hany := inv.highest_takeable alive ids
  -- what the two searches find is all that matters from here on
  unfold acquire choose?
  generalize strategies.findSome? _ = suitable at hsuitable ⊢
  generalize inv.highest? (inv.available alive) = available at hany ⊢
  cases hsuitable with
  | decided hs hcpu =>
    dsimp only [Option.some_or]
    rw [take_result]
    exact .suited hs hcpu
  | undecided hnone =>
    rw [Option.none_or]
    cases hany with
    | found hcpu =>
      dsimp only
      rw [take_result]
      exact .anywhere hnone hcpu
    | nothing hnothing =>
      exact .nothing fun cpu hpos htakeable => hnothing cpu ⟨hpos, htakeable, suited_any ids cpu⟩

/-- The caller is given the CPU that the handle names, and no other lock changes. -/
theorem gives_acquire :
    inv.Gives (inv.acquire backend native alive me bind strategies ids).inventory me
      (inv.acquire backend native alive me bind strategies ids).pinned
      ((inv.acquire backend native alive me bind strategies ids).result.Covers inv.layout) := by
  rcases inv.acquire_cases backend native alive me bind strategies ids with
    hnone | ⟨cpu, -, hgrant, htake⟩
  · rw [hnone]
    exact .nothing inv me _
  · rw [htake, take_result]
    exact .take hgrant backend native me bind cpu

/-! ## Other ways to ask for the same -/

/-- Only the ids of CPUs that there are count, each once and in any order. -/
theorem acquire_congr_ids {others : List Int}
    (hsame : ∀ id : Int, 0 ≤ id → id < inv.cpus → (id ∈ others ↔ id ∈ ids)) :
    inv.acquire backend native alive me bind strategies others =
      inv.acquire backend native alive me bind strategies ids := by
  simp only [acquire, choose?, suits_congr hsame]

/-- A last strategy that accepts everything finds what the search falls back to. -/
theorem acquire_append_any :
    inv.acquire backend native alive me bind (strategies ++ [.any]) ids =
      inv.acquire backend native alive me bind strategies ids := by
  have hany : ∀ cpu, inv.suits .any ids cpu = true := fun cpu => suited_iff.mp (suited_any ids cpu)
  simp only [acquire, choose?, List.findSome?_append, List.findSome?_singleton, hany, Bool.and_true,
    Option.or_assoc, Option.or_self]

end Acquire

end Inventory

/-! ## The main statement -/

/-- A reservation of one CPU is for the highest CPU that is eligible for the first strategy that has
one, or else for the highest that can be taken, and for none exactly where none can be taken. The
lock of that CPU gets the caller as its owner and no other lock changes; without a CPU nothing
happens at all. Order and repetition of the ids and ids of CPUs that there are not make no
difference, and neither does a last strategy that accepts everything, also as the only one. -/
theorem acquire_takes_best (inv : Inventory) (backend : Backend σ) (native : σ)
    (alive : ThreadId → Bool) (me : ThreadId) (bind : Bool) (strategies : List Strategy)
    (ids : List Int) :
    let reserve := fun strategies ids => inv.acquire backend native alive me bind strategies ids
    let outcome := reserve strategies ids
    inv.Picks alive strategies ids outcome.result ∧
    (outcome.result = .none ↔ ∀ cpu, 1 ≤ cpu → ¬ inv.Takeable alive cpu) ∧
    inv.Gives outcome.inventory me outcome.pinned (outcome.result.Covers inv.layout) ∧
    (outcome.result = .none → outcome = ⟨.none, inv, native, none⟩) ∧
    (∀ others : List Int,
      (∀ id : Int, 0 ≤ id → id < inv.cpus → (id ∈ others ↔ id ∈ ids)) →
        reserve strategies others = outcome) ∧
    reserve [] ids = reserve [.any] ids ∧
    reserve (strategies ++ [.any]) ids = outcome := by
  intro reserve outcome
  have hpicks : inv.Picks alive strategies ids outcome.result := inv.picks_acquire ..
  refine ⟨hpicks, hpicks.eq_none_iff, inv.gives_acquire .., ?nothing, ?ids, ?empty, ?last⟩
  case nothing =>
    intro hresult
    rcases inv.acquire_cases backend native alive me bind strategies ids with
      hnone | ⟨cpu, -, -, htake⟩
    · exact hnone
    · have hcpu := (congrArg Outcome.result htake).symm.trans hresult
      rw [Inventory.take_result] at hcpu
      cases hcpu
  case ids =>
    intro others hsame
    exact inv.acquire_congr_ids backend native alive me bind strategies ids hsame
  case empty => exact (inv.acquire_append_any backend native alive me bind [] ids).symm
  case last => exact inv.acquire_append_any ..

/-- A thread that wants to be on the core of CPU 1 gets CPU 3, also if it names CPU 1 twice beside
CPUs that there are not. -/
theorem acquire_takes_best_repeated_ids :
    let w := World.small
    let reserve := fun ids =>
      w.inventory.acquire Simulated.backend w.native w.roster.alive ⟨1⟩ false [.sameCore] ids
    (∀ id : Int, 0 ≤ id → id < w.inventory.cpus → (id ∈ [7, 1, -3, 1] ↔ id ∈ [(1 : Int)])) ∧
      reserve [7, 1, -3, 1] = reserve [1] ∧ (reserve [1]).result = .cpu 3 := by
  intro w reserve
  have hcpus : w.inventory.cpus = 4 := by cbv
  have hsame : ∀ id : Int, 0 ≤ id → id < w.inventory.cpus →
      (id ∈ [7, 1, -3, 1] ↔ id ∈ [(1 : Int)]) := by
    intro id hpos hlt
    simp only [List.mem_cons, List.not_mem_nil, or_false]
    omega
  obtain ⟨-, -, -, -, hids, -⟩ := acquire_takes_best w.inventory Simulated.backend w.native
    w.roster.alive ⟨1⟩ false [.sameCore] [1]
  exact ⟨hsame, hids _ hsame, by cbv⟩

end CpuPlacement
