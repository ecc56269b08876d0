import CpuPlacement.Proofs.Reservation.Run
import Mathlib

/-!
# Reservations are exclusive

In a run in which threads only reserve and release, a CPU that a thread has reserved is that
thread's until it ends or gives the CPU up: the lock stays assigned to it, and no reservation that
anybody makes in the meantime is for that CPU. The invariant is that the owner is alive and owns the
lock (`World.Holds`). A live owner makes the lock unavailable, so reserving cannot touch it; and
what others release is theirs or that of a thread that has ended.
-/

set_option autoImplicit false

namespace CpuPlacement

variable {σ : Type}

namespace Event

/-- The event is one of a run of reservations: threads come and go, reserve and release. -/
def OfReservations : Event σ → Prop
  | .call _ (.acquire ..) _ => True
  | .call _ (.acquireCore ..) _ => True
  | .call _ .release _ => True
  | .call _ (.releaseCpu _) _ => True
  | .call .. => False
  | _ => True

/-- With the event the thread no longer has the CPU: it ends, gives up everything, or has given up
this CPU. -/
def GivesUp (thread : ThreadId) (cpu : Nat) : Event σ → Prop
  | .finish ended => ended = thread
  | .call me .release _ => me = thread
  | .call me (.releaseCpu given) (.released (.ok _)) => me = thread ∧ given = cpu
  | _ => False

end Event

/-- The thread is alive and owns the lock of the CPU. -/
def World.Holds (w : World σ) (thread : ThreadId) (cpu : Nat) : Prop :=
  w.roster.alive thread = true ∧ w.inventory.Owns thread cpu

namespace Inventory

/-! ## One operation -/

variable {inv : Inventory} {alive : ThreadId → Bool} {me owner : ThreadId} {cpu : Nat}

/-- A change of other locks, or one that keeps the owner, takes a lock from nobody. -/
theorem Owns.update {cpus : List Nat} {change : Lock → Lock} (howns : inv.Owns owner cpu)
    (hchange : cpu ∈ cpus → ∀ lock, lock.owner = some owner → (change lock).owner = some owner) :
    (inv.update cpus change).Owns owner cpu := by
  obtain ⟨lock, hlock, howner⟩ := owns_iff.mp howns
  refine owns_iff.mpr ⟨if cpu ∈ cpus then change lock else lock, ?_, ?_⟩
  · rw [getElem?_update, hlock, Option.map_some]
  · split
    · next hmem => exact hchange hmem lock howner
    · exact howner

/-- What a thread reserves is not owned by a thread that is alive. -/
theorem Owns.take (howns : inv.Owns owner cpu) (halive : alive owner = true) {h : Handle}
    (hgrant : inv.Grantable alive h) (backend : Backend σ) (native : σ) (pinned : Bool)
    (named : Nat) : (inv.take backend native me pinned h named).inventory.Owns owner cpu := by
  rw [take_inventory]
  exact howns.update fun hmem => absurd hmem (hgrant.not_mem_covered howns halive)

/-- Whoever reserves takes all that the handle stands for. -/
theorem owns_take {h : Handle} (hgrant : inv.Grantable alive h) (backend : Backend σ) (native : σ)
    (pinned : Bool) (named : Nat) (hcovers : h.Covers inv.layout cpu) :
    (inv.take backend native me pinned h named).inventory.Owns me cpu := by
  have hmem := mem_covered_of_covers hcovers
  obtain ⟨lock, hlock, -⟩ := available_iff.mp (hgrant.available cpu hmem)
  rw [take_inventory]
  exact owns_iff.mpr ⟨_, getElem?_update_of_mem hlock hmem, rfl⟩

/-- Giving up everything takes nothing from another thread that is alive. -/
theorem Owns.release (howns : inv.Owns owner cpu) (halive : alive owner = true)
    (hother : me ≠ owner) (backend : Backend σ) (native : σ) :
    (inv.release backend native alive me).inventory.Owns owner cpu := by
  obtain ⟨lock, hlock, howner⟩ := owns_iff.mp howns
  refine owns_iff.mpr ⟨lock, ?_, howner⟩
  rw [getElem?_release, hlock, Option.map_some, if_neg]
  simp [freedBy, howner, halive, Ne.symm hother]

/-- Giving up a CPU takes it from the caller and leaves every other CPU alone. -/
theorem Owns.releaseCpu (howns : inv.Owns owner cpu) {after : Inventory} {given : Int}
    (hafter : inv.releaseCpu me given = .ok after) (hother : ¬ (me = owner ∧ given = cpu)) :
    after.Owns owner cpu := by
  obtain ⟨hpos, hmine, rfl⟩ := releaseCpu_eq_ok_iff.mp hafter
  refine howns.update fun hmem => absurd ?_ hother
  obtain rfl := List.mem_singleton.mp hmem
  obtain rfl : me = owner := Option.some.inj (hmine.symm.trans howns)
  exact ⟨rfl, (Int.toNat_of_nonneg hpos).symm⟩

end Inventory

/-! ## One step -/

/-- What a step that answers with a handle has done: nothing, for no handle, or the caller has taken
what the handle stands for, all of which it could have. -/
theorem Step.granted {backend : Backend σ} {w next : World σ} {me : ThreadId} {request : Request}
    {h : Handle} (step : Step backend w (.call me request (.handle h)) next) :
    h = .none ∨ ∃ pinned named, w.roster.alive me = true ∧
      w.inventory.Grantable w.roster.alive h ∧ next.roster = w.roster ∧
      next.inventory = (w.inventory.take backend w.native me pinned h named).inventory := by
  obtain ⟨halive, hreply, rfl⟩ := step.of_call
  obtain ⟨pinned, hreserve⟩ := Inventory.reserve?_of_handle hreply.symm
  unfold World.afterCall
  unfold World.serve at hreply ⊢
  rcases Inventory.serve_reserve_cases hreserve with hnone | ⟨h', named, -, hgrant, htake⟩
  · rw [hnone] at hreply
    exact Or.inl (Reply.handle.inj hreply)
  · rw [htake] at hreply ⊢
    rw [Outcome.map_result, Inventory.take_result] at hreply
    obtain rfl := Reply.handle.inj hreply
    exact Or.inr ⟨pinned, named, halive, hgrant, rfl, rfl⟩

/-- No handle is given for a CPU whose owner is alive. -/
theorem Step.not_covers {backend : Backend σ} {w next : World σ} {me owner : ThreadId}
    {request : Request} {h : Handle} {cpu : Nat}
    (step : Step backend w (.call me request (.handle h)) next) (hholds : w.Holds owner cpu) :
    ¬ h.Covers w.inventory.layout cpu := by
  rcases step.granted with rfl | ⟨_, _, -, hgrant, -, -⟩
  · exact id
  · intro hcovers
    exact hgrant.not_mem_covered hholds.2 hholds.1 (Inventory.mem_covered_of_covers hcovers)

/-- A step that does not give the CPU up leaves it with its owner. -/
theorem Step.holds {backend : Backend σ} {w next : World σ} {event : Event σ} {owner : ThreadId}
    {cpu : Nat} (step : Step backend w event next) (hevent : event.OfReservations)
    (hkept : ¬ event.GivesUp owner cpu) (hholds : w.Holds owner cpu) : next.Holds owner cpu := by
  obtain ⟨halive, howns⟩ := hholds
  cases step with
  | start name => exact ⟨Roster.alive_start halive name, howns⟩
  | finish thread =>
    have hother : owner ≠ thread := Ne.symm hkept
    refine ⟨?_, howns⟩
    rw [Roster.alive_finish, halive, Bool.true_and, bne_iff_ne]
    exact hother
  | drift native => exact ⟨halive, howns⟩
  | call me request hme =>
    refine ⟨halive, ?_⟩
    cases hreserve : request.reserve? with
    | some pinned =>
      unfold World.afterCall World.serve
      rcases Inventory.serve_reserve_cases hreserve with hnone | ⟨h, named, -, hgrant, htake⟩
      · rw [hnone]
        exact howns
      -- what is taken was available, so it is none of the CPUs of a live owner
      · rw [htake]
        exact howns.take halive hgrant ..
    | none =>
      cases request with
      | release => exact howns.release halive hkept backend w.native
      | releaseCpu given =>
        simp only [World.afterCall, World.serve, Inventory.serve] at hkept ⊢
        split at hkept
        · next after hafter => exact howns.releaseCpu hafter hkept
        · exact howns
      | acquire => cases hreserve
      | acquireCore => cases hreserve
      | bind => exact hevent.elim
      | bindWholeCore => exact hevent.elim
      | install => exact hevent.elim

/-- Reserving and releasing install no other layout. -/
theorem Event.OfReservations.keepsLayout {event : Event σ} (hevent : event.OfReservations) :
    event.KeepsLayout := by
  cases event with
  | call me request reply =>
    cases request with
    | install layout => exact hevent.elim
    | _ => rfl
  | _ => trivial

/-- Reserving and releasing leave the layout and the policy as they are. -/
theorem Step.sameMachine {backend : Backend σ} {w next : World σ} {event : Event σ}
    (step : Step backend w event next) (hevent : event.OfReservations) :
    next.inventory.layout = w.inventory.layout ∧ next.inventory.policy = w.inventory.policy :=
  have hrevises := step.revises hevent.keepsLayout
  ⟨hrevises.layout_eq, hrevises.policy_eq⟩

/-! ## Whole runs -/

/-- A run of reservations stays on its machine. -/
theorem Run.sameMachine {backend : Backend σ} {w last : World σ} {events : List (Event σ)}
    (run : Run backend w events last) (hevents : ∀ event ∈ events, event.OfReservations) :
    last.inventory.layout = w.inventory.layout ∧ last.inventory.policy = w.inventory.policy := by
  have hrevises := run.revises fun event hmem => (hevents event hmem).keepsLayout
  exact ⟨hrevises.layout_eq, hrevises.policy_eq⟩

/-- As long as nothing gives the CPU up, its owner keeps it and nobody reserves it. -/
theorem Run.holds {backend : Backend σ} {w last : World σ} {events : List (Event σ)}
    {owner : ThreadId} {cpu : Nat} (run : Run backend w events last)
    (hevents : ∀ event ∈ events, event.OfReservations)
    (hkept : ∀ event ∈ events, ¬ event.GivesUp owner cpu) (hholds : w.Holds owner cpu) :
    last.Holds owner cpu ∧ ∀ me request h, .call me request (.handle h) ∈ events →
      ¬ h.Covers w.inventory.layout cpu := by
  -- induction on the run: the CPU is held before every step, so no step can grant it
  induction run with
  | nil =>
    refine ⟨hholds, ?_⟩
    intro _ _ _ hmem
    cases hmem
  | @cons w next last event events step _ ih =>
    have hevent := hevents event List.mem_cons_self
    obtain ⟨hlast, hrest⟩ := ih (fun e he => hevents e (List.mem_cons_of_mem _ he))
      (fun e he => hkept e (List.mem_cons_of_mem _ he))
      (step.holds hevent (hkept event List.mem_cons_self) hholds)
    refine ⟨hlast, fun me request h hmem => ?_⟩
    rcases List.mem_cons.mp hmem with rfl | hlater
    · exact step.not_covers hholds
    · rw [← (step.sameMachine hevent).1]
      exact hrest me request h hlater

/-- A reservation is for reservable CPUs only, and one of a single CPU is never for CPU 0. What it
covers belongs to its thread, exclusively, until that thread ends or gives it up. -/
theorem reservation_exclusive {backend : Backend σ} {layout : Layout} {policy : Policy}
    {native : σ} {roster : Roster} {past later : List (Event σ)} {owner : ThreadId}
    {request : Request} {h : Handle} {last : World σ}
    (run : Run backend (World.initial layout policy native roster)
      (past ++ .call owner request (.handle h) :: later) last)
    (hevents : ∀ event ∈ past ++ .call owner request (.handle h) :: later,
      event.OfReservations) :
    (∀ cpu, h.Covers layout cpu → policy.isReservable cpu = true) ∧
      (∀ bind strategies ids, request = .acquire bind strategies ids → h.cpu? ≠ some 0) ∧
      ∀ cpu, h.Covers layout cpu → (∀ event ∈ later, ¬ event.GivesUp owner cpu) →
        last.inventory.Owns owner cpu ∧
          ∀ other request' h', .call other request' (.handle h') ∈ later →
            ¬ h'.Covers layout cpu := by
  -- the run is cut at the reservation: before it the table stays well-formed, after it the CPU
  -- is held
  obtain ⟨mid, hpast, hrest⟩ := run.split
  have hbefore : ∀ event ∈ past, event.OfReservations :=
    fun event hmem => hevents event (List.mem_append_left _ hmem)
  have hthen : ∀ event ∈ Event.call owner request (.handle h) :: later, event.OfReservations :=
    fun event hmem => hevents event (List.mem_append_right _ hmem)
  obtain ⟨hlayout, hpolicy⟩ := hpast.sameMachine hbefore
  replace hlayout : mid.inventory.layout = layout := hlayout
  replace hpolicy : mid.inventory.policy = policy := hpolicy
  subst hlayout hpolicy
  cases hrest with
  | @cons _ next _ _ _ step hlater =>
    refine ⟨?_, ?_, ?_⟩
    · intro cpu hcovers
      rcases step.granted with rfl | ⟨_, _, -, hgrant, -, -⟩
      · exact hcovers.elim
      · exact hgrant.reservable hpast.wellFormed (Inventory.mem_covered_of_covers hcovers)
    · rintro bind strategies ids rfl
      obtain ⟨-, hreply, -⟩ := step.of_call
      obtain rfl : h = _ := Reply.handle.inj hreply
      exact mid.inventory.acquire_ne_zero backend mid.native mid.roster.alive owner bind strategies
        ids
    · intro cpu hcovers hkept
      have hholds : next.Holds owner cpu := by
        rcases step.granted with rfl | ⟨pinned, named, halive, hgrant, hroster, hinventory⟩
        · exact hcovers.elim
        · refine ⟨hroster ▸ halive, ?_⟩
          rw [hinventory]
          exact Inventory.owns_take hgrant backend mid.native pinned named hcovers
      obtain ⟨hlast, hothers⟩ := hlater.holds
        (fun event hmem => hthen event (List.mem_cons_of_mem _ hmem)) hkept hholds
      rw [(step.sameMachine (hthen _ List.mem_cons_self)).1] at hothers
      exact ⟨hlast.2, hothers⟩

/-- Once the first thread has reserved core 1: the second gets CPU 2 alone, the first gives up
CPU 1, the second gets that too, and gives up both. -/
def sharedCoreHistory : List (Event Simulated) :=
  [.call ⟨2⟩ (.acquireCore false [] []) (.handle (.cpu 2)),
    .call ⟨1⟩ (.releaseCpu 1) (.released (.ok ())),
    .call ⟨2⟩ (.acquire false [] []) (.handle (.cpu 1)),
    .call ⟨2⟩ .release .done]

/-- The first thread has CPU 3 all the while. -/
theorem reservation_exclusive_shared_core :
    ∃ last, Run Simulated.backend World.small
        ([] ++ .call ⟨1⟩ (.acquireCore true [] []) (.handle (.wholeCore 1)) :: sharedCoreHistory)
        last ∧
      (∀ event ∈ sharedCoreHistory, ¬ event.GivesUp ⟨1⟩ 3) ∧ last.inventory.Owns ⟨1⟩ 3 := by
  have hrun : ∃ last, Run Simulated.backend World.small
      ([] ++ .call ⟨1⟩ (.acquireCore true [] []) (.handle (.wholeCore 1)) :: sharedCoreHistory)
      last := by
    refine ⟨_, .cons (.of_reply rfl ?_) (.cons (.of_reply rfl ?_) (.cons (.of_reply rfl ?_)
      (.cons (.of_reply rfl ?_) (.cons (.of_reply rfl ?_) (.nil _)))))⟩ <;> cbv
  have hkept : ∀ event ∈ sharedCoreHistory, ¬ event.GivesUp ⟨1⟩ 3 := by
    simp [sharedCoreHistory, Event.GivesUp]
  obtain ⟨last, run⟩ := hrun
  have hexclusive := reservation_exclusive run (by simp [sharedCoreHistory, Event.OfReservations])
  exact ⟨last, run, hkept, (hexclusive.2.2 3 ⟨1, rfl, rfl⟩ hkept).1⟩

end CpuPlacement
