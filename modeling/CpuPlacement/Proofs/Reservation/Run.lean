import CpuPlacement.Layout.Grid
import CpuPlacement.Native.Simulated
import CpuPlacement.Proofs.Reservation.Handover
import CpuPlacement.Proofs.Roster

/-!
# Runs of an inventory

Threads share an inventory, and every operation on it is one step. A run is a sequence of such steps
in any order: threads start and end, threads that are alive ask for something and are answered, and
the native state may change by other means in between. What a thread asks and what it is told is
written into the event, so a run is also the history that an observer sees.

The native calls are those of an arbitrary backend over an arbitrary state, and the native state may
drift to any other between two steps, so nothing is assumed of which calls succeed. Ids of threads
come from the roster, which never gives an id again.

`Run.wellFormed` is the invariant that every run keeps.
-/

set_option autoImplicit false

namespace CpuPlacement

variable {σ : Type}

/-! ## Requests and replies -/

/-- What a thread asks of an inventory. -/
inductive Request where
  | acquire (bind : Bool) (strategies : List Strategy) (ids : List Int)
  | acquireCore (bind : Bool) (strategies : List Strategy) (ids : List Int)
  | bind (h : Handle)
  | bindWholeCore (cpu : Int)
  | release
  | releaseCpu (cpu : Int)
  | install (layout : Layout)

/-- What the thread is told. -/
inductive Reply where
  | handle (h : Handle)
  | bound (success : Bool)
  | released (answer : Except ReleaseError Unit)
  | done

namespace Request

/-- A request to reserve, and whether the caller is to be pinned to what it gets. -/
def reserve? : Request → Option Bool
  | acquire pinned _ _ => some pinned
  | acquireCore pinned _ _ => some pinned
  | _ => none

/-- The request puts another layout in the place of the one that there is. -/
def replacesLayout : Request → Bool
  | install _ => true
  | _ => false

end Request

namespace Outcome

variable {α β : Type}

/-- The outcome with its result shown in another way. -/
def map (f : α → β) (o : Outcome σ α) : Outcome σ β :=
  ⟨f o.result, o.inventory, o.native, o.call⟩

@[simp] theorem map_result (f : α → β) (o : Outcome σ α) : (o.map f).result = f o.result := rfl

@[simp] theorem map_inventory (f : α → β) (o : Outcome σ α) :
    (o.map f).inventory = o.inventory := rfl

@[simp] theorem map_pinned (f : α → β) (o : Outcome σ α) : (o.map f).pinned = o.pinned := rfl

end Outcome

/-- What an inventory does with a request. -/
def Inventory.serve (inv : Inventory) (backend : Backend σ) (native : σ)
    (alive : ThreadId → Bool) (me : ThreadId) : Request → Outcome σ Reply
  | .acquire bind strategies ids =>
    (inv.acquire backend native alive me bind strategies ids).map .handle
  | .acquireCore bind strategies ids =>
    (inv.acquireCore backend native alive me bind strategies ids).map .handle
  | .bind h => (inv.bind backend native alive me h).map .bound
  | .bindWholeCore cpu => ⟨.done, inv.bindWholeCore alive me cpu, native, none⟩
  | .release => (inv.release backend native alive me).map fun _ => .done
  | .releaseCpu cpu =>
    match inv.releaseCpu me cpu with
    | .ok after => ⟨.released (.ok ()), after, native, none⟩
    | .error refusal => ⟨.released (.error refusal), inv, native, none⟩
  | .install layout => ⟨.done, inv.install layout, native, none⟩

namespace Inventory

/-- A request to reserve is answered with no handle and changes nothing, or the caller takes what a
handle stands for, all of which it could have. -/
theorem serve_reserve_cases {inv : Inventory} {backend : Backend σ} {native : σ}
    {alive : ThreadId → Bool} {me : ThreadId} {request : Request} {pinned : Bool}
    (hreserve : request.reserve? = some pinned) :
    inv.serve backend native alive me request = ⟨.handle .none, inv, native, none⟩ ∨
      ∃ h cpu, h.cpu? = some cpu ∧ inv.Grantable alive h ∧
        inv.serve backend native alive me request =
          (inv.take backend native me pinned h cpu).map .handle := by
  have one (strategies : List Strategy) (ids : List Int) :
      (inv.acquire backend native alive me pinned strategies ids).map Reply.handle =
          ⟨.handle .none, inv, native, none⟩ ∨
        ∃ h cpu, h.cpu? = some cpu ∧ inv.Grantable alive h ∧
          (inv.acquire backend native alive me pinned strategies ids).map Reply.handle =
            (inv.take backend native me pinned h cpu).map .handle := by
    rcases inv.acquire_cases backend native alive me pinned strategies ids with
      hnone | ⟨cpu, -, hgrant, htake⟩
    · exact Or.inl (congrArg (Outcome.map Reply.handle) hnone)
    · exact Or.inr ⟨.cpu cpu, cpu, rfl, hgrant, congrArg (Outcome.map Reply.handle) htake⟩
  cases request with
  | acquire bind strategies ids =>
    obtain rfl := Option.some.inj hreserve
    exact one strategies ids
  | acquireCore bind strategies ids =>
    obtain rfl := Option.some.inj hreserve
    rcases inv.acquireCore_cases backend native alive me bind strategies ids with
      ⟨first, hgrant, htake⟩ | hone
    · exact Or.inr ⟨.wholeCore first, first, rfl, hgrant, congrArg (Outcome.map Reply.handle) htake⟩
    -- no core was eligible, and the request was answered with one CPU
    · simp only [serve, hone]
      exact one strategies ids
  | _ => cases hreserve

/-- Only requests to reserve are answered with a handle. -/
theorem reserve?_of_handle {inv : Inventory} {backend : Backend σ} {native : σ}
    {alive : ThreadId → Bool} {me : ThreadId} {request : Request} {h : Handle}
    (hreply : (inv.serve backend native alive me request).result = .handle h) :
    ∃ pinned, request.reserve? = some pinned := by
  cases request with
  | acquire bind strategies ids => exact ⟨bind, rfl⟩
  | acquireCore bind strategies ids => exact ⟨bind, rfl⟩
  | releaseCpu cpu =>
    simp only [serve] at hreply
    split at hreply <;> cases hreply
  | _ => cases hreply

end Inventory

/-! ## Steps and runs -/

/-- An inventory, the native state and the threads. -/
structure World (σ : Type) where
  inventory : Inventory
  native : σ
  roster : Roster

/-- What happens in one step. -/
inductive Event (σ : Type) where
  /-- A thread starts. -/
  | start (name : Option String)
  /-- A thread ends. -/
  | finish (thread : ThreadId)
  /-- A thread asks for something and is answered. -/
  | call (thread : ThreadId) (request : Request) (reply : Reply)
  /-- The native state changes by other means. -/
  | drift (native : σ)

namespace World

/-- What the request of a thread comes to. -/
def serve (w : World σ) (backend : Backend σ) (me : ThreadId) (request : Request) :
    Outcome σ Reply :=
  w.inventory.serve backend w.native w.roster.alive me request

/-- The world that a request of a thread leaves behind. -/
def afterCall (w : World σ) (backend : Backend σ) (me : ThreadId) (request : Request) : World σ :=
  { w with
    inventory := (w.serve backend me request).inventory
    native := (w.serve backend me request).native }

/-- The world at the start: nothing is reserved. -/
def initial (layout : Layout) (policy : Policy) (native : σ) (roster : Roster) : World σ :=
  ⟨Inventory.new layout policy, native, roster⟩

end World

/-- One step. Only a thread that is alive asks for something. -/
inductive Step (backend : Backend σ) : World σ → Event σ → World σ → Prop where
  | start (w : World σ) (name : Option String) :
    Step backend w (.start name) { w with roster := (w.roster.start name).2 }
  | finish (w : World σ) (thread : ThreadId) :
    Step backend w (.finish thread) { w with roster := w.roster.finish thread }
  | call (w : World σ) (me : ThreadId) (request : Request) (halive : w.roster.alive me = true) :
    Step backend w (.call me request (w.serve backend me request).result)
      (w.afterCall backend me request)
  | drift (w : World σ) (native : σ) : Step backend w (.drift native) { w with native }

/-- A request of a thread that is alive, with the answer that it comes to, is a step. -/
theorem Step.of_reply {backend : Backend σ} {w : World σ} {me : ThreadId} {request : Request}
    {reply : Reply} (halive : w.roster.alive me = true)
    (hreply : (w.serve backend me request).result = reply) :
    Step backend w (.call me request reply) (w.afterCall backend me request) :=
  hreply ▸ .call w me request halive

/-- A step in which a thread asks for something: the thread is alive, and what it is told and what
is left behind are those of its request. -/
theorem Step.of_call {backend : Backend σ} {w next : World σ} {me : ThreadId} {request : Request}
    {reply : Reply} (step : Step backend w (.call me request reply) next) :
    w.roster.alive me = true ∧ reply = (w.serve backend me request).result ∧
      next = w.afterCall backend me request := by
  cases step with
  | call _ _ halive => exact ⟨halive, rfl, rfl⟩

/-- Steps one after the other, with their events in order. -/
inductive Run (backend : Backend σ) : World σ → List (Event σ) → World σ → Prop where
  | nil (w : World σ) : Run backend w [] w
  | cons {w next last : World σ} {event : Event σ} {events : List (Event σ)} :
    Step backend w event next → Run backend next events last → Run backend w (event :: events) last

/-- A run of two stretches passes through a world between them. -/
theorem Run.split {backend : Backend σ} {w last : World σ} {past later : List (Event σ)}
    (run : Run backend w (past ++ later) last) :
    ∃ mid, Run backend w past mid ∧ Run backend mid later last := by
  induction past generalizing w with
  | nil => exact ⟨w, .nil w, run⟩
  | cons event past ih =>
    cases run with
    | cons step rest =>
      obtain ⟨mid, hpast, hlater⟩ := ih rest
      exact ⟨mid, .cons step hpast, hlater⟩

/-- What every step keeps, under a condition on its event, a run of such events keeps. -/
theorem Run.keeps {backend : Backend σ} {w last : World σ} {events : List (Event σ)}
    (run : Run backend w events last) (allowed : Event σ → Prop) (P : World σ → Prop)
    (hstep : ∀ {w event next}, Step backend w event next → allowed event → P w → P next)
    (hallowed : ∀ event ∈ events, allowed event) (hw : P w) : P last := by
  induction run with
  | nil => exact hw
  | cons step _ ih =>
    refine ih (fun event hmem => hallowed event (List.mem_cons_of_mem _ hmem)) ?_
    exact hstep step (hallowed _ List.mem_cons_self) hw

/-- A small world to run on: one socket with two cores of two CPUs each, of which core 0 has CPUs 0
and 2 and core 1 has CPUs 1 and 3, all of them but CPU 0 reservable; two threads; and a simulated
machine for the native calls. -/
def World.small : World Simulated :=
  let layout := (Layout.partsOfDescriptors (Layout.gridDescriptors 1 2 2) none none).layout
  initial layout ⟨Mask.full 4, Mask.ofIndices 4 [1, 2, 3]⟩ (Simulated.forLayout layout)
    ⟨[⟨none, true⟩, ⟨none, true⟩]⟩

/-! ## The invariant of every run -/

namespace Inventory

/-- Every request but for another layout changes owners and marks only. -/
theorem revises_serve (inv : Inventory) (backend : Backend σ) (native : σ)
    (alive : ThreadId → Bool) (me : ThreadId) {request : Request}
    (hlayout : request.replacesLayout = false) :
    inv.Revises (inv.serve backend native alive me request).inventory := by
  cases request with
  | acquire bind strategies ids => exact revises_acquire ..
  | acquireCore bind strategies ids => exact revises_acquireCore ..
  | bind h => exact revises_bind ..
  | bindWholeCore cpu => exact revises_bindWholeCore ..
  | release => exact inv.revises_release backend native alive me
  | releaseCpu cpu =>
    simp only [serve]
    split
    · next after hafter => exact revises_releaseCpu hafter
    · exact Revises.refl inv
  | install layout => cases hlayout

/-- Every request keeps the invariant. -/
theorem WellFormed.serve {inv : Inventory} (h : inv.WellFormed) (backend : Backend σ) (native : σ)
    (alive : ThreadId → Bool) (me : ThreadId) (request : Request) :
    (inv.serve backend native alive me request).inventory.WellFormed := by
  cases hlayout : request.replacesLayout with
  | false => exact (inv.revises_serve backend native alive me hlayout).wellFormed h
  | true =>
    cases request with
    | install layout =>
      simp only [Inventory.serve, install]
      split
      · exact h
      · exact WellFormed.new layout inv.policy
    | _ => cases hlayout

end Inventory

/-- No other layout is installed. -/
def Event.KeepsLayout : Event σ → Prop
  | .call _ request _ => request.replacesLayout = false
  | _ => True

/-- A step that installs no layout changes owners and marks only. -/
theorem Step.revises {backend : Backend σ} {w next : World σ} {event : Event σ}
    (step : Step backend w event next) (hevent : event.KeepsLayout) :
    w.inventory.Revises next.inventory := by
  cases step with
  | call me request halive =>
    exact w.inventory.revises_serve backend w.native w.roster.alive me hevent
  | _ => exact .refl w.inventory

/-- So does a run of such steps. -/
theorem Run.revises {backend : Backend σ} {w last : World σ} {events : List (Event σ)}
    (run : Run backend w events last) (hevents : ∀ event ∈ events, event.KeepsLayout) :
    w.inventory.Revises last.inventory :=
  run.keeps Event.KeepsLayout (fun w' => w.inventory.Revises w'.inventory)
    (fun step hevent hrevises => hrevises.trans (step.revises hevent)) hevents (.refl w.inventory)

/-- Every step keeps the invariant. -/
theorem Step.wellFormed {backend : Backend σ} {w next : World σ} {event : Event σ}
    (step : Step backend w event next) (h : w.inventory.WellFormed) :
    next.inventory.WellFormed := by
  cases step with
  | start name => exact h
  | finish thread => exact h
  | call me request halive => exact h.serve backend w.native w.roster.alive me request
  | drift native => exact h

/-- A run from a well-formed inventory leads to a well-formed one. -/
theorem Run.wellFormed_of {backend : Backend σ} {w last : World σ} {events : List (Event σ)}
    (run : Run backend w events last) (h : w.inventory.WellFormed) : last.inventory.WellFormed :=
  run.keeps (fun _ => True) (fun w => w.inventory.WellFormed) (fun step _ => step.wellFormed)
    (fun _ _ => trivial) h

/-- Every inventory that a run reaches is well formed. -/
theorem Run.wellFormed {backend : Backend σ} {layout : Layout} {policy : Policy} {native : σ}
    {roster : Roster} {events : List (Event σ)} {w : World σ}
    (run : Run backend (World.initial layout policy native roster) events w) :
    w.inventory.WellFormed :=
  run.wellFormed_of (Inventory.WellFormed.new layout policy)

end CpuPlacement
