import CpuPlacement.Membership
import CpuPlacement.Proofs.Roster

/-!
# Runs of a manager

Threads share a manager and the registry of its entities, and every operation is one step. A run is
a sequence of such steps in any order: threads start and end, threads that are alive ask for
something, and the native state may change by other means in between. The backend is arbitrary, so
nothing is assumed of which native calls succeed or of where a thread is said to run.

Only a native call that succeeds makes a thread a member of anything. The event of a request names
the entity that such a call was made for (`Manager.granted?`), whatever the request was answered; so
the events of a run tell which entity a thread was last restricted to (`Manager.latest`).
-/

set_option autoImplicit false

namespace CpuPlacement

variable {σ : Type}

/-- The binding with its result shown in another way. -/
def Binding.map {α β : Type} (f : α → β) (b : Binding σ α) : Binding σ β :=
  ⟨f b.result, b.registry, b.native⟩

namespace Manager

/-! ## Requests and replies -/

/-- What a thread asks of a manager. The entities are those of the manager's layout. -/
inductive Request where
  | bind (e : Entity)
  | bindAs (kind : EntityKind) (e : Entity)
  | bindTo (kind : EntityKind) (id : Nat)
  | threads (e : Entity)
  | hasThread (e : Entity) (thread : ThreadId)
  | boundTo (thread : ThreadId)

/-- What the thread is told. -/
inductive Reply where
  | bound (answer : Except Fault Bool)
  | threads (members : List ThreadId)
  | hasThread (answer : Bool)
  | boundTo (entities : List Entity)

namespace Request

/-- The caller asks to be bound to something. -/
def binds : Request → Bool
  | bind _ => true
  | bindAs _ _ => true
  | bindTo _ _ => true
  | _ => false

/-- The entities that the request is about are those of the layout. -/
def Within (l : Layout) : Request → Prop
  | bind e => e ∈ l.entities
  | bindAs _ e => e ∈ l.entities
  | threads e => e ∈ l.entities
  | hasThread e _ => e ∈ l.entities
  | _ => True

/-- The entity that the native call is made for. There is none where the id is out of range or the
entity is of another kind. -/
def target? (l : Layout) : Request → Option Entity
  | bind e => some e
  | bindAs kind e => if e.kind = kind then some e else none
  | bindTo kind id => (l.entity? kind id).filter (·.kind = kind)
  | _ => none

/-- The target of a request within a layout is an entity of that layout. -/
theorem mem_entities_of_target? {l : Layout} {request : Request} (hwithin : request.Within l)
    {e : Entity} (htarget : request.target? l = some e) : e ∈ l.entities := by
  cases request with
  | bind other => exact Option.some.inj htarget ▸ hwithin
  | bindAs kind other =>
    simp only [target?, Option.ite_none_right_eq_some, Option.some.injEq] at htarget
    exact htarget.2 ▸ hwithin
  | bindTo kind id =>
    obtain ⟨hentity, -⟩ := Option.filter_eq_some_iff.mp htarget
    refine List.mem_flatMap.mpr ⟨kind, ?_, List.mem_of_getElem? hentity⟩
    cases kind <;> decide
  | _ => cases htarget

end Request

/-- What a manager does with a request. -/
def serve (m : Manager) (backend : Backend σ) (native : σ) (r : Registry)
    (alive : ThreadId → Bool) (me : ThreadId) : Request → Binding σ Reply
  | .bind e => (m.bind backend native r me m.number e).map fun done => .bound (.ok done)
  | .bindAs kind e => (m.bindAs backend native r me kind m.number e).map .bound
  | .bindTo kind id => (m.bindTo backend native r me kind id).map .bound
  | .threads e =>
    let (members, after) := r.threads alive (e.ref m.number)
    ⟨.threads members, after, native⟩
  | .hasThread e thread =>
    let (members, after) := r.threads alive (e.ref m.number)
    ⟨.hasThread (members.contains thread), after, native⟩
  | .boundTo thread =>
    let (entities, after) := m.boundTo r alive thread
    ⟨.boundTo entities, after, native⟩

/-- The entity that the native call was made for, if the call succeeded. -/
def granted? (m : Manager) (backend : Backend σ) (native : σ) (me : ThreadId)
    (request : Request) : Option Entity :=
  (request.target? m.layout).filter fun e => (backend.apply native me e.mask).1.isOk

/-! ## What a request comes to -/

section Serve

variable {m : Manager} {backend : Backend σ} {native : σ} {r : Registry} {alive : ThreadId → Bool}
  {me : ThreadId} {e : Entity}

/-- Where the native call succeeds, the caller joins the entity and leaves all others. -/
theorem bind_of_ok {home : Nat} (hok : (backend.apply native me e.mask).1.isOk = true) :
    m.bind backend native r me home e =
      ⟨true, m.leaveOthers (r.join (e.ref home) me) e me, (backend.apply native me e.mask).2⟩ := by
  rw [bind]
  cases happly : backend.apply native me e.mask with
  | mk answer after =>
    cases answer with
    | error refusal =>
      rw [happly] at hok
      cases hok
    | ok => rfl

/-- Where the native call fails, the registry stays as it is. -/
theorem bind_of_error {home : Nat} (herror : (backend.apply native me e.mask).1.isOk = false) :
    m.bind backend native r me home e = ⟨false, r, (backend.apply native me e.mask).2⟩ := by
  rw [bind]
  cases happly : backend.apply native me e.mask with
  | mk answer after =>
    cases answer with
    | error refusal => rfl
    | ok =>
      rw [happly] at herror
      cases herror

/-- Verifying where the caller runs changes neither the registry nor the native state. -/
theorem bindAs_of_kind {kind : EntityKind} {home : Nat} (hkind : e.kind = kind) :
    (m.bindAs backend native r me kind home e).registry =
        (m.bind backend native r me home e).registry ∧
      (m.bindAs backend native r me kind home e).native =
        (m.bind backend native r me home e).native := by
  have hsame : ¬ (e.kind != kind) = true := by simp [hkind]
  rw [bindAs, if_neg hsame]
  exact ⟨rfl, rfl⟩

/-- A request whose native call is made for an entity and succeeds makes the caller a member of that
entity and takes it out of the others. -/
theorem serve_of_granted {request : Request}
    (hgranted : m.granted? backend native me request = some e) :
    (m.serve backend native r alive me request).registry =
      m.leaveOthers (r.join (e.ref m.number) me) e me := by
  obtain ⟨htarget, hok⟩ := Option.filter_eq_some_iff.mp hgranted
  cases request with
  | bind other =>
    obtain rfl := Option.some.inj htarget
    exact congrArg Binding.registry (bind_of_ok hok)
  | bindAs kind other =>
    simp only [Request.target?, Option.ite_none_right_eq_some, Option.some.injEq] at htarget
    obtain ⟨hkind, rfl⟩ := htarget
    exact (bindAs_of_kind hkind).1.trans (congrArg Binding.registry (bind_of_ok hok))
  | bindTo kind id =>
    obtain ⟨hentity, hkind⟩ := Option.filter_eq_some_iff.mp htarget
    simp only [serve, Binding.map, bindTo, hentity]
    exact (bindAs_of_kind (of_decide_eq_true hkind)).1.trans
      (congrArg Binding.registry (bind_of_ok hok))
  | _ => cases htarget

/-- A request to be bound whose native call fails, or is not even made, is answered with `false` and
changes no membership. -/
theorem serve_of_not_granted {request : Request} (hbinds : request.binds = true)
    (hgranted : m.granted? backend native me request = none) :
    (m.serve backend native r alive me request).result = .bound (.ok false) ∧
      (m.serve backend native r alive me request).registry = r := by
  -- a refusal of the kind and one of the machine look alike from outside
  have refused {kind : EntityKind} {other : Entity}
      (hnone : (if other.kind = kind then some other else none).filter
        (fun e => (backend.apply native me e.mask).1.isOk) = none) :
      (m.bindAs backend native r me kind m.number other).result = .ok false ∧
        (m.bindAs backend native r me kind m.number other).registry = r := by
    by_cases hkind : other.kind = kind
    · rw [if_pos hkind, Option.filter_eq_none_iff] at hnone
      have herror := Bool.eq_false_iff.mpr (hnone other rfl)
      refine ⟨?_, (bindAs_of_kind hkind).1.trans (congrArg Binding.registry (bind_of_error herror))⟩
      simp [bindAs, hkind, bind_of_error herror]
    · simp [bindAs, hkind]
  cases request with
  | bind other =>
    have herror := Bool.eq_false_iff.mpr (Option.filter_eq_none_iff.mp hgranted other rfl)
    simp [serve, Binding.map, bind_of_error herror]
  | bindAs kind other =>
    obtain ⟨hresult, hregistry⟩ := refused hgranted
    exact ⟨congrArg Reply.bound hresult, hregistry⟩
  | bindTo kind id =>
    simp only [serve, Binding.map, bindTo]
    cases hentity : m.layout.entity? kind id with
    | none => exact ⟨rfl, rfl⟩
    | some other =>
      simp only [granted?, Request.target?, hentity, Option.filter_some,
        decide_eq_true_eq] at hgranted
      obtain ⟨hresult, hregistry⟩ := refused hgranted
      exact ⟨congrArg Reply.bound hresult, hregistry⟩
  | _ => cases hbinds

/-- Whatever else is asked only drops members that have ended. -/
theorem serve_of_not_granted_cases {request : Request}
    (hgranted : m.granted? backend native me request = none) :
    (m.serve backend native r alive me request).registry = r ∨
      ∃ touches, (m.serve backend native r alive me request).registry = r.reap alive touches := by
  cases request with
  | threads e => exact .inr ⟨_, rfl⟩
  | hasThread e thread => exact .inr ⟨_, rfl⟩
  | boundTo thread => exact .inr ⟨_, rfl⟩
  | _ => exact .inl (serve_of_not_granted rfl hgranted).2

end Serve

/-! ## Steps and runs -/

/-- The registry, the native state and the threads. -/
structure World (σ : Type) where
  registry : Registry
  native : σ
  roster : Roster

/-- What happens in one step. -/
inductive Event (σ : Type) where
  /-- A thread starts. -/
  | start (name : Option String)
  /-- A thread ends. -/
  | finish (thread : ThreadId)
  /-- A thread asks for something and is answered; the native call may have been granted. -/
  | call (thread : ThreadId) (request : Request) (reply : Reply) (granted : Option Entity)
  /-- The native state changes by other means. -/
  | drift (native : σ)

namespace World

/-- What the request of a thread comes to. -/
def serve (w : World σ) (m : Manager) (backend : Backend σ) (me : ThreadId) (request : Request) :
    Binding σ Reply :=
  m.serve backend w.native w.registry w.roster.alive me request

/-- The world that a request of a thread leaves behind. -/
def afterCall (w : World σ) (m : Manager) (backend : Backend σ) (me : ThreadId)
    (request : Request) : World σ :=
  { w with
    registry := (w.serve m backend me request).registry
    native := (w.serve m backend me request).native }

/-- The world at the start: no thread is a member of anything. -/
def initial (native : σ) (roster : Roster) : World σ :=
  ⟨{}, native, roster⟩

end World

/-- One step. Only a thread that is alive asks for something. -/
inductive Step (m : Manager) (backend : Backend σ) : World σ → Event σ → World σ → Prop where
  | start (w : World σ) (name : Option String) :
    Step m backend w (.start name) { w with roster := (w.roster.start name).2 }
  | finish (w : World σ) (thread : ThreadId) :
    Step m backend w (.finish thread) { w with roster := w.roster.finish thread }
  | call (w : World σ) (me : ThreadId) (request : Request) (halive : w.roster.alive me = true)
    (hwithin : request.Within m.layout) :
    Step m backend w (.call me request (w.serve m backend me request).result
      (m.granted? backend w.native me request)) (w.afterCall m backend me request)
  | drift (w : World σ) (native : σ) : Step m backend w (.drift native) { w with native }

/-- A request of a thread that is alive, with the answer that it comes to and the grant that it
gets, is a step. -/
theorem Step.of_reply {m : Manager} {backend : Backend σ} {w : World σ} {me : ThreadId}
    {request : Request} {reply : Reply} {granted : Option Entity}
    (halive : w.roster.alive me = true) (hwithin : request.Within m.layout)
    (hreply : (w.serve m backend me request).result = reply)
    (hgranted : m.granted? backend w.native me request = granted) :
    Step m backend w (.call me request reply granted) (w.afterCall m backend me request) :=
  hreply ▸ hgranted ▸ .call w me request halive hwithin

/-- Steps one after the other, with their events in order. -/
inductive Run (m : Manager) (backend : Backend σ) :
    World σ → List (Event σ) → World σ → Prop where
  | nil (w : World σ) : Run m backend w [] w
  | cons {w next last : World σ} {event : Event σ} {events : List (Event σ)} :
    Step m backend w event next → Run m backend next events last →
      Run m backend w (event :: events) last

/-! ## What the events tell -/

/-- The entity that an event restricts the thread to. -/
def Event.grants? (thread : ThreadId) : Event σ → Option Entity
  | .call me _ _ granted => if me = thread then granted else none
  | _ => none

/-- The entity that the thread was last restricted to by a native call. -/
def latest (thread : ThreadId) (events : List (Event σ)) : Option Entity :=
  (events.filterMap (·.grants? thread)).getLast?

/-- A grant replaces the ones before it. -/
theorem latest_concat (thread : ThreadId) (events : List (Event σ)) (event : Event σ) :
    latest thread (events ++ [event]) = (event.grants? thread).or (latest thread events) := by
  rw [latest, List.filterMap_append, List.getLast?_append]
  cases hgrant : event.grants? thread with
  | none => simp [hgrant, latest]
  | some e => simp [hgrant]

end Manager

end CpuPlacement
