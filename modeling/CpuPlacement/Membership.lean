import CpuPlacement.Layout.Location
import CpuPlacement.Native.Backend

/-!
# Membership

A thread may be bound to an entity, that is, restricted to its CPUs; it then is a member of the
entity. Each entity has its own list of members, in the order in which they joined. Members that
have ended are dropped when the list is next looked at.

A manager binds threads to the entities of one layout. It takes a thread out of every other entity
of that layout when it joins one, so a thread is a member of at most one of them. Joining follows
the native call: where the call is refused nothing changes. Binding to an entity of a stated kind
looks afterwards whether the thread really runs there; the membership stands either way.
-/

set_option autoImplicit false

namespace CpuPlacement

/-- The members of every entity. -/
structure Registry where
  members : EntityRef → List ThreadId := fun _ => []

namespace Registry

/-- Changes the list of members of some entities. -/
def update (r : Registry) (touches : EntityRef → Bool) (change : List ThreadId → List ThreadId) :
    Registry :=
  ⟨fun ref => if touches ref then change (r.members ref) else r.members ref⟩

/-- A thread joins an entity, at the end of the list unless it is in it. -/
def join (r : Registry) (ref : EntityRef) (thread : ThreadId) : Registry :=
  r.update (· == ref) fun members =>
    if members.contains thread then members else members ++ [thread]

/-- A thread leaves an entity. -/
def leave (r : Registry) (ref : EntityRef) (thread : ThreadId) : Registry :=
  r.update (· == ref) fun members => members.filter (· != thread)

/-- The members of an entity that are alive. -/
def live (r : Registry) (alive : ThreadId → Bool) (ref : EntityRef) : List ThreadId :=
  (r.members ref).filter alive

/-- Drops the members that have ended, of some entities. -/
def reap (r : Registry) (alive : ThreadId → Bool) (touches : EntityRef → Bool) : Registry :=
  r.update touches fun members => members.filter alive

/-- The members of an entity that are alive; the others are dropped. -/
def threads (r : Registry) (alive : ThreadId → Bool) (ref : EntityRef) :
    List ThreadId × Registry :=
  (r.live alive ref, r.reap alive (· == ref))

end Registry

/-- Binds threads to the entities of one layout, which has a number among the layouts in use. -/
structure Manager where
  layout : Layout
  number : Nat

/-- What binding a thread leaves behind. -/
structure Binding (σ α : Type) where
  result : α
  registry : Registry
  native : σ

namespace Manager

variable {σ : Type}

/-- The entity is one of the manager's layout, and another than the given one: of another kind or
with another id. -/
def isOther (m : Manager) (current : Entity) (ref : EntityRef) : Bool :=
  ref.layout == m.number && !(ref.kind == current.kind && ref.id == current.id)

/-- Takes a thread out of every entity of the layout but one. -/
def leaveOthers (m : Manager) (r : Registry) (current : Entity) (thread : ThreadId) : Registry :=
  r.update (m.isOther current) fun members => members.filter (· != thread)

/-- The entities of the layout that a thread is a member of; members that have ended are dropped. -/
def boundTo (m : Manager) (r : Registry) (alive : ThreadId → Bool) (thread : ThreadId) :
    List Entity × Registry :=
  (m.layout.entities.filter fun e => (r.live alive (e.ref m.number)).contains thread,
    r.reap alive (·.layout == m.number))

/-- Binds the caller to an entity, which may be of another layout. -/
def bind (m : Manager) (backend : Backend σ) (native : σ) (r : Registry) (me : ThreadId)
    (home : Nat) (e : Entity) : Binding σ Bool :=
  match backend.apply native me e.mask with
  | (.ok (), native) => ⟨true, m.leaveOthers (r.join (e.ref home) me) e me, native⟩
  | (.error _, native) => ⟨false, r, native⟩

/-- A thread on the CPU is where the entity is. Several caches may hold one CPU, so of a cache only
its mask is asked. -/
def landed (m : Manager) (e : Entity) (cpu : Nat) : Except Fault Bool :=
  match e.kind with
  | .cache => m.layout.maskContains? e.mask cpu
  | kind => .ok ((m.layout.entityForCpu? kind cpu).any (·.sameEntity e))

/-- Binds the caller to an entity of a stated kind and looks whether it runs there. -/
def bindAs (m : Manager) (backend : Backend σ) (native : σ) (r : Registry) (me : ThreadId)
    (kind : EntityKind) (home : Nat) (e : Entity) : Binding σ (Except Fault Bool) :=
  if e.kind != kind then ⟨.ok false, r, native⟩
  else
    let bound := m.bind backend native r me home e
    let cpu := backend.currentCpu bound.native me
    let result := if bound.result && 0 ≤ cpu then m.landed e cpu.toNat else .ok false
    { bound with result }

/-- Binds the caller to an entity of the layout, known by its kind and id. -/
def bindTo (m : Manager) (backend : Backend σ) (native : σ) (r : Registry) (me : ThreadId)
    (kind : EntityKind) (id : Nat) : Binding σ (Except Fault Bool) :=
  match m.layout.entity? kind id with
  | some e => m.bindAs backend native r me kind m.number e
  | none => ⟨.ok false, r, native⟩

end Manager

end CpuPlacement
