import CpuPlacement.Cache
import CpuPlacement.Fault

/-!
# Entities

An entity is a piece of hardware that logical CPUs share: a processor group, a NUMA node, a socket,
a core or a cache. Within its layout it is known by its kind and its id, which is its position among
the entities of that kind. A socket knows its node and a core its socket, again by id.

`dumpCmp` is the order in which entities are listed: by mask in the order of listings, then by cache
level, then the smaller kind of hardware first, then by id.
-/

set_option autoImplicit false

namespace CpuPlacement

/-- The kinds of entities. -/
inductive EntityKind where
  | group
  | node
  | socket
  | core
  | cache
deriving DecidableEq, Repr

namespace EntityKind

def all : List EntityKind := [group, node, socket, core, cache]

/-- Smaller pieces of hardware rank lower. -/
def rank : EntityKind → Nat
  | core => 0
  | cache => 1
  | socket => 2
  | node => 3
  | group => 4

end EntityKind

/-- What an entity is, and the entity that it lies in. -/
inductive EntityRole where
  | group
  | node
  | socket (node : Option Nat)
  | core (socket : Nat)
  | cache (info : Cache)
deriving DecidableEq, Repr

/-- A piece of hardware that logical CPUs share. -/
structure Entity where
  id : Nat
  mask : Mask
  role : EntityRole
deriving DecidableEq, Repr

namespace Entity

def kind (e : Entity) : EntityKind :=
  match e.role with
  | .group => .group
  | .node => .node
  | .socket _ => .socket
  | .core _ => .core
  | .cache _ => .cache

/-- The socket of a core. -/
def socket? (e : Entity) : Option Nat :=
  match e.role with
  | .core socket => some socket
  | _ => none

/-- The node of a socket, where the machine reports nodes. -/
def node? (e : Entity) : Option Nat :=
  match e.role with
  | .socket node => node
  | _ => none

def cache? (e : Entity) : Option Cache :=
  match e.role with
  | .cache info => some info
  | _ => none

/-- The name of the kind; caches are named by level and kind. -/
def kindName (e : Entity) : String :=
  match e.role with
  | .group => "Group"
  | .node => "Node"
  | .socket _ => "Socket"
  | .core _ => "Core"
  | .cache info => info.name

/-- The name of the kind and the id: `Core#2`. -/
def label (e : Entity) : String :=
  s!"{e.kindName}#{e.id}"

/-- The label and the mask, the short form of an entity. -/
def summary (e : Entity) : String :=
  s!"{e.label} {e.mask.text}"

/-- The line of an entity in a listing; caches show their size. -/
def text (e : Entity) : String :=
  s!"{e.kindName}: {e.id} M: {e.mask.text}" ++
    match e.cache? with
    | some info => s!" ({Cache.sizeText info.size})"
    | none => ""

def isCacheLevel (e : Entity) (level : Nat) : Bool :=
  e.cache?.any (·.level == level)

def cardinality (e : Entity) : Nat :=
  e.mask.cardinality

/-- Both are the same entity, each seen in its own layout: of one kind and with one id. -/
def sameEntity (a b : Entity) : Bool :=
  a.kind == b.kind && a.id == b.id

/-- The same entity with the same CPUs. -/
def equal (a b : Entity) : Bool :=
  a.sameEntity b && a.mask.same b.mask

/-- The second entity lies within the first. -/
def contains (a b : Entity) : Bool :=
  b.mask.subset a.mask

def overlaps (a b : Entity) : Bool :=
  a.mask.overlaps b.mask

/-- The cache level; anything else has level 0. -/
def level (e : Entity) : Nat :=
  (e.cache?.map (·.level)).getD 0

/-- The order of entities whose masks stand in the given order. -/
def dumpCmpBy (masks : Ordering) (a b : Entity) : Ordering :=
  masks.then <| (compare a.level b.level).then <|
    (compare a.kind.rank b.kind.rank).then (compare a.id b.id)

/-- The order in which entities are listed. -/
def dumpCmp (a b : Entity) : Ordering :=
  dumpCmpBy (a.mask.dumpCmp b.mask) a b

/-! ## Checked forms, for entities of different layouts -/

def contains? (a b : Entity) : Except Fault Bool :=
  b.mask.subset? a.mask

def overlaps? (a b : Entity) : Except Fault Bool :=
  a.mask.overlaps? b.mask

def dumpCmp? (a b : Entity) : Except Fault Ordering :=
  return dumpCmpBy (← a.mask.dumpCmp? b.mask) a b

end Entity

end CpuPlacement
