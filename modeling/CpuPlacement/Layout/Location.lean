import CpuPlacement.Layout.Basic
import CpuPlacement.Sorted

/-!
# Listing order and locations

Entities are listed in the order in which they start: whatever starts at a lower CPU comes first,
and of entities that start at the same CPU the widest.

The location of an entity names it and everything that it lies in, the smallest first:
`Core#2/Socket#1/L3#1`. Kinds of which the layout has a single instance say nothing about the place
and are left out, and so are the first-level caches; what remains are the landmarks of the layout.
The entity may belong to another layout; it is then placed among the landmarks of this one.

A location is worked out once for each entity and remembered from then on (`LocationMemo`), also
when it is asked for through another layout later.
-/

set_option autoImplicit false

namespace CpuPlacement

namespace Layout

/-- The entities of the layout in listing order. -/
def ordered (l : Layout) : List Entity :=
  sortedBy Entity.dumpCmp l.entities

/-- The entities that locations may name, in listing order. -/
def landmarks (l : Layout) : List Entity :=
  let ordered := l.ordered
  let names := ordered.map (·.kindName)
  ordered.filter fun e => !e.isCacheLevel 1 && 1 < names.count e.kindName

end Layout

namespace Entity

/-- By number of CPUs, then in listing order. -/
def sizeCmp (a b : Entity) : Ordering :=
  (compare a.cardinality b.cardinality).then (a.dumpCmp b)

/-- The landmarks that the entity lies in, other than itself, the smallest first. -/
def containers (landmarks : List Entity) (e : Entity) : List Entity :=
  sortedBy sizeCmp (landmarks.filter fun other => !other.sameEntity e && other.contains e)

/-- The location of an entity among landmarks whose masks are of its family. -/
def location (landmarks : List Entity) (e : Entity) : String :=
  "/".intercalate ((e :: e.containers landmarks).map (·.label))

/-- The location of any entity. A mask of the other family is a fault as soon as it has to be
compared with a landmark's. -/
def location? (landmarks : List Entity) (e : Entity) : Except Fault String :=
  match landmarks.find? fun other => !other.sameEntity e with
  | none => .ok (e.location landmarks)
  | some other => return (fun _ => e.location landmarks) (← other.contains? e)

end Entity

/-! ## Remembered locations -/

/-- An entity of one of several layouts. -/
structure EntityRef where
  layout : Nat
  kind : EntityKind
  id : Nat
deriving DecidableEq, Repr

/-- The entity, seen as one of the numbered layout. -/
def Entity.ref (e : Entity) (layout : Nat) : EntityRef :=
  ⟨layout, e.kind, e.id⟩

/-- The locations that have been worked out. -/
structure LocationMemo where
  known : List (EntityRef × String) := []

namespace LocationMemo

def find? (memo : LocationMemo) (ref : EntityRef) : Option String :=
  memo.known.lookup ref

def remember (memo : LocationMemo) (ref : EntityRef) (location : String) : LocationMemo :=
  ⟨(ref, location) :: memo.known⟩

/-- The location of an entity, remembered or worked out in the layout and then remembered. A fault
is not remembered. -/
def locate (memo : LocationMemo) (l : Layout) (ref : EntityRef) (e : Entity) :
    Except Fault String × LocationMemo :=
  match memo.find? ref with
  | some location => (.ok location, memo)
  | none =>
    match e.location? l.landmarks with
    | .ok location => (.ok location, memo.remember ref location)
    | .error fault => (.error fault, memo)

/-- The location of an entity of the layout itself, which cannot fault. -/
def locateOwn (memo : LocationMemo) (landmarks : List Entity) (ref : EntityRef) (e : Entity) :
    String × LocationMemo :=
  match memo.find? ref with
  | some location => (location, memo)
  | none =>
    let location := e.location landmarks
    (location, memo.remember ref location)

/-- One line for each entity: its location and its text. -/
def dumpLines (memo : LocationMemo) (landmarks : List Entity) (layout : Nat) :
    List Entity → List String × LocationMemo
  | [] => ([], memo)
  | e :: rest =>
    let (location, memo) := memo.locateOwn landmarks (e.ref layout) e
    let (lines, memo) := memo.dumpLines landmarks layout rest
    (s!"{location} {e.text}\n" :: lines, memo)

/-- The listing of a layout, which is known by the number, in listing order. -/
def dump (memo : LocationMemo) (l : Layout) (layout : Nat) : String × LocationMemo :=
  let (lines, memo) := memo.dumpLines l.landmarks layout l.ordered
  (String.join lines, memo)

end LocationMemo

/-- The listing of a layout on its own. -/
def Layout.dump (l : Layout) : String :=
  (LocationMemo.dump {} l 0).1

end CpuPlacement
