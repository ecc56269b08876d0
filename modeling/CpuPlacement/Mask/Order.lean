import CpuPlacement.Mask.Basic

/-!
# The two orders on masks

`cmp` is the numeric order: bit-sets before group masks, of two bit-sets the one that has the
highest CPU in which they differ comes last, group masks by group and then by the number that their
bits write. It numbers the entities of a kind, and two masks are the same set of CPUs exactly when
it calls them equal; the length of a bit-set plays no part.

`dumpCmp` is the order of listings: by group, and then the mask that has the lowest CPU in which the
two differ comes first. Of the masks that start at one CPU the widest therefore leads.
-/

set_option autoImplicit false

namespace CpuPlacement.Mask

/-- The highest position that one mask selects and the other does not. -/
def highestDifference? (a b : Mask) : Option Nat :=
  highestOne? (a.number ^^^ b.number)

/-- The mask with the highest position in which the two differ comes last. -/
def highestLast (a b : Mask) : Ordering :=
  match a.highestDifference? b with
  | none => .eq
  | some i => if a.test i then .gt else .lt

/-- The numeric order. -/
def cmp : Mask → Mask → Ordering
  | bitset n a, bitset m b => (bitset n a).highestLast (bitset m b)
  | group g a, group h b => (compare g h).then (compare a.toNat b.toNat)
  | bitset _ _, group _ _ => .lt
  | group _ _, bitset _ _ => .gt

/-- The masks select the same CPUs. -/
def same (a b : Mask) : Bool :=
  a.cmp b == .eq

/-- The lowest position that one mask selects and the other does not. -/
def lowestDifference? (a b : Mask) : Option Nat :=
  lowestOne? (a.number ^^^ b.number)

/-- The mask with the lowest position in which the two differ comes first. -/
def lowestFirst (a b : Mask) : Ordering :=
  match a.lowestDifference? b with
  | none => .eq
  | some i => if a.test i then .lt else .gt

/-- The order of listings; a bit-set counts as having no group. -/
def dumpCmp (a b : Mask) : Ordering :=
  (compare a.groupId? b.groupId?).then (a.lowestFirst b)

/-! ## Ordered lists of masks -/

/-- Puts a mask at its place in an ascending list; of equal masks the one already there stays. -/
def insertOrdered (m : Mask) : List Mask → List Mask
  | [] => [m]
  | x :: rest =>
    match m.cmp x with
    | .lt => m :: x :: rest
    | .eq => x :: rest
    | .gt => x :: insertOrdered m rest

/-- The distinct masks of a list in ascending order, each as it was first listed. -/
def orderedSet (masks : List Mask) : List Mask :=
  masks.foldl (fun set m => insertOrdered m set) []

end CpuPlacement.Mask
