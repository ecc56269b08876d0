/-!
# Sets of characters

A set is kept as closed ranges of code points in ascending order, with a gap between any two of
them. The surrogates are no characters: no range begins or ends with one.
-/

set_option autoImplicit false

namespace CpuPlacement.Pattern

/-- A set of characters. -/
structure CharSet where
  /-- The closed ranges of its code points. -/
  ranges : List (Nat × Nat)
deriving DecidableEq, Hashable, Repr

namespace CharSet

/-- The last code point. -/
def last : Nat := 0x10FFFF

def empty : CharSet := ⟨[]⟩

def range (low high : Nat) : CharSet := ⟨[(low, high)]⟩

def single (c : Char) : CharSet := range c.toNat c.toNat

/-- The character belongs to the set. -/
def holds (s : CharSet) (c : Char) : Bool :=
  s.ranges.any fun (low, high) => low ≤ c.toNat && c.toNat ≤ high

/-- Adds a range to ranges in order, and joins it with those that it meets. -/
def insertRange (low high : Nat) : List (Nat × Nat) → List (Nat × Nat)
  | [] => [(low, high)]
  | (a, b) :: rest =>
    if high + 1 < a then (low, high) :: (a, b) :: rest
    else if b + 1 < low then (a, b) :: insertRange low high rest
    else insertRange (min low a) (max high b) rest

/-- The set with all the characters from one to another. -/
def insert (s : CharSet) (low high : Nat) : CharSet := ⟨insertRange low high s.ranges⟩

/-- The set of the characters in some ranges, in any order. -/
def ofRanges (ranges : List (Nat × Nat)) : CharSet :=
  ranges.foldl (fun s (low, high) => s.insert low high) empty

/-- The characters of either set. -/
def union (s t : CharSet) : CharSet :=
  t.ranges.foldl (fun s (low, high) => s.insert low high) s

/-- The characters in both sets. -/
def inter (s t : CharSet) : CharSet :=
  ⟨s.ranges.flatMap fun (a, b) => t.ranges.filterMap fun (c, d) =>
    if max a c ≤ min b d then some (max a c, min b d) else none⟩

/-- A range without the surrogates at its ends, if any of it is left. -/
def trimmed (low high : Nat) : List (Nat × Nat) :=
  let low := if 0xD800 ≤ low ∧ low ≤ 0xDFFF then 0xE000 else low
  let high := if 0xD800 ≤ high ∧ high ≤ 0xDFFF then 0xD7FF else high
  if low ≤ high then [(low, high)] else []

/-- The gaps between ranges in order, from a code point on. -/
def gaps (start : Nat) : List (Nat × Nat) → List (Nat × Nat)
  | [] => trimmed start last
  | (low, high) :: rest =>
    (if start < low then trimmed start (low - 1) else []) ++ gaps (high + 1) rest

/-- The characters that are not in the set. -/
def complement (s : CharSet) : CharSet := ⟨gaps 0 s.ranges⟩

/-- The characters of the first set that are not in the second. -/
def difference (s t : CharSet) : CharSet := s.inter t.complement

/-- The characters in just one of the sets. -/
def symmetricDifference (s t : CharSet) : CharSet := (s.union t).difference (s.inter t)

/-- The set with the other case of every ASCII letter in it. -/
def bothCases (s : CharSet) : CharSet :=
  let shifted := fun (t : CharSet) (f : Nat → Nat) =>
    CharSet.mk (t.ranges.map fun (low, high) => (f low, f high))
  let small := shifted (s.inter (range 0x41 0x5A)) (· + 32)
  let capital := shifted (s.inter (range 0x61 0x7A)) (· - 32)
  (s.union small).union capital

/-- There are only ASCII characters in the set. -/
def isAscii (s : CharSet) : Bool :=
  s.ranges.all fun (_, high) => high ≤ 0x7F

/-- The code point of the only character in the set. -/
def only? (s : CharSet) : Option Nat :=
  match s.ranges with
  | [(low, high)] => if low = high then some low else none
  | _ => none

end CharSet

end CpuPlacement.Pattern
