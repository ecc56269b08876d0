import CpuPlacement.Pattern.Joining
import CpuPlacement.Pattern.SharedStates
import CpuPlacement.Pattern.TextTree

/-!
# The size of a pattern

A pattern may ask for more repetitions than can be kept. What counts is the room for the machine
that looks for it, with copies for repetitions. The size is counted without making the machine.
-/

set_option autoImplicit false

namespace CpuPlacement.Pattern

/-- The fewest characters of a match, if there can be one. -/
def shortest? : Pattern → Option Nat
  | empty | look _ => some 0
  | text chars => some chars.length
  | one s _ => if s.ranges.isEmpty then none else some 1
  | sequence p q => return (← p.shortest?) + (← q.shortest?)
  | either p q => return min (← p.shortest?) (← q.shortest?)
  | repeated p least _ _ => return (← p.shortest?) * least
  | captured p => p.shortest?

/-- Adds the states of something to a machine. -/
abbrev Making := Machine → Machine

namespace Making

/-- Some states, one after the other. -/
def states (count : Nat) : Making := (·.add count 0)

/-- One thing after another, as they are met in reading. -/
def inSequence (d : Direction) (first second : Making) : Making := fun m =>
  match d with
  | .forward => second (first m)
  | .backward => first (second m)

/-- One of several things. The first two are made before the state that leads to all of them and the
one where they meet. -/
def anyOf (makings : List Making) : Making := fun m =>
  match makings with
  | [] => m.add 1 0
  | [make] => make m
  | first :: second :: others =>
    let m := (second (first m)).add 2 (branchSize * makings.length)
    others.foldl (fun m make => make m) m

/-- Repetitions of something. What may be repeated without a limit is made once for each time that
it has to be there, what may be left out is made each time. -/
def repeated (make : Making) (mayBeEmpty : Bool) (least : Nat) (most : Option Nat) :
    Making := fun m =>
  match least, most with
  | 0, none =>
    if mayBeEmpty then (make m).add 3 (4 * branchSize) else make (m.add 1 (2 * branchSize))
  | least, none => (m.times make least).add 1 (2 * branchSize)
  | 0, some 1 => (make (m.add 1 (2 * branchSize))).add 1 0
  | least, some most =>
    let m := if least = 0 then m.add 1 0 else m.times make least
    if least = most then m
    else (m.add 1 0).times (fun m => make (m.add 1 (2 * branchSize))) (most - least)

/-- Something of which the match is kept, which is done in reading forward. -/
def captured (d : Direction) (make : Making) : Making := fun m =>
  match d with
  | .forward => (make (m.add 1 0)).add 1 0
  | .backward => make m

/-- A single character of a set. -/
def ofSet (d : Direction) (s : CharSet) : Making :=
  if s.isAscii then (·.add 2 (stepSize * s.ranges.length))
  else SharedStates.addTo d (Encoding.ofSet s)

end Making

/-- The bytes of the pattern, if it is a text. -/
def bytes? : Pattern → Option (List Nat)
  | text chars => some (Encoding.ofChars chars)
  | _ => none

/-- The tree that several alternatives make which are all texts, in the order of reading. -/
def tree? (d : Direction) (alternatives : List Pattern) : Option Machine :=
  if alternatives.length ≤ 1 then none
  else (alternatives.mapM bytes?).map fun texts => match d with
    | .forward => TextTree.machine texts
    | .backward => TextTree.machine (texts.map (·.reverse))

/-- How the alternatives of a pattern are made, put together. -/
def whole (d : Direction) (p : Pattern) (makings : List Making) : Making :=
  match tree? d p.alternatives with
  | some tree => (·.append tree)
  | none => Making.anyOf makings

/-- How each of the alternatives of a pattern is made. -/
def makings (d : Direction) : Pattern → List Making
  | either p q => p.makings d ++ q.makings d
  | empty | look _ => [.states 1]
  | text chars => [.states (Encoding.ofChars chars).length]
  | one s _ => [.ofSet d s]
  | sequence p q => [.inSequence d (p.whole d (p.makings d)) (q.whole d (q.makings d))]
  | repeated p least most _ =>
    [.repeated (p.whole d (p.makings d)) (p.shortest?.getD 0 == 0) least most]
  | captured p => [.captured d (p.whole d (p.makings d))]

/-- How the pattern is made. -/
def making (d : Direction) (p : Pattern) : Making := p.whole d (p.makings d)

/-- A match begins at the start of the text. -/
def isHeldAtStart : Pattern → Bool
  | look what => what = .textStart
  | sequence p q => p.isHeldAtStart || (p.isEmptyOnly && q.isHeldAtStart)
  | either p q => p.isHeldAtStart && q.isHeldAtStart
  | repeated p least _ _ => least ≠ 0 && p.isHeldAtStart
  | captured p => p.isHeldAtStart
  | empty | text _ | one _ _ => false

/-- A match ends at the end of the text. -/
def isHeldAtStop : Pattern → Bool
  | look what => what = .textStop
  | sequence p q => q.isHeldAtStop || (q.isEmptyOnly && p.isHeldAtStop)
  | either p q => p.isHeldAtStop && q.isHeldAtStop
  | repeated p least _ _ => least ≠ 0 && p.isHeldAtStop
  | captured p => p.isHeldAtStop
  | empty | text _ | one _ _ => false

/-- The machine that looks for a match. Unless a match is held where the reading starts, the machine
passes any bytes before it. Forward, it keeps where a match begins and ends. -/
def machine (d : Direction) (p : Pattern) : Machine :=
  let isHeld := match d with
    | .forward => p.isHeldAtStart
    | .backward => p.isHeldAtStop
  let passing : Machine :=
    if isHeld then Machine.add {} 1 0 else Machine.add {} 3 (stepSize + 2 * branchSize)
  (Making.captured d (p.making d) passing).add 1 0

end CpuPlacement.Pattern
