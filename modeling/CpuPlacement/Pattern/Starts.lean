import CpuPlacement.Pattern.Basic
import CpuPlacement.Pattern.Encoding

/-!
# What matches start with

The bytes that a match may start with are listed as long as they are few. A start is whole if there
is no more of the match. The starts of a pattern come in the order in which its matches are tried,
so those of a repetition may come before or after the empty one.
-/

set_option autoImplicit false

namespace CpuPlacement.Pattern

/-- What a match may start with. -/
structure Start where
  bytes : List Nat
  /-- There is no more of the match. -/
  isWhole : Bool
deriving DecidableEq, Repr

namespace Start

/-- No more bytes of a start are kept than this. -/
def lengthLimit : Nat := 100

/-- The start of an empty match. -/
def empty : Start := ⟨[], true⟩

/-- The same bytes, of a match of which there may be more. -/
def unfinished (s : Start) : Start := { s with isWhole := false }

/-- At most so many bytes. -/
def cut (length : Nat) (s : Start) : Start :=
  if length < s.bytes.length then ⟨s.bytes.take length, false⟩ else s

/-- What comes behind a whole match. -/
def andThen (s t : Start) : Start := ⟨s.bytes ++ t.bytes, t.isWhole⟩

/-- Of neighbours with the same bytes one is kept, which is whole if all of them are. -/
def withoutRepeats (starts : List Start) : List Start :=
  starts.foldr (fun s kept => match kept with
    | [] => [s]
    | t :: rest =>
      if s.bytes = t.bytes then ⟨s.bytes, s.isWhole && t.isWhole⟩ :: rest else s :: t :: rest) []

end Start

/-- All that matches may start with; nothing, if it is too much to be listed. -/
abbrev Starts := Option (List Start)

namespace Starts

/-- No more starts are listed than this. -/
def limit : Nat := 250

/-- No set has more characters than this if they are listed. -/
def setLimit : Nat := 10

/-- No repetition is followed for more times than this. -/
def timesLimit : Nat := 10

/-- Where there are too many starts, so many bytes of each are kept. -/
def shortLength : Nat := 4

/-- The match is empty. -/
def empty : Starts := some [Start.empty]

/-- There may be more of each match. -/
def unfinished (s : Starts) : Starts := s.map (·.map Start.unfinished)

/-- No match is whole, so nothing that comes behind makes a difference. -/
def isSettled (s : Starts) : Bool := s.all (·.all (!·.isWhole))

/-- The starts of a single character. -/
def ofSet (s : CharSet) : Starts :=
  if setLimit < s.ranges.foldl (fun count (low, high) => count + (high + 1 - low)) 0 then none
  else some (s.ranges.flatMap fun (low, high) =>
    (List.range' low (high + 1 - low)).map fun n => ⟨Encoding.bytes n, true⟩)

/-- The starts of one match behind another. -/
def andThen (s t : Starts) : Starts := do
  let starts ← s
  if isSettled s then return starts
  match t.filter fun others => starts.length * others.length ≤ limit with
  | none =>
    if starts.any (·.bytes.isEmpty) then none else return starts.map Start.unfinished
  | some others =>
    let joined := starts.flatMap fun s => if s.isWhole then others.map s.andThen else [s]
    return (Start.withoutRepeats joined).map (Start.cut Start.lengthLimit)

/-- The starts of matches of one kind or another, those of the first kind first. -/
def orElse (s t : Starts) : Starts := do
  let starts ← s
  let others ← t
  if starts.length + others.length ≤ limit then return Start.withoutRepeats (starts ++ others)
  let starts := Start.withoutRepeats (starts.map (Start.cut shortLength))
  let others := Start.withoutRepeats (others.map (Start.cut shortLength))
  if starts.length + others.length ≤ limit then return Start.withoutRepeats (starts ++ others)
  none

/-- The starts of repetitions. -/
def times (s : Starts) (least : Nat) (most : Option Nat) (fewFirst : Bool) : Starts :=
  if least = 0 then
    let some := if most = some 1 then s else s.unfinished
    if fewFirst then orElse empty some else orElse some empty
  else if most = none then s.unfinished
  else
    let joined := (List.replicate (min least timesLimit) s).foldl andThen empty
    if most = some least ∧ least ≤ timesLimit then joined else joined.unfinished

end Starts

/-- What the starts of a pattern are added to: those of what comes before it in a sequence, or those
of the alternatives before it. -/
inductive Starts.Context where
  | behind (before : Starts)
  | beside (others : Starts)

/-- Adds the starts of a pattern. -/
def Starts.Context.add (s : Starts) : Starts.Context → Starts
  | behind before => before.andThen s
  | beside others => others.orElse s

/-- The starts of a pattern, together with others. Sequences and alternatives are followed from left
to right. -/
def startsIn (context : Starts.Context) : Pattern → Starts
  | empty | look _ => context.add .empty
  | text chars => context.add (some [Start.cut Start.lengthLimit ⟨Encoding.ofChars chars, true⟩])
  | one s _ => context.add (.ofSet s)
  | sequence p q =>
    match context with
    | .behind _ => q.startsIn (.behind (p.startsIn context))
    | .beside _ => context.add (q.startsIn (.behind (p.startsIn (.behind .empty))))
  | either p q =>
    match context with
    | .beside _ => q.startsIn (.beside (p.startsIn context))
    | .behind _ => context.add (q.startsIn (.beside (p.startsIn (.beside (some [])))))
  | repeated p least most fewFirst =>
    context.add ((p.startsIn (.behind .empty)).times least most fewFirst)
  | captured p => context.add (p.startsIn (.behind .empty))

/-- What the matches of a pattern start with. -/
def starts (p : Pattern) : Starts := p.startsIn (.behind .empty)

end CpuPlacement.Pattern
