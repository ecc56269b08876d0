import CpuPlacement.Pattern.CharSet
import CpuPlacement.Pattern.Expression
import Std.Data.HashSet

/-!
# Patterns

A pattern stands for a set of texts, each between what is there before it and after it. The one
question asked of it is whether a text holds a match; where the match stands and how long it is does
not matter. The answer takes one pass over the text, which keeps with every character the patterns
that what is left of a match may meet.
-/

set_option autoImplicit false

namespace CpuPlacement

namespace Pattern

/-- What is asked of the characters next to a place. -/
inductive Look where
  | textStart
  | textStop
  /-- The start of a line; a carriage return may end a line, too. -/
  | lineStart (carriage : Bool)
  | lineStop (carriage : Bool)
  /-- The edge of a word of ASCII characters. -/
  | word (edge : WordEdge)
  /-- The edge of a word of any script; no place is known to be one. -/
  | wideWord (edge : WordEdge)
deriving DecidableEq, Hashable, Repr

/-- There is a character, and it may stand in a word. -/
def isWordChar (c : Option Char) : Bool :=
  c.any NamedClass.word.members.holds

/-- The edge of a word is between two characters, of which either may be missing. -/
def WordEdge.holds (before after : Option Char) : WordEdge → Bool
  | boundary => isWordChar before != isWordChar after
  | inside => isWordChar before == isWordChar after
  | start => !isWordChar before && isWordChar after
  | stop => isWordChar before && !isWordChar after
  | halfStart => !isWordChar before
  | halfStop => !isWordChar after

/-- What is asked holds between two characters, of which either may be missing. -/
def Look.holds (before after : Option Char) : Look → Bool
  | textStart => before.isNone
  | textStop => after.isNone
  | lineStart false => before.all (· == '\n')
  | lineStart true =>
    before.all (· == '\n') || (before == some '\r' && after != some '\n')
  | lineStop false => after.all (· == '\n')
  | lineStop true =>
    after.all (· == '\r') || (after == some '\n' && before != some '\r')
  | word edge => edge.holds before after
  | wideWord _ => false

end Pattern

/-- A set of texts. -/
inductive Pattern where
  /-- The empty text. -/
  | empty
  /-- Some characters, one after the other. -/
  | text (chars : List Char)
  /-- A single character of a set. A set that is meant as one of bytes holds ASCII characters. -/
  | one (chars : Pattern.CharSet) (asBytes : Bool)
  /-- The empty text, at some places only. -/
  | look (what : Pattern.Look)
  | sequence (first second : Pattern)
  | either (left right : Pattern)
  /-- At least so many times and, if there is a second number, at most so many. Which number of
  times is tried first makes no difference to what matches. -/
  | repeated (p : Pattern) (least : Nat) (most : Option Nat) (fewFirst : Bool)
  /-- The same texts; what has been matched is kept. -/
  | captured (p : Pattern)
deriving DecidableEq, Hashable, Repr

namespace Pattern

/-- The empty text matches between two characters, of which either may be missing. -/
def matchesEmpty (before after : Option Char) : Pattern → Bool
  | empty => true
  | text chars => chars.isEmpty
  | one _ _ => false
  | look what => what.holds before after
  | sequence p q => p.matchesEmpty before after && q.matchesEmpty before after
  | either p q => p.matchesEmpty before after || q.matchesEmpty before after
  | repeated p least _ _ => least == 0 || p.matchesEmpty before after
  | captured p => p.matchesEmpty before after

/-- One pattern after another. -/
def followedBy : Pattern → Pattern → Pattern
  | empty, q => q
  | p, empty => p
  | p, q => sequence p q

/-- A text, which may be empty. -/
def ofChars : List Char → Pattern
  | [] => empty
  | chars => text chars

/-- What the rest of a match may meet that begins with a character. Of a repetition, the times
before may all have matched the empty text, if the pattern does so here. -/
def after (before : Option Char) (c : Char) : Pattern → List Pattern
  | empty | look _ => []
  | text chars =>
    match chars with
    | [] => []
    | first :: rest => if first = c then [ofChars rest] else []
  | one chars _ => if chars.holds c then [empty] else []
  | sequence p q =>
    (p.after before c).map (·.followedBy q)
      ++ if p.matchesEmpty before (some c) then q.after before c else []
  | either p q => p.after before c ++ q.after before c
  | repeated p least most fewFirst =>
    if most = some 0 then []
    else
      let least := if p.matchesEmpty before (some c) then 0 else least - 1
      let others := repeated p least (most.map (· - 1)) fewFirst
      (p.after before c).map (·.followedBy others)
  | captured p => p.after before c

/-- The same patterns, each of them once. -/
def distinct (patterns : List Pattern) : List Pattern :=
  (Std.HashSet.ofList patterns).toList

/-- There is a match in what is left of a text, or one of the matches under way comes to its end
there. -/
def occursFrom (p : Pattern) (before : Option Char) (underWay : List Pattern) : List Char → Bool
  | [] => (p :: underWay).any (·.matchesEmpty before none)
  | c :: rest =>
    let running := p :: underWay
    running.any (·.matchesEmpty before (some c))
      || p.occursFrom (some c) (distinct (running.flatMap (·.after before c))) rest

/-- The text holds a match. -/
def occursIn (p : Pattern) (text : String) : Bool :=
  p.occursFrom none [] text.toList

/-- The pattern matches nothing but the empty text. -/
def isEmptyOnly : Pattern → Bool
  | empty | look _ => true
  | text chars => chars.isEmpty
  | one _ _ => false
  | sequence p q | either p q => p.isEmptyOnly && q.isEmptyOnly
  | repeated p _ _ _ | captured p => p.isEmptyOnly

/-- Something of a match is kept. -/
def captures : Pattern → Bool
  | empty | text _ | one _ _ | look _ => false
  | sequence p q | either p q => p.captures || q.captures
  | repeated p _ _ _ => p.captures
  | captured _ => true

/-- Something that is asked for at a place in the pattern is of some kind. -/
def anyLook (kind : Look → Bool) : Pattern → Bool
  | empty | text _ | one _ _ => false
  | look what => kind what
  | sequence p q | either p q => p.anyLook kind || q.anyLook kind
  | repeated p _ _ _ | captured p => p.anyLook kind

/-- What is asked for is an edge of words of any script. -/
def Look.isWideWord : Look → Bool
  | wideWord _ => true
  | _ => false

/-- Patterns that are put one after another match nothing if both of them do. -/
theorem matchesEmpty_followedBy (before after : Option Char) (p q : Pattern) :
    (p.followedBy q).matchesEmpty before after
      = (p.matchesEmpty before after && q.matchesEmpty before after) := by
  cases p <;> cases q <;> simp [followedBy, matchesEmpty]

end Pattern

end CpuPlacement
