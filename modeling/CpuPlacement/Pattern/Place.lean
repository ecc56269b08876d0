/-!
# Places in the text of a pattern

A place stands between two characters. It is known by its line and column, for the reader of a
message, and by the number of characters before it, which orders places.
-/

set_option autoImplicit false

namespace CpuPlacement.Pattern

/-- A place in a text; lines and columns are counted from one. -/
structure Place where
  /-- How many characters stand before it. -/
  offset : Nat := 0
  line : Nat := 1
  column : Nat := 1
deriving DecidableEq, Repr

/-- The place behind a character. -/
def Place.after (p : Place) (c : Char) : Place :=
  if c = '\n' then ⟨p.offset + 1, p.line + 1, 1⟩ else ⟨p.offset + 1, p.line, p.column + 1⟩

/-- What stands between two places. -/
structure Span where
  start : Place
  stop : Place
deriving DecidableEq, Repr

namespace Span

/-- The empty span at a place. -/
def empty (p : Place) : Span := ⟨p, p⟩

def inOneLine (s : Span) : Bool := s.start.line = s.stop.line

/-- Spans are in the order of their starts, and those of one start in the order of their ends. -/
def precedes (s t : Span) : Bool :=
  if s.start.offset = t.start.offset then s.stop.offset ≤ t.stop.offset
  else s.start.offset < t.start.offset

end Span

end CpuPlacement.Pattern
