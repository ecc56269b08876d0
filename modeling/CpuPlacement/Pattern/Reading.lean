import CpuPlacement.Pattern.Class
import CpuPlacement.Pattern.Count
import CpuPlacement.Pattern.Group

/-!
# Reading an expression

The text is read part by part at the level of the parentheses that are open. A parenthesis starts a
new level, which waits on a stack until its end; a bar ends one of the alternatives of a level.
-/

set_option autoImplicit false

namespace CpuPlacement.Pattern

/-- The group that a level belongs to. -/
structure OpenGroup where
  /-- The span of the parenthesis. -/
  span : Span
  kind : GroupKind
  /-- The text before the group is spaced out. -/
  spaced : Bool

/-- What has been read at a level. -/
structure Level where
  group : Option OpenGroup
  /-- Where the level starts. -/
  start : Place
  /-- The alternatives that are complete; the last comes first. -/
  alternatives : List Expression := []
  /-- Where the current alternative starts. -/
  current : Place := start
  /-- The parts of the current alternative; the last comes first. -/
  parts : List Expression := []

namespace Level

def add (level : Level) (part : Expression) : Level := { level with parts := part :: level.parts }

/-- The current alternative, if it ends at a place. -/
def alternative (level : Level) (stop : Place) : Expression :=
  match level.parts with
  | [] => .nothing ⟨level.current, stop⟩
  | [part] => part
  | parts => .sequence ⟨level.current, stop⟩ parts.reverse

/-- The current alternative ends before a bar. -/
def atBar (level : Level) (stop next : Place) : Level :=
  { level with
    alternatives := level.alternative stop :: level.alternatives, current := next, parts := [] }

/-- The level ends at a place. -/
def expression (level : Level) (stop : Place) : Expression :=
  match level.alternatives with
  | [] => level.alternative stop
  | alternatives =>
    .alternation ⟨level.start, stop⟩ (level.alternative stop :: alternatives).reverse

end Level

namespace Expression

open Reader

/-- What a repetition repeats: the last part of the level, which has to match something. -/
def operand? (level : Level) : Option (Expression × List Expression) :=
  match level.parts with
  | [] | .nothing _ :: _ | .flags _ _ :: _ => none
  | operand :: before => some (operand, before)

/-- Reads a repetition. -/
def repeatLast (level : Level) (c : Char) : Reader Level := do
  match operand? level with
  | none => failHere .nothingRepeated
  | some (operand, before) => do
    let count ← match Count.ofMark? c with
      | some count => do
        pass
        count.withQuestionMark
      | none => Count.braced
    let span : Span := ⟨operand.span.start, ← here⟩
    return { level with parts := .repetition span count operand :: before }

/-- A character that has a meaning of its own, or none. -/
def ofChar (span : Span) (c : Char) : Expression :=
  .atom (match c with
    | '.' => .dot span
    | '^' => .assertion span .lineStart
    | '$' => .assertion span .lineStop
    | c => .literal ⟨span, c, false⟩)

/-- Reads a part that starts with a character which does not change the level. The number bounds
the members of a class. -/
def part (bound : Nat) (c : Char) : Reader Expression := do
  match c with
  | '[' => Class.read bound
  | '\\' => return .atom (← Escape.read)
  | c => do
    let span ← charSpan
    pass
    return ofChar span c

/-- The level ends with the text. -/
def finish (level : Level) : Reader Expression := do
  match level.group with
  | some opened => fail .groupUnclosed opened.span
  | none => return level.expression (← here)

/-- The next level, after a parenthesis has been read that starts something. -/
def opened (level : Level) (outer : List Level) (opening : Opening) :
    Reader (Level × List Level) := do
  let spaced := (← get).spaced
  let spacing := fun (change : FlagChange) =>
    modify fun c => { c with spaced := (change.of? .spaced).getD spaced }
  match opening with
  | .settings span change => do
    spacing change
    return (level.add (.flags span change), outer)
  | .group span kind => do
    if let .plain change := kind then spacing change
    return ({ group := some ⟨span, kind, spaced⟩, start := ← here }, level :: outer)

/-- The level around, after the group of a level is closed. -/
def closed (level : Level) (outer : List Level) : Reader (Level × List Level) := do
  match level.group, outer with
  | some opened, around :: outer => do
    modify fun c => { c with spaced := opened.spaced }
    let body := level.expression (← here)
    pass
    return (around.add (.group ⟨opened.span.start, ← here⟩ opened.kind body), outer)
  | _, _ => failAtChar .groupUnopened

/-- Reads on at a level to the end of the text. The number bounds the parts that are read, and those
of a part. -/
def readOn : Nat → Level → List Level → Reader Expression
  | 0, level, _ => finish level
  | bound + 1, level, outer => do
    passBlanks
    match ← char? with
    | none => finish level
    | some '(' => do
      let (level, outer) ← opened level outer (← Group.opening)
      readOn bound level outer
    | some ')' => do
      let (level, outer) ← closed level outer
      readOn bound level outer
    | some '|' => do
      let stop ← here
      pass
      readOn bound (level.atBar stop (← here)) outer
    | some c => do
      let level ←
        if c = '?' ∨ c = '*' ∨ c = '+' ∨ c = '\x7b' then repeatLast level c
        else level.add <$> part bound c
      readOn bound level outer

/-- The expression that is written as the text. -/
def ofText (text : List Char) : Except Misreading Expression :=
  (readOn (text.length + 1) { group := none, start := {} } []).run' { rest := text }

end Expression

end CpuPlacement.Pattern
