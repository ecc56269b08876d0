import CpuPlacement.Pattern.Expression
import CpuPlacement.Pattern.Reader
import CpuPlacement.Text.Letters

/-!
# The start of a group

A parenthesis starts a group. A question mark behind it says more: a name for what the group
matches, flags for the group, or flags for all that follows the parentheses.
-/

set_option autoImplicit false

namespace CpuPlacement.Pattern

/-- What a parenthesis starts. -/
inductive Opening where
  /-- The parentheses hold nothing but flags for what follows. -/
  | settings (span : Span) (change : FlagChange)
  /-- A group; the span is that of the parenthesis. -/
  | group (span : Span) (kind : GroupKind)
deriving DecidableEq, Repr

namespace Group

open Reader

/-- The character may stand in the name of a group; fewer may come first. -/
def isNameChar (first : Bool) (c : Char) : Bool :=
  if first then c == '_' || Text.isLetter c
  else c == '_' || c == '.' || c == '[' || c == ']' || Text.isLetterOrNumber c

/-- Reads the characters of a name up to the bracket behind it. The number bounds them. -/
def nameChars (first : Bool) : Nat → Reader (List Char)
  | 0 => failHere .groupNameUnfinished
  | bound + 1 => do
    match ← char? with
    | none => failHere .groupNameUnfinished
    | some '>' => return []
    | some c =>
      if isNameChar first c then do
        pass
        return c :: (← nameChars false bound)
      else failAtChar .groupNameCharacter

/-- Reads the name of a group. No two groups have the same name. -/
def name : Reader Unit := do
  let start ← here
  let name ← nameChars true (((← get).rest.takeWhile (· != '>')).length + 1)
  let span : Span := ⟨start, ← here⟩
  pass
  if name.isEmpty then fail .groupNameEmpty (.empty start)
  match (← get).names.find? (·.1 = name) with
  | some (_, earlier) => throw ⟨.groupNameRepeated, span, some earlier⟩
  | none => modify fun c => { c with names := (name, span) :: c.names }

/-- Flags that are being read: those so far with their spans, and the sign that has negated them. -/
structure FlagList where
  flags : List (Flag × Bool × Span) := []
  negation : Option Span := none

/-- What the flags are set to. -/
def FlagList.change (f : FlagList) : FlagChange :=
  f.flags.reverse.map fun (flag, value, _) => (flag, value)

/-- Reads a flag or the sign that negates those behind it. -/
def flag (f : FlagList) (c : Char) : Reader FlagList := do
  let span ← charSpan
  if c = '-' then
    match f.negation with
    | some earlier => throw ⟨.negationRepeated, span, some earlier⟩
    | none => return { f with negation := some span }
  else
    match Flag.ofLetter? c with
    | none => fail .flagUnknown span
    | some flag =>
      match f.flags.find? (·.1 = flag) with
      | some (_, _, earlier) => throw ⟨.flagRepeated, span, some earlier⟩
      | none => return { f with flags := (flag, f.negation.isNone, span) :: f.flags }

/-- Reads flags up to a colon or a parenthesis. The number bounds them. A sign that comes last
negates nothing. -/
def flags (previous : Option Char) : Nat → FlagList → Reader FlagList
  | 0, _ => failHere .flagsUnfinished
  | bound + 1, f => do
    match ← char? with
    | none => failHere .flagsUnfinished
    | some c =>
      if c = ':' ∨ c = ')' then
        match previous, f.negation with
        | some '-', some sign => fail .negationDangling sign
        | _, _ => return f
      else do
        let f ← flag f c
        pass
        flags (some c) bound f

/-- There are at most so many flags and signs. -/
def mostFlags : Nat := 8

/-- What stands in parentheses behind a question mark at a place. -/
def flagged (parenthesis : Span) (mark : Place) : Reader Opening := do
  if (← char?).isNone then fail .groupUnclosed parenthesis
  let f ← flags none (mostFlags + 1) {}
  let last ← char?
  pass
  if last = some ':' then return .group parenthesis (.plain f.change)
  if f.flags.isEmpty then fail .nothingRepeated (.empty mark)
  return .settings ⟨parenthesis.start, ← here⟩ f.change

/-- What the parenthesis starts that comes next. -/
def opening : Reader Opening := do
  let parenthesis ← charSpan
  advance
  for lookAround in ["?=", "?!", "?<=", "?<!"] do
    if ← passIf lookAround then failFrom .lookAround parenthesis.start
  let mark ← here
  for named in ["?P<", "?<"] do
    if ← passIf named then
      name
      return .group parenthesis .captured
  if ← passIf "?" then flagged parenthesis mark
  else return .group parenthesis .captured

end Group

end CpuPlacement.Pattern
