import CpuPlacement.Pattern.Expression
import CpuPlacement.Pattern.Reader
import CpuPlacement.Text.Numeral

/-!
# The count of a repetition

A mark or a count in braces says how often what stands before it is repeated. A question mark behind
it asks for few repetitions before many; whether there is a match does not depend on it.
-/

set_option autoImplicit false

namespace CpuPlacement.Pattern.Count

open Reader

/-- The count that a mark stands for. -/
def ofMark? (c : Char) : Option Count :=
  match c with
  | '?' => some { least := 0, most := some 1 }
  | '*' => some { least := 0, most := none }
  | '+' => some { least := 1, most := none }
  | _ => none

/-- The most is no less than the least. -/
def inOrder (c : Count) : Bool := c.most.all (c.least ≤ ·)

/-- Passes the question mark that may stand behind a count. -/
def withQuestionMark (count : Count) : Reader Count := do
  if (← char?) == some '?' then
    pass
    return { count with fewFirst := true }
  else return count

/-- Passes blanks, which may stand around a number even where they have a meaning elsewhere. -/
def passEveryBlank : Reader Unit := do
  let _ ← takeWhile Text.isBlank

/-- Reads a number. A number that is missing or too large is a mistake only where it is asked
for. -/
def number : Reader (Except Misreading Nat) := do
  passEveryBlank
  let start ← here
  let digits ← takeWhile Char.isDigit
  let span : Span := ⟨start, ← here⟩
  passEveryBlank
  return match Numeral.read (Numeral.limit 32) digits with
    | .ok n => .ok n
    | .error .empty => .error ⟨.countMissing, span, none⟩
    | .error _ => .error ⟨.numberTooLarge, span, none⟩

/-- The number is asked for. -/
def known (n : Except Misreading Nat) : Reader Nat := liftM n

/-- Reads the numbers in braces that start at a place; the cursor is behind the brace. -/
def numbers (start : Place) : Reader Count := do
  let least ← number
  match ← char? with
  | none => failFrom .countUnclosed start
  | some ',' => do
    advance
    match ← char? with
    | none => failFrom .countUnclosed start
    | some '\x7d' => return { least := ← known least, most := none }
    | some _ => do
      let least ← known least
      let most ← known (← number)
      return { least, most := some most }
  | some _ => do
    let exactly ← known least
    return { least := exactly, most := some exactly }

/-- Reads a count in braces. -/
def braced : Reader Count := do
  let start ← here
  advance
  if (← char?).isNone then failFrom .countUnclosed start
  let count ← numbers start
  if (← char?) != some '\x7d' then failFrom .countUnclosed start
  advance
  let count ← count.withQuestionMark
  if !count.inOrder then failFrom .countOrder start
  return count

end CpuPlacement.Pattern.Count
