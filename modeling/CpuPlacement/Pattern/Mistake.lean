import CpuPlacement.Pattern.Place
import CpuPlacement.Text.Parts

/-!
# Mistakes in the text of a pattern

A mistake has a cause and stands somewhere in the text; where it clashes with something before it,
the message shows both places. The message repeats the text and underlines what is wrong. A text of
several lines gets a number before each line, and a span over several lines is told in words.
-/

set_option autoImplicit false

namespace CpuPlacement.Pattern

/-- What can be wrong with the text of a pattern. -/
inductive Mistake where
  /-- What stands after a backslash is no member of a class. -/
  | classEscape
  | classRangeOrder
  | classRangeBoundary
  | classUnclosed
  | numberTooLarge
  | hexEmpty
  | hexScalar
  | hexDigit
  | escapeUnfinished
  | escapeUnknown
  | negationDangling
  | flagRepeated
  | negationRepeated
  | flagsUnfinished
  | flagUnknown
  | groupNameRepeated
  | groupNameEmpty
  | groupNameCharacter
  | groupNameUnfinished
  | groupUnclosed
  | groupUnopened
  | nestedTooDeep (limit : Nat)
  | countOrder
  | countMissing
  | countUnclosed
  | nothingRepeated
  | edgeUnclosed
  | edgeUnknown
  | edgeUnfinished
  | propertyMalformed
  | backReference
  | lookAround
  /-- A character or a class of all scripts where only bytes are meant. -/
  | unicodeNotAllowed
  | notUtf8
  | propertyUnknown
  | propertyValueUnknown
  | shortClassUnavailable
  | caseUnavailable
deriving DecidableEq, Repr

namespace Mistake

/-- The wording of the mistake. -/
def message : Mistake → String
  | classEscape => "invalid escape sequence found in character class"
  | classRangeOrder => "invalid character class range, the start must be <= the end"
  | classRangeBoundary => "invalid range boundary, must be a literal"
  | classUnclosed => "unclosed character class"
  | numberTooLarge => "decimal literal invalid"
  | hexEmpty => "hexadecimal literal empty"
  | hexScalar => "hexadecimal literal is not a Unicode scalar value"
  | hexDigit => "invalid hexadecimal digit"
  | escapeUnfinished => "incomplete escape sequence, reached end of pattern prematurely"
  | escapeUnknown => "unrecognized escape sequence"
  | negationDangling => "dangling flag negation operator"
  | flagRepeated => "duplicate flag"
  | negationRepeated => "flag negation operator repeated"
  | flagsUnfinished => "expected flag but got end of regex"
  | flagUnknown => "unrecognized flag"
  | groupNameRepeated => "duplicate capture group name"
  | groupNameEmpty => "empty capture group name"
  | groupNameCharacter => "invalid capture group character"
  | groupNameUnfinished => "unclosed capture group name"
  | groupUnclosed => "unclosed group"
  | groupUnopened => "unopened group"
  | nestedTooDeep limit =>
    "exceed the maximum number of nested parentheses/brackets (" ++ toString limit ++ ")"
  | countOrder => "invalid repetition count range, the start must be <= the end"
  | countMissing => "repetition quantifier expects a valid decimal"
  | countUnclosed => "unclosed counted repetition"
  | nothingRepeated => "repetition operator missing expression"
  | edgeUnclosed =>
    "special word boundary assertion is either unclosed or contains an invalid character"
  | edgeUnknown =>
    "unrecognized special word boundary assertion, valid choices are: start, end, start-half or "
      ++ "end-half"
  | edgeUnfinished =>
    "found either the beginning of a special word boundary or a bounded repetition on a \\b with "
      ++ "an opening brace, but no closing brace"
  | propertyMalformed => "invalid Unicode character class"
  | backReference => "backreferences are not supported"
  | lookAround => "look-around, including look-ahead and look-behind, is not supported"
  | unicodeNotAllowed => "Unicode not allowed here"
  | notUtf8 => "pattern can match invalid UTF-8"
  | propertyUnknown => "Unicode property not found"
  | propertyValueUnknown => "Unicode property value not found"
  | shortClassUnavailable =>
    "Unicode-aware Perl class not found (make sure the unicode-perl feature is enabled)"
  | caseUnavailable =>
    "Unicode-aware case insensitivity matching is not available (make sure the unicode-case "
      ++ "feature is enabled)"

end Mistake

/-- A mistake at its place. -/
structure Misreading where
  mistake : Mistake
  span : Span
  /-- What stands further left and clashes with it. -/
  earlier : Option Span := none
deriving DecidableEq, Repr

namespace Misreading

/-- The spans that the message shows, from left to right. -/
def spans (m : Misreading) : List Span :=
  match m.earlier with
  | none => [m.span]
  | some s => if s.precedes m.span then [s, m.span] else [m.span, s]

/-- Carets under spans of one line, after so many columns that are written already. An empty span
has a caret, too. -/
def carets : Nat → List Span → String
  | _, [] => ""
  | written, s :: rest =>
    let gap := s.start.column - 1 - written
    let width := max 1 (s.stop.column - s.start.column)
    "".pushn ' ' gap ++ "".pushn '^' width ++ carets (written + gap + width) rest

/-- A line of the text, with the carets under it if there are any. -/
def notedLine (m : Misreading) (numberWidth number : Nat) (line : List Char) : String :=
  let label := toString number
  let head :=
    if numberWidth = 0 then "    "
    else "".pushn ' ' (numberWidth - label.length) ++ label ++ ": "
  let marked := m.spans.filter fun s => s.inOneLine && s.start.line == number
  let notes :=
    if marked.isEmpty then "" else "".pushn ' ' head.length ++ carets 0 marked ++ "\n"
  head ++ String.ofList line ++ "\n" ++ notes

/-- A span over several lines in words. -/
def acrossLines (s : Span) : String :=
  "on line " ++ toString s.start.line ++ " (column " ++ toString s.start.column
    ++ ") through line " ++ toString s.stop.line ++ " (column " ++ toString (s.stop.column - 1)
    ++ ")\n"

/-- The whole message about a text. -/
def report (m : Misreading) (text : List Char) : String :=
  let lines := Text.lines text
  let count := lines.length + if text.getLast? = some '\n' then 1 else 0
  let numberWidth := if count ≤ 1 then 0 else (toString count).length
  let noted := String.join
    ((lines.zipIdx 1).map fun (line, number) => m.notedLine numberWidth number line)
  let divider := if text.contains '\n' then "".pushn '~' 79 ++ "\n" else ""
  let across := String.join ((m.spans.filter (!·.inOneLine)).map acrossLines)
  "regex parse error:\n" ++ divider ++ noted ++ divider ++ across ++ "error: "
    ++ m.mistake.message

end Misreading

end CpuPlacement.Pattern
