import CpuPlacement.Pattern.Expression
import CpuPlacement.Pattern.Reader
import CpuPlacement.Text.HexDigit
import CpuPlacement.Text.Parts

/-!
# Escapes

A backslash takes the meaning from a mark and gives one to a letter. A letter may be followed by
more: a character by its number, a property of Unicode, an edge of a word.
-/

set_option autoImplicit false

namespace CpuPlacement.Pattern

namespace Escape

open Reader

/-- The character of a number that hexadecimal digits give. -/
def scalar? (digits : List Char) : Option Char :=
  let number := digits.foldl (fun n c => 16 * n + (Text.hexDigit? c).getD 0) 0
  if number.isValidChar then some (.ofNat number) else none

def isHex (c : Char) : Bool := (Text.hexDigit? c).isSome

/-- Reads so many hexadecimal digits. -/
def hexDigits : Nat → Reader (List Char)
  | 0 => return []
  | n + 1 => do
    match ← char? with
    | none => failHere .escapeUnfinished
    | some c =>
      if isHex c then do
        advance
        return c :: (← hexDigits n)
      else failAtChar .hexDigit

/-- A character by a fixed number of digits, of an escape that starts at a place. -/
def hexFixed (start : Place) (count : Nat) : Reader Literal := do
  let first ← here
  let digits ← hexDigits count
  match scalar? digits with
  | none => failFrom .hexScalar first
  | some char => return ⟨⟨start, ← here⟩, char, count = 2⟩

/-- A character by its number in braces. -/
def hexBraced (start : Place) : Reader Literal := do
  let brace ← here
  let first := (← charSpan).stop
  advance
  let digits ← takeWhile isHex
  match ← char? with
  | none => failFrom .escapeUnfinished brace
  | some '\x7d' => do
    let stop ← here
    advance
    if digits.isEmpty then failFrom .hexEmpty brace
    match scalar? digits with
    | none => fail .hexScalar ⟨first, stop⟩
    | some char => return ⟨⟨start, ← here⟩, char, false⟩
  | some _ => failAtChar .hexDigit

/-- A character by its number; the letter says how many digits it has without braces. -/
def hex (start : Place) (count : Nat) : Reader Literal := do
  advance
  match ← char? with
  | none => failHere .escapeUnfinished
  | some '\x7b' => hexBraced start
  | some _ => hexFixed start count

/-- A property of Unicode, by a single letter or by a name in braces. -/
def property (start : Place) : Reader Atom := do
  advance
  match ← char? with
  | none => failHere .escapeUnfinished
  | some '\\' => failAtChar .propertyMalformed
  | some '\x7b' => do
    advance
    let name ← takeWhile (· != '\x7d')
    if (← char?).isNone then failHere .escapeUnfinished
    pass
    return .property ⟨start, ← here⟩ name
  | some c => do
    advance
    return .property ⟨start, ← here⟩ [c]

/-- The edge of a name. -/
def edgeOfName? (name : List Char) : Option WordEdge :=
  match String.ofList name with
  | "start" => some .start
  | "end" => some .stop
  | "start-half" => some .halfStart
  | "end-half" => some .halfStop
  | _ => none

/-- A character of the name of an edge. -/
def isEdgeChar (c : Char) : Bool := c.isAlpha || c == '-'

/-- The edge in braces behind a boundary that starts at a place. Braces that hold a number are left
to be read as a repetition. -/
def edge? (start : Place) : Reader (Option WordEdge) := do
  let before ← get
  let brace ← here
  advance
  match ← char? with
  | none => failFrom .edgeUnfinished start
  | some c =>
    if !isEdgeChar c then do
      set before
      return none
    else do
      let first ← here
      let name ← takeWhile isEdgeChar
      if (← char?) != some '\x7d' then failFrom .edgeUnclosed brace
      let stop ← here
      pass
      match edgeOfName? name with
      | none => fail .edgeUnknown ⟨first, stop⟩
      | some edge => return some edge

/-- A word boundary whose escape starts at a place. -/
def boundary (start : Place) : Reader Atom := do
  let stop ← here
  if (← char?) != some '\x7b' then return .assertion ⟨start, stop⟩ (.word .boundary)
  match ← edge? start with
  | none => return .assertion ⟨start, stop⟩ (.word .boundary)
  | some edge => return .assertion ⟨start, ← here⟩ (.word edge)

/-- The character that a letter stands for. -/
def control? (c : Char) : Option Char :=
  match c with
  | 'a' => some '\x07'
  | 'f' => some '\x0c'
  | 'n' => some '\n'
  | 'r' => some '\r'
  | 't' => some '\t'
  | 'v' => some '\x0b'
  | _ => none

/-- The condition that a character stands for. -/
def assertion? (c : Char) : Option Assertion :=
  match c with
  | 'A' => some .textStart
  | 'z' => some .textStop
  | 'B' => some (.word .inside)
  | '<' => some (.word .start)
  | '>' => some (.word .stop)
  | _ => none

/-- The character loses its meaning behind a backslash, or has none. -/
def isMark (c : Char) : Bool :=
  c.toNat < 128 && !c.isAlphanum && c != '<' && c != '>'

/-- An escape of a single character. -/
def short (start : Place) (c : Char) : Reader Atom := do
  pass
  let span : Span := ⟨start, ← here⟩
  if isMark c then return .literal ⟨span, c, false⟩
  if c = 'b' then return ← boundary start
  match control? c, assertion? c with
  | some char, _ => return .literal ⟨span, char, false⟩
  | none, some what => return .assertion span what
  | none, none => fail .escapeUnknown span

/-- What starts with a backslash. -/
def read : Reader Atom := do
  let start ← here
  pass
  match ← char? with
  | none => failFrom .escapeUnfinished start
  | some c =>
    if c.isDigit then fail .backReference ⟨start, (← charSpan).stop⟩
    else match c with
      | 'x' => return .literal (← hex start 2)
      | 'u' => return .literal (← hex start 4)
      | 'U' => return .literal (← hex start 8)
      | 'p' | 'P' => property start
      | c =>
        match NamedClass.ofShort? c with
        | some which => do
          pass
          return .short ⟨start, ← here⟩ which c.isUpper
        | none => short start c

end Escape

end CpuPlacement.Pattern
