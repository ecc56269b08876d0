import CpuPlacement.Pattern.Mistake
import CpuPlacement.Text.Blank

/-!
# Reading the text of a pattern

A reader moves a cursor over the text and answers with what it has read or with a mistake. Where
the text is spaced out, blanks and comments have no meaning: a comment goes from a number sign to
the end of the line. They are passed at the places where a reader says so, not everywhere.
-/

set_option autoImplicit false

namespace CpuPlacement.Pattern

/-- What is left to read, and what has been settled so far. -/
structure Cursor where
  rest : List Char
  place : Place := {}
  /-- The text is spaced out from here on. -/
  spaced : Bool := false
  /-- The names of groups, and where they stand. -/
  names : List (List Char × Span) := []

namespace Cursor

/-- The cursor behind the next character. -/
def passed (c : Cursor) : Cursor :=
  match c.rest with
  | [] => c
  | a :: rest => { c with rest, place := c.place.after a }

/-- What is left behind blanks and comments. -/
def behindBlanks (inComment : Bool) : List Char → Place → List Char × Place
  | [], place => ([], place)
  | a :: rest, place =>
    if inComment then behindBlanks (a != '\n') rest (place.after a)
    else if Text.isBlank a then behindBlanks false rest (place.after a)
    else if a = '#' then behindBlanks true rest (place.after a)
    else (a :: rest, place)

/-- The cursor behind blanks and comments, if they have no meaning. -/
def unspaced (c : Cursor) : Cursor :=
  if c.spaced then
    let (rest, place) := behindBlanks false c.rest c.place
    { c with rest, place }
  else c

/-- The wanted characters that come next, and what is left behind them. Blanks and comments count
for nothing where the text is spaced out. -/
def run (wanted : Char → Bool) (spaced inComment : Bool) :
    List Char → Place → List Char × List Char × Place
  | [], place => ([], [], place)
  | a :: rest, place =>
    if inComment then run wanted spaced (a != '\n') rest (place.after a)
    else if spaced && Text.isBlank a then run wanted spaced false rest (place.after a)
    else if spaced && a == '#' then run wanted spaced true rest (place.after a)
    else if wanted a then
      let (taken, rest, place) := run wanted spaced false rest (place.after a)
      (a :: taken, rest, place)
    else ([], a :: rest, place)

/-- The span of the next character. -/
def charSpan (c : Cursor) : Span :=
  match c.rest with
  | [] => .empty c.place
  | a :: _ => ⟨c.place, c.place.after a⟩

/-- The first character that is no blank, where one number sign counts as a blank, too. -/
def firstBehindBlanks? (inComment : Bool) : List Char → Option Char
  | [] => none
  | a :: rest =>
    if Text.isBlank a then firstBehindBlanks? inComment rest
    else if a = '#' ∧ !inComment then firstBehindBlanks? true rest
    else some a

/-- The character behind the next one, without blanks if they have no meaning. If only blanks are
left, the first of them counts. -/
def second? (c : Cursor) : Option Char :=
  let behind := c.rest.drop 1
  if c.spaced then (firstBehindBlanks? false behind).or behind.head? else behind.head?

end Cursor

/-- Reads a part of the text. -/
abbrev Reader := StateT Cursor (Except Misreading)

namespace Reader

variable {α : Type}

/-- Where the cursor stands. -/
def here : Reader Place := return (← get).place

/-- The next character, which is not passed. -/
def char? : Reader (Option Char) := return (← get).rest.head?

def charSpan : Reader Span := return (← get).charSpan

/-- Passes a character. -/
def pass : Reader Unit := modify Cursor.passed

/-- Passes blanks and comments, if they have no meaning. -/
def passBlanks : Reader Unit := modify Cursor.unspaced

/-- Passes a character and what has no meaning behind it. -/
def advance : Reader Unit := modify (·.passed.unspaced)

/-- The text of a mistake that has a span. -/
def fail (mistake : Mistake) (span : Span) : Reader α := throw ⟨mistake, span, none⟩

/-- The mistake is at the cursor. -/
def failHere (mistake : Mistake) : Reader α := do fail mistake (.empty (← here))

/-- The next character is a mistake. -/
def failAtChar (mistake : Mistake) : Reader α := do fail mistake (← charSpan)

/-- All that has been passed since a place is a mistake. -/
def failFrom (mistake : Mistake) (start : Place) : Reader α := do fail mistake ⟨start, ← here⟩

/-- Passes the text if it comes next. -/
def passIf (text : String) : Reader Bool := do
  if text.toList.isPrefixOf (← get).rest then
    text.toList.forM fun _ => pass
    return true
  else return false

/-- Passes wanted characters, and answers with them. -/
def takeWhile (wanted : Char → Bool) : Reader (List Char) := do
  let c ← get
  let (taken, rest, place) := Cursor.run wanted c.spaced false c.rest c.place
  set { c with rest, place }
  return taken

end Reader

end CpuPlacement.Pattern
