/-!
# Texts for terminals

A text for a terminal may hold control sequences: an escape character, marks that say more, and a
last character, or a string up to its own end. Where a text goes elsewhere the sequences are left
out, and with them all controls but those that make up blanks.

A blank inside a sequence is kept. The text behind it is kept, too, up to the next control; there
the sequence goes on where it was left.
-/

set_option autoImplicit false

namespace CpuPlacement.Text

/-- Where a place stands in a control sequence. -/
inductive Control where
  /-- In no sequence. -/
  | ground
  | escape
  | escapeMarks
  | command
  | commandNumbers
  | commandMarks
  | commandRest
  | device
  | deviceNumbers
  | deviceMarks
  | deviceRest
  /-- In the text of a command of the operating system. -/
  | system
  /-- In another string. -/
  | string
deriving DecidableEq, Repr

namespace Control

/-- The character makes up a blank without being one that is printed. -/
def isBlankControl (c : Char) : Bool :=
  c == '\t' || c == '\n' || c == '\x0c' || c == '\r'

def isPrinted (c : Char) : Bool := 0x20 ≤ c.toNat && c.toNat < 0x7F

/-- The sequence is a string, in which controls have no effect. -/
def isInString : Control → Bool
  | device | deviceNumbers | deviceMarks | deviceRest | system | string => true
  | ground | escape | escapeMarks | command | commandNumbers | commandMarks | commandRest => false

/-- An ASCII character is kept that comes next. -/
def keeps (s : Control) (c : Char) : Bool :=
  if s = ground then isPrinted c || isBlankControl c else isBlankControl c && !s.isInString

/-- Where an escape goes on. -/
def afterEscape (c : Char) : Control :=
  match c with
  | 'P' => device
  | 'X' | '^' | '_' => string
  | '[' => command
  | ']' => system
  | c => if c.toNat < 0x30 then escapeMarks else ground

/-- The place behind a printed character of a sequence. -/
def afterPrinted (s : Control) (c : Char) : Control :=
  let isMark := c.toNat < 0x30
  let isNumber := c.toNat < 0x3C
  let isSign := c.toNat < 0x40
  match s with
  | ground => ground
  | escape => afterEscape c
  | escapeMarks => if isMark then escapeMarks else ground
  | command =>
    if isMark then commandMarks else if isSign then commandNumbers else ground
  | commandNumbers =>
    if isMark then commandMarks
    else if isNumber then commandNumbers
    else if isSign then commandRest else ground
  | commandMarks => if isMark then commandMarks else if isSign then commandRest else ground
  | commandRest => if isSign then commandRest else ground
  | device =>
    if isMark then deviceMarks else if isSign then deviceNumbers else deviceRest
  | deviceNumbers =>
    if isMark then deviceMarks else if isNumber then deviceNumbers else deviceRest
  | deviceMarks => if isMark then deviceMarks else deviceRest
  | deviceRest => deviceRest
  | system => system
  | string => string

/-- The place behind a character of a sequence. The byte `9C`, which ends some strings, is taken for
their end even inside another character. -/
def after (s : Control) (c : Char) : Control :=
  if c = '\x18' ∨ c = '\x1a' then ground
  else if c = '\x1b' then escape
  else if s = system ∧ c = '\x07' then ground
  else if isPrinted c then s.afterPrinted c
  else if s = deviceRest ∨ s = string then
    if (String.utf8EncodeChar c).contains 0x9C then ground else s
  else s

end Control

/-- What is kept of a text in which a place is reached; the text before it may be kept up to
there. -/
def keptFrom (kept : Bool) (s : Control) : List Char → List Char
  | [] => []
  | c :: rest =>
    if 0x80 ≤ c.toNat then
      if kept || s = .ground then c :: keptFrom true .ground rest
      else keptFrom false (s.after c) rest
    else if kept then
      if Control.ground.keeps c then c :: keptFrom true s rest
      else keptFrom false (s.after c) rest
    else
      if s.keeps c then c :: keptFrom true (s.after c) rest
      else keptFrom false (s.after c) rest

/-- The text without control sequences. -/
def withoutControls (text : String) : String :=
  String.ofList (keptFrom false .ground text.toList)

/-- The text in bold type on a terminal. -/
def bold (text : String) : String := "\x1b[1m" ++ text ++ "\x1b[0m"

end CpuPlacement.Text
