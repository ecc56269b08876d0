import CpuPlacement.Pattern.CharSet

/-!
# Classes with a name

Some sets of ASCII characters are named inside a class, as in `[[:digit:]]`. Three of them have a
short form behind a backslash as well: `\d`, `\s` and `\w`.
-/

set_option autoImplicit false

namespace CpuPlacement.Pattern

/-- A set of ASCII characters with a name. -/
inductive NamedClass where
  | alnum
  | alpha
  | ascii
  | blank
  | cntrl
  | digit
  | graph
  | lower
  | print
  | punct
  | space
  | upper
  | word
  | xdigit
deriving DecidableEq, Repr

namespace NamedClass

def all : List NamedClass :=
  [alnum, alpha, ascii, blank, cntrl, digit, graph, lower, print, punct, space, upper, word, xdigit]

def name : NamedClass → String
  | alnum => "alnum"
  | alpha => "alpha"
  | ascii => "ascii"
  | blank => "blank"
  | cntrl => "cntrl"
  | digit => "digit"
  | graph => "graph"
  | lower => "lower"
  | print => "print"
  | punct => "punct"
  | space => "space"
  | upper => "upper"
  | word => "word"
  | xdigit => "xdigit"

/-- The class of a name. -/
def ofName? (name : List Char) : Option NamedClass :=
  all.find? fun k => k.name.toList == name

/-- The members, as closed ranges of code points. -/
def ranges : NamedClass → List (Nat × Nat)
  | alnum => [(0x30, 0x39), (0x41, 0x5A), (0x61, 0x7A)]
  | alpha => [(0x41, 0x5A), (0x61, 0x7A)]
  | ascii => [(0x00, 0x7F)]
  | blank => [(0x09, 0x09), (0x20, 0x20)]
  | cntrl => [(0x00, 0x1F), (0x7F, 0x7F)]
  | digit => [(0x30, 0x39)]
  | graph => [(0x21, 0x7E)]
  | lower => [(0x61, 0x7A)]
  | print => [(0x20, 0x7E)]
  | punct => [(0x21, 0x2F), (0x3A, 0x40), (0x5B, 0x60), (0x7B, 0x7E)]
  | space => [(0x09, 0x0D), (0x20, 0x20)]
  | upper => [(0x41, 0x5A)]
  | word => [(0x30, 0x39), (0x41, 0x5A), (0x5F, 0x5F), (0x61, 0x7A)]
  | xdigit => [(0x30, 0x39), (0x41, 0x46), (0x61, 0x66)]

/-- The members. -/
def members (k : NamedClass) : CharSet := ⟨k.ranges⟩

/-- The class that a letter behind a backslash stands for; a capital one excludes it. -/
def ofShort? (c : Char) : Option NamedClass :=
  match c with
  | 'd' | 'D' => some digit
  | 's' | 'S' => some space
  | 'w' | 'W' => some word
  | _ => none

/-- No named class leaves ASCII. -/
theorem isAscii_members (k : NamedClass) : k.members.isAscii = true := by
  cases k <;> rfl

end NamedClass

end CpuPlacement.Pattern
