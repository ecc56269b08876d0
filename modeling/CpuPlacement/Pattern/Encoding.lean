import CpuPlacement.Pattern.CharSet

/-!
# The bytes of a set of characters

In UTF-8 a character has one to four bytes. A range of characters is cut so that the characters of a
piece have the same number of bytes and each byte of them runs through a range of its own: the piece
is then a sequence of ranges of bytes.
-/

set_option autoImplicit false

namespace CpuPlacement.Pattern

/-- A closed range of bytes for each byte of some characters. -/
abbrev ByteRanges := List (Nat × Nat)

namespace Encoding

/-- The bytes of a code point. -/
def bytes (n : Nat) : List Nat :=
  if n ≤ 0x7F then [n]
  else if n ≤ 0x7FF then [0xC0 + n / 64, 0x80 + n % 64]
  else if n ≤ 0xFFFF then [0xE0 + n / 4096, 0x80 + n / 64 % 64, 0x80 + n % 64]
  else [0xF0 + n / 262144, 0x80 + n / 4096 % 64, 0x80 + n / 64 % 64, 0x80 + n % 64]

/-- The bytes of some characters. -/
def ofChars (chars : List Char) : List Nat :=
  chars.flatMap fun c => bytes c.toNat

/-- Where a range is cut whose code points differ before their last digits, so many of them counted
to the base 64: the end of the first piece and the start of the second. -/
def cutAtDigits? (low high digits : Nat) : Option (Nat × Nat) :=
  let unit := 1 <<< (6 * digits)
  if low / unit = high / unit then none
  else if low % unit ≠ 0 then
    let stop := low / unit * unit + (unit - 1)
    some (stop, stop + 1)
  else if high % unit ≠ unit - 1 then
    let start := high / unit * unit
    some (start - 1, start)
  else none

/-- Where a range is cut that goes beyond a code point. -/
def cutBehind? (low high last : Nat) : Option (Nat × Nat) :=
  if low ≤ last ∧ last < high then some (last, last + 1) else none

/-- Where a range is cut first, if it has to be: around the surrogates, between numbers of bytes, or
where the last bytes start from the beginning. -/
def cut? (low high : Nat) : Option (Nat × Nat) :=
  if low < 0xD800 ∧ 0xDFFF < high then some (0xD7FF, 0xE000)
  else
    ([0x7F, 0x7FF, 0xFFFF].findSome? (cutBehind? low high)).or
      (if high ≤ 0x7F then none else [1, 2, 3].findSome? (cutAtDigits? low high))

/-- The pieces of a range from left to right. The number bounds the cuts around a piece. -/
def pieces : Nat → Nat → Nat → List (Nat × Nat)
  | 0, low, high => [(low, high)]
  | bound + 1, low, high =>
    match cut? low high with
    | none => [(low, high)]
    | some (stop, start) => pieces bound low stop ++ pieces bound start high

/-- There are at most so many cuts around a piece of a range. -/
def mostCuts : Nat := 16

/-- The ranges of bytes of a range of characters. -/
def ofRange (low high : Nat) : List ByteRanges :=
  (pieces mostCuts low high).map fun (low, high) => (bytes low).zip (bytes high)

/-- The ranges of bytes of a set of characters. -/
def ofSet (s : CharSet) : List ByteRanges :=
  s.ranges.flatMap fun (low, high) => ofRange low high

/-- A character has at most so many bytes. -/
def mostBytes : Nat := 4

/-- Sequences by their first range, each with what follows there. -/
def byFirst : List ByteRanges → List ((Nat × Nat) × List ByteRanges)
  | [] => []
  | [] :: rest => byFirst rest
  | (first :: others) :: rest =>
    match byFirst rest with
    | (next, follow) :: groups =>
      if next = first then (next, others :: follow) :: groups
      else (first, [others]) :: (next, follow) :: groups
    | [] => [(first, [others])]

end Encoding

end CpuPlacement.Pattern
