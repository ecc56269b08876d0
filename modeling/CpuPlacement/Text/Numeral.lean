/-!
# Decimal numerals

A numeral is one or more ASCII digits, after an optional plus sign; leading zeros are allowed. It is
read from left to right against a limit, so of two faults the one further left is reported: a
numeral that has already grown too large is too large whatever follows, and a character that is no
digit is reported even where the digits before it would not have had room for one more.
-/

set_option autoImplicit false

namespace CpuPlacement

/-- Why a text is no numeral below the limit. -/
inductive NumeralError where
  | empty
  | invalidDigit
  | tooLarge
deriving DecidableEq, Repr

namespace NumeralError

/-- The wording of the error. -/
def message : NumeralError → String
  | empty => "cannot parse integer from empty string"
  | invalidDigit => "invalid digit found in string"
  | tooLarge => "number too large to fit in target type"

end NumeralError

namespace Numeral

/-- Numbers below this limit fit a word of so many bits. -/
def limit (bits : Nat) : Nat := 1 <<< bits

/-- The limit of counts and CPU numbers. -/
def wordLimit : Nat := limit 64

/-- The limit of the ids in descriptors. -/
def idLimit : Nat := limit 32

/-- The value of a digit. -/
def digitValue (c : Char) : Nat := c.toNat - '0'.toNat

/-- Reads digits on from the number that the digits before them have. -/
def readDigits (limit : Nat) : Nat → List Char → Except NumeralError Nat
  | value, [] => .ok value
  | value, c :: rest =>
    if c.isDigit then
      let next := 10 * value + digitValue c
      if next < limit then readDigits limit next rest else .error .tooLarge
    else .error .invalidDigit

/-- Reads a numeral below the limit. -/
def read (limit : Nat) : List Char → Except NumeralError Nat
  | [] => .error .empty
  | ['+'] => .error .invalidDigit
  | '+' :: digits => readDigits limit 0 digits
  | digits => readDigits limit 0 digits

end Numeral

end CpuPlacement
