import CpuPlacement.Mask.Basic
import CpuPlacement.Text.Blank
import CpuPlacement.Text.HexDigit

/-!
# Masks in hexadecimal

A mask may be given as a hexadecimal number, most significant digit first, of any length, in either
case and with or without a leading `0x`. Each digit stands for four CPUs, so `f0` is CPUs 4 to 7 of
eight. The digits are read from the last one to the first.
-/

set_option autoImplicit false

namespace CpuPlacement

/-- The text of a mask that is no hexadecimal number. -/
structure MalformedHex where
  text : String
deriving DecidableEq, Repr

/-- The wording of the error. -/
def MalformedHex.message (e : MalformedHex) : String :=
  s!"invalid affinity mask '{e.text}'"

namespace Mask

/-- The digits of a hexadecimal text, without the blanks around it and one leading `0x`. -/
def hexDigits (text : List Char) : List Char :=
  match Text.trim text with
  | '0' :: 'x' :: digits => digits
  | '0' :: 'X' :: digits => digits
  | digits => digits

/-- Selects the CPUs, from a first one on, for which a number has a one among its lowest binary
digits. -/
def insertOnes (m : Mask) (first number : Nat) : Nat → Mask
  | 0 => m
  | count + 1 =>
    let m := m.insertOnes first number count
    if number.testBit count then m.insert (first + count) else m

/-- Reads digits into a mask from a position on, the least significant first. -/
def insertDigits? (m : Mask) (position : Nat) : List Char → Option Mask
  | [] => some m
  | c :: rest => do
    let digit ← Text.hexDigit? c
    insertDigits? (m.insertOnes (position * 4) digit 4) (position + 1) rest

/-- Reads a hexadecimal mask. -/
def ofHex (text : String) : Except MalformedHex Mask :=
  match hexDigits text.toList with
  | [] => .error ⟨text⟩
  | digits =>
    match insertDigits? (empty (4 * digits.length)) 0 digits.reverse with
    | some m => .ok m
    | none => .error ⟨text⟩

end Mask

end CpuPlacement
