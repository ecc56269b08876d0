/-!
# Hexadecimal digits

The ten decimal digits and six letters, in either case.
-/

set_option autoImplicit false

namespace CpuPlacement.Text

/-- The value of a hexadecimal digit. -/
def hexDigit? (c : Char) : Option Nat :=
  if c.isDigit then some (c.toNat - '0'.toNat)
  else if 'a' ≤ c ∧ c ≤ 'f' then some (c.toNat - 'a'.toNat + 10)
  else if 'A' ≤ c ∧ c ≤ 'F' then some (c.toNat - 'A'.toNat + 10)
  else none

/-- A hexadecimal digit stands for four binary ones. -/
theorem hexDigit?_lt {c : Char} {digit : Nat} (h : hexDigit? c = some digit) : digit < 16 := by
  unfold hexDigit? at h
  split at h
  · next decimal =>
    have bounds : 48 ≤ c.toNat ∧ c.toNat ≤ 57 := by
      simpa [Char.isDigit, UInt32.le_iff_toNat_le] using decimal
    obtain rfl : c.toNat - 48 = digit := by simpa using h
    omega
  · split at h
    · next lower =>
      have bounds : 97 ≤ c.toNat ∧ c.toNat ≤ 102 := lower
      obtain rfl : c.toNat - 97 + 10 = digit := by simpa using h
      omega
    · split at h
      · next capital =>
        have bounds : 65 ≤ c.toNat ∧ c.toNat ≤ 70 := capital
        obtain rfl : c.toNat - 65 + 10 = digit := by simpa using h
        omega
      · cases h

end CpuPlacement.Text
