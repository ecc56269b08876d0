/-!
# The lowest and the highest one of a number

Taking one from a number turns its lowest binary one into a zero and the zeros below it into ones,
and changes nothing above. The digits that change are therefore the lowest one and everything below
it, so that the highest of them is where the lowest one stands. The digits that are ones both before
and after are all ones but the lowest, so that the ones can be taken away one by one, in ascending
order (`onesAscending`).
-/

set_option autoImplicit false

namespace CpuPlacement

/-- The lowest position at which the binary digits of a number have a one. -/
def lowestOne? (n : Nat) : Option Nat :=
  if n = 0 then none else some (n ^^^ (n - 1)).log2

/-- Taking one from an odd number changes the lowest digit only. -/
theorem xor_pred_odd (n : Nat) : (2 * n + 1) ^^^ (2 * n) = 1 := by
  apply Nat.eq_of_testBit_eq
  intro i
  rw [Nat.testBit_xor]
  cases i with
  | zero => simp
  | succ i =>
    simp only [Nat.testBit_succ, show (2 * n + 1) / 2 = n by omega, show 2 * n / 2 = n by omega]
    simp

/-- Taking one from twice a number borrows as taking one from the number does, one digit further. -/
theorem xor_pred_even {n : Nat} (h : n ≠ 0) :
    (2 * n) ^^^ (2 * n - 1) = 2 * (n ^^^ (n - 1)) + 1 := by
  apply Nat.eq_of_testBit_eq
  intro i
  rw [Nat.testBit_xor]
  cases i with
  | zero => simp [show (2 * n - 1) % 2 = 1 by omega]
  | succ i =>
    simp only [Nat.testBit_succ, show (2 * n - 1) / 2 = n - 1 by omega, show 2 * n / 2 = n by omega,
      show (2 * (n ^^^ (n - 1)) + 1) / 2 = n ^^^ (n - 1) by omega, Nat.testBit_xor]

theorem lowestOne?_odd (n : Nat) : lowestOne? (2 * n + 1) = some 0 := by
  simp [lowestOne?, xor_pred_odd, Nat.log2_def]

/-- Doubling a number moves its lowest one up by one. -/
theorem lowestOne?_even (n : Nat) : lowestOne? (2 * n) = (lowestOne? n).map (· + 1) := by
  by_cases h : n = 0
  · simp [lowestOne?, h]
  · have differ : n ^^^ (n - 1) ≠ 0 := fun e => by
      have same : n ^^^ (n ^^^ (n - 1)) = n - 1 := by
        rw [← Nat.xor_assoc, Nat.xor_self, Nat.zero_xor]
      rw [e, Nat.xor_zero] at same
      omega
    have log : (2 * (n ^^^ (n - 1)) + 1).log2 = (n ^^^ (n - 1)).log2 + 1 := by
      rw [Nat.log2_def, if_pos (by omega)]
      congr 2
      omega
    simp [lowestOne?, h, xor_pred_even h, log, show 2 * n ≠ 0 by omega]

/-- The digit is a one and all below it are zeros. -/
theorem lowestOne?_eq_some_iff {n i : Nat} :
    lowestOne? n = some i ↔ n.testBit i = true ∧ ∀ j < i, n.testBit j = false := by
  -- the number is halved: an odd one has its lowest one in front, an even one where its half does
  induction n using Nat.strongRecOn generalizing i with
  | ind n ih =>
    obtain ⟨m, rfl | rfl⟩ : ∃ m, n = 2 * m + 1 ∨ n = 2 * m := ⟨n / 2, by omega⟩
    · rw [lowestOne?_odd]
      cases i with
      | zero => simp
      | succ i =>
        simp only [Option.some.injEq, Nat.zero_ne_add_one, false_iff, not_and]
        intro _ h
        simpa using h 0 (by omega)
    · rw [lowestOne?_even]
      cases i with
      | zero => simp
      | succ i =>
        by_cases hm : m = 0
        · simp [hm, lowestOne?]
        · simp only [Option.map_eq_some_iff, Nat.add_right_cancel_iff, exists_eq_right,
            ih m (by omega)]
          constructor
          · rintro ⟨one, zeros⟩
            refine ⟨by simpa [Nat.testBit_succ] using one, fun j below => ?_⟩
            cases j with
            | zero => simp
            | succ j => simpa [Nat.testBit_succ] using zeros j (by omega)
          · rintro ⟨one, zeros⟩
            refine ⟨by simpa [Nat.testBit_succ] using one, fun j below => ?_⟩
            simpa [Nat.testBit_succ] using zeros (j + 1) (by omega)

/-! ## Taking the lowest one away -/

/-- Of the digits of a number, those that are still ones after taking one from it are all but the
lowest. -/
theorem testBit_and_pred {n i : Nat} (lowest : lowestOne? n = some i) (j : Nat) :
    (n &&& (n - 1)).testBit j = (n.testBit j && decide (j ≠ i)) := by
  induction n using Nat.strongRecOn generalizing i j with
  | ind n ih =>
    obtain ⟨m, rfl | rfl⟩ : ∃ m, n = 2 * m + 1 ∨ n = 2 * m := ⟨n / 2, by omega⟩
    · rw [lowestOne?_odd] at lowest
      cases lowest
      rw [Nat.testBit_and, Nat.add_sub_cancel]
      cases j with
      | zero => simp
      | succ j =>
        simp [Nat.testBit_succ, show (2 * m + 1) / 2 = m by omega, show 2 * m / 2 = m by omega]
    · rw [lowestOne?_even] at lowest
      obtain ⟨k, half, rfl⟩ := Option.map_eq_some_iff.mp lowest
      have nonzero : m ≠ 0 := fun none => by simp [none, lowestOne?] at half
      cases j with
      | zero => simp
      | succ j =>
        have below := ih m (by omega) half j
        rw [Nat.testBit_and] at below
        rw [Nat.testBit_and, Nat.testBit_succ, Nat.testBit_succ, show 2 * m / 2 = m by omega,
          show (2 * m - 1) / 2 = m - 1 by omega, below]
        simp

/-- The ones of a number, each being taken away before the next is looked for. -/
def onesAscending (n : Nat) : List Nat :=
  match h : lowestOne? n with
  | none => []
  | some i => i :: onesAscending (n &&& (n - 1))
termination_by n
decreasing_by
  have nonzero : n ≠ 0 := fun none => by simp [none, lowestOne?] at h
  have : n &&& (n - 1) ≤ n - 1 := Nat.and_le_right
  omega

/-! ## The highest one -/

/-- The highest position at which the binary digits of a number have a one. -/
def highestOne? (n : Nat) : Option Nat :=
  if n = 0 then none else some n.log2

/-- The digit is a one and all above it are zeros. -/
theorem highestOne?_eq_some_iff {n i : Nat} :
    highestOne? n = some i ↔ n.testBit i = true ∧ ∀ j > i, n.testBit j = false := by
  by_cases zero : n = 0
  · simp [zero, highestOne?]
  · have above : ∀ j > n.log2, n.testBit j = false := fun j later =>
      Nat.testBit_lt_two_pow ((Nat.log2_lt zero).mp later)
    rw [highestOne?, if_neg zero, Option.some.injEq]
    constructor
    · rintro rfl
      exact ⟨Nat.testBit_log2 zero, above⟩
    · rintro ⟨one, zeros⟩
      rcases Nat.lt_trichotomy n.log2 i with less | same | more
      · rw [above i less] at one
        cases one
      · exact same
      · have top := Nat.testBit_log2 zero
        rw [zeros _ more] at top
        cases top

end CpuPlacement
