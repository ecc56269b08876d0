/-!
# The ones of a number

The positions at which the binary digits of a number have a one, in ascending order. The digits are
cut into halves, and a half without ones is passed over; so a number with many digits and few ones
is soon done. The main statement is that this gives the positions which pass `Nat.testBit`. The ones
are counted in the same way, without listing them.
-/

set_option autoImplicit false

namespace CpuPlacement

/-- The ones of a number, of which so many halvings leave a single digit. The positions are counted
from a first one upwards. -/
def onesFrom (first : Nat) : Nat → Nat → List Nat
  | 0, n => if n.testBit 0 then [first] else []
  | halvings + 1, n =>
    if n = 0 then []
    else
      let half := 1 <<< halvings
      onesFrom first halvings (n % (1 <<< half)) ++ onesFrom (first + half) halvings (n >>> half)

/-- The positions of the ones of a number that has at most so many digits. -/
def onesBelow (digits n : Nat) : List Nat :=
  onesFrom 0 (digits.log2 + 1) n

/-- How many ones a number has, of which so many halvings leave a single digit. -/
def countOnes : Nat → Nat → Nat
  | 0, n => n % 2
  | halvings + 1, n =>
    if n = 0 then 0
    else
      let half := 1 <<< halvings
      countOnes halvings (n % (1 <<< half)) + countOnes halvings (n >>> half)

/-- How many ones a number has that has at most so many digits. -/
def onesCount (digits n : Nat) : Nat :=
  countOnes (digits.log2 + 1) n

/-- The halves are gone through in order, so that the ones come out ascending. -/
theorem onesFrom_eq (first halvings n : Nat) :
    onesFrom first halvings n =
      ((List.range (1 <<< halvings)).filter n.testBit).map (first + ·) := by
  induction halvings generalizing first n with
  | zero =>
    rw [onesFrom, Nat.shiftLeft_zero, List.range_one, List.filter_cons]
    cases n.testBit 0 <;> rfl
  | succ halvings ih =>
    have double : 1 <<< (halvings + 1) = 1 <<< halvings + 1 <<< halvings := by
      rw [Nat.shiftLeft_succ, Nat.two_mul]
    rw [onesFrom]
    split
    · next none => simp [none]
    · simp only [ih]
      rw [double, List.range_add, List.filter_append, List.map_append, List.filter_map,
        List.map_map]
      congr 2
      · refine List.filter_congr fun i mem => ?_
        rw [Nat.one_shiftLeft (1 <<< halvings), Nat.testBit_mod_two_pow,
          decide_eq_true (List.mem_range.mp mem), Bool.true_and]
      · funext i
        exact Nat.add_assoc _ _ _
      · exact List.filter_congr fun i _ => Nat.testBit_shiftRight n

/-- Of a number with no more digits, all ones are found. -/
theorem onesBelow_eq {digits n : Nat} (within : ∀ i, n.testBit i = true → i < digits) :
    onesBelow digits n = (List.range digits).filter n.testBit := by
  have room : digits < 1 <<< (digits.log2 + 1) := by
    rw [Nat.one_shiftLeft]
    exact Nat.lt_log2_self
  obtain ⟨more, split⟩ := Nat.le.dest (Nat.le_of_lt room)
  have none : ((List.range more).map (digits + ·)).filter n.testBit = [] := by
    refine List.filter_eq_nil_iff.mpr fun i mem one => ?_
    obtain ⟨j, -, rfl⟩ := List.mem_map.mp mem
    exact absurd (within _ one) (by omega)
  rw [onesBelow, onesFrom_eq, ← split, List.range_add, List.filter_append, none, List.append_nil]
  simp

/-- The ones are counted as they are listed. -/
theorem length_onesFrom (first halvings n : Nat) :
    (onesFrom first halvings n).length = countOnes halvings n := by
  induction halvings generalizing first n with
  | zero =>
    rw [onesFrom, countOnes, Nat.testBit_zero]
    rcases Nat.mod_two_eq_zero_or_one n with even | odd
    · simp [even]
    · simp [odd]
  | succ halvings ih =>
    rw [onesFrom, countOnes]
    split
    · rfl
    · rw [List.length_append, ih, ih]

end CpuPlacement
