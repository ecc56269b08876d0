import CpuPlacement.Mask.Basic

/-!
# The text of a mask

A mask is written byte by byte, the most significant byte first, with points between. A byte with
every bit set is `FF`, one with none is `OO`, any other is its eight binary digits. Neighbouring
full bytes, and neighbouring empty ones, are written once with their number: `OOx3.FF`. A group mask
starts with its group, `g1:`.

The bytes of a number are found by cutting it into halves; the main statement says which digits each
of them holds.
-/

set_option autoImplicit false

namespace CpuPlacement.Mask

/-- How many bytes the text of the mask covers: a bit-set has at least one. -/
def byteCount : Mask → Nat
  | bitset length _ => max 1 ((length + 7) / 8)
  | group _ _ => 8

/-- The lowest bytes of a number, most significant first: as many as so many halvings leave single
bytes. -/
def bytesOf : Nat → Nat → List Nat
  | 0, n => [n % 256]
  | halvings + 1, n =>
    let half := 8 <<< halvings
    bytesOf halvings (n >>> half) ++ bytesOf halvings (n % (1 <<< half))

/-- The bytes of the mask, most significant first. -/
def bytes (m : Mask) : List Nat :=
  let halvings := m.byteCount.log2 + 1
  (bytesOf halvings m.number).drop ((1 <<< halvings) - m.byteCount)

/-- The byte is written as a run: it is full or empty. -/
def isRunByte (byte : Nat) : Bool :=
  byte == 0xFF || byte == 0

/-- Neighbouring equal run bytes counted together, every other byte by itself. -/
def runs : List Nat → List (Nat × Nat)
  | [] => []
  | byte :: rest =>
    match runs rest with
    | (next, count) :: others =>
      if isRunByte byte && byte == next then (byte, count + 1) :: others
      else (byte, 1) :: (next, count) :: others
    | [] => [(byte, 1)]

/-- The eight binary digits of a byte. -/
def binaryDigits (byte : Nat) : String :=
  String.ofList ((List.range 8).reverse.map fun i => if byte.testBit i then '1' else '0')

/-- The text of a byte and its number of repetitions. -/
def runText : Nat × Nat → String
  | (byte, count) =>
    let token := if byte == 0xFF then "FF" else if byte == 0 then "OO" else binaryDigits byte
    if count = 1 then token else token ++ "x" ++ toString count

/-- The text of the mask. -/
def text (m : Mask) : String :=
  let body := ".".intercalate ((runs m.bytes).map runText)
  match m with
  | bitset _ _ => body
  | group id _ => s!"g{id}:" ++ body

/-- The bytes come out from the most significant one down. -/
theorem bytesOf_eq (halvings n : Nat) :
    bytesOf halvings n =
      (List.range (1 <<< halvings)).reverse.map fun i => (n >>> (8 * i)) % 256 := by
  -- the upper half of the number is written first, shifted down by half of the bytes
  induction halvings generalizing n with
  | zero => simp [bytesOf]
  | succ halvings ih =>
    have double : 1 <<< (halvings + 1) = 1 <<< halvings + 1 <<< halvings := by
      rw [Nat.shiftLeft_succ, Nat.two_mul]
    have half : 8 <<< halvings = 8 * 1 <<< halvings := by
      rw [Nat.shiftLeft_eq, Nat.one_shiftLeft]
    rw [bytesOf, ih, ih, double, List.range_add, List.reverse_append, List.map_append, half,
      Nat.one_shiftLeft (8 * _)]
    congr 1
    · rw [← List.map_reverse, List.map_map]
      refine List.map_congr_left fun i _ => ?_
      rw [Function.comp_apply, ← Nat.shiftRight_add, Nat.mul_add]
    · refine List.map_congr_left fun i mem => ?_
      have below : i < 1 <<< halvings := List.mem_range.mp (List.mem_reverse.mp mem)
      refine Nat.eq_of_testBit_eq fun j => ?_
      rw [show 256 = 2 ^ 8 from rfl, Nat.testBit_mod_two_pow, Nat.testBit_mod_two_pow,
        Nat.testBit_shiftRight, Nat.testBit_shiftRight, Nat.testBit_mod_two_pow]
      by_cases inByte : j < 8
      · rw [decide_eq_true (show 8 * i + j < 8 * 1 <<< halvings by omega), Bool.true_and]
      · simp [inByte]

/-- Each byte holds eight digits of the number. -/
theorem bytes_eq (m : Mask) :
    m.bytes = (List.range m.byteCount).reverse.map fun i => (m.number >>> (8 * i)) % 256 := by
  have room : m.byteCount < 1 <<< (m.byteCount.log2 + 1) := by
    rw [Nat.one_shiftLeft]
    exact Nat.lt_log2_self
  obtain ⟨more, split⟩ := Nat.le.dest (Nat.le_of_lt room)
  rw [bytes, bytesOf_eq, ← split, List.range_add, List.reverse_append,
    List.map_append, List.drop_left']
  simp

end CpuPlacement.Mask
