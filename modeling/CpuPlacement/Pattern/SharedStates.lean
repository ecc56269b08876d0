import CpuPlacement.Pattern.Encoding
import CpuPlacement.Pattern.Machine
import Std.Data.HashMap

/-!
# States for the characters of a set

The bytes of a set of characters ask for many states that are alike, and one does for all of them.
Forward, states are alike that have the same ways out; backward, those that lead to the same state
on the same bytes. The states that have been made are kept in a table with a fixed number of places.
What a state is like tells its place, and a state takes the place of the one that was there; a state
that is no longer in the table is made again.
-/

set_option autoImplicit false

namespace CpuPlacement.Pattern

/-- The states that have been made for a set, by what they are like: some numbers. -/
structure StateTable where
  size : Nat
  entries : Std.HashMap Nat (List Nat × Nat)

namespace StateTable

def empty (size : Nat) : StateTable := ⟨size, {}⟩

/-- The place of a state: a sum over its numbers that mixes all of their bits. -/
def place (t : StateTable) (numbers : List Nat) : Nat :=
  let sum := numbers.foldl
    (fun (sum : UInt64) n => (sum ^^^ UInt64.ofNat n) * 0x100000001B3) 0xCBF29CE484222325
  sum.toNat % t.size

/-- The state with these numbers. -/
def find? (t : StateTable) (numbers : List Nat) : Option Nat := do
  let (others, state) ← t.entries[t.place numbers]?
  if others = numbers then return state
  none

/-- Puts a state with these numbers at its place. -/
def insert (t : StateTable) (numbers : List Nat) (state : Nat) : StateTable :=
  { t with entries := t.entries.insert (t.place numbers) (numbers, state) }

end StateTable

namespace SharedStates

/-- Making states that are to be shared. -/
abbrev Sharing := StateM (Machine × StateTable)

/-- The state with some numbers, which is made if it is not in the table. -/
def state (numbers : List Nat) (ways : Nat) : Sharing Nat := do
  let (m, t) ← get
  match t.find? numbers with
  | some state => return state
  | none =>
    set (m.add 1 ways, t.insert numbers m.states)
    return m.states

/-- The state that reads one of the sequences and leads to another state. The number bounds the
bytes of a sequence. -/
def forward (target : Nat) : Nat → List ByteRanges → Sharing Nat
  | 0, _ => return target
  | bound + 1, sequences => do
    let ways ← (Encoding.byFirst sequences).mapM fun ((low, high), follow) => do
      let next ← if follow = [[]] then pure target else forward target bound follow
      return [low, high, next]
    state ways.flatten (stepSize * ways.length)

/-- The state that reads a sequence from its end and leads to another state. -/
def backward (target : Nat) (sequence : ByteRanges) : Sharing Nat :=
  sequence.foldlM (fun target (low, high) => state [target, low, high] 0) target

/-- The sizes of the table, for reading forward and backward. -/
def tableSize : Direction → Nat
  | .forward => 10000
  | .backward => 1000

/-- Adds the states for a character of which the bytes are one of the sequences. Forward there is a
state behind them; backward there is one before them, too, which leads to each sequence. -/
def addTo (d : Direction) (sequences : List ByteRanges) (m : Machine) : Machine :=
  let table := StateTable.empty (tableSize d)
  match d with
  | .forward =>
    let making := forward m.states Encoding.mostBytes sequences
    (making.run (m.add 1 0, table)).2.1
  | .backward =>
    let making := sequences.forM fun sequence => do
      let _ ← backward (m.states + 1) sequence
    (making.run (m.add 2 (branchSize * sequences.length), table)).2.1

end SharedStates

end CpuPlacement.Pattern
