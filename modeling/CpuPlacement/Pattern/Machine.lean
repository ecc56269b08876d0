/-!
# Room for a machine

A pattern is looked for by a machine that has a state for each byte it may read. It is made twice,
once to read the text forward and once to read it backward. The machine is never made here; what
counts is how many states it has and what room they take, in bytes.
-/

set_option autoImplicit false

namespace CpuPlacement.Pattern

/-- A machine may take so many bytes. -/
def sizeLimit : Nat := 10485760

/-- The room for a state. -/
def stateSize : Nat := 32

/-- The room for a way out of a state that has several, without a byte to read. -/
def branchSize : Nat := 4

/-- The room for a way out of a state that has several, on a range of bytes. -/
def stepSize : Nat := 8

/-- The direction in which the text is read. -/
inductive Direction where
  | forward
  | backward
deriving DecidableEq, Repr

/-- What a machine takes as far as it has been made. The states have the numbers from zero on. -/
structure Machine where
  states : Nat := 0
  bytes : Nat := 0
deriving DecidableEq, Repr

namespace Machine

/-- Adds some states, with so many bytes for their ways out. -/
def add (m : Machine) (states ways : Nat) : Machine :=
  ⟨m.states + states, m.bytes + stateSize * states + ways⟩

/-- Adds the states of another machine. -/
def append (m n : Machine) : Machine := ⟨m.states + n.states, m.bytes + n.bytes⟩

def isTooLarge (m : Machine) : Bool := sizeLimit < m.bytes

/-- Makes something so many times, or until the machine is too large. -/
def times (make : Machine → Machine) : Nat → Machine → Machine
  | 0, m => m
  | n + 1, m => if m.isTooLarge then m else times make n (make m)

end Machine

end CpuPlacement.Pattern
