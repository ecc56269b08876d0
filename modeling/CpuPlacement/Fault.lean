import CpuPlacement.Mask.Order
import CpuPlacement.Mask.Text

/-!
# Faults

A fault is a misuse of the library by its caller: two masks of different families compared, a
position that a group mask has no room for, a CPU that the layout does not have. Nothing is wrong
with the machine, so a fault is kept apart from the errors of building a layout or of asking the
operating system. The checked operations refuse exactly the faulty calls and otherwise answer as
the total operations do.
-/

set_option autoImplicit false

namespace CpuPlacement

/-- The operations that compare two masks. -/
inductive MaskOperation where
  | inter
  | subset
  | overlaps
  | dumpCmp
deriving DecidableEq, Repr

/-- The name of the operation in the text of a fault. -/
def MaskOperation.name : MaskOperation → String
  | inter => "and"
  | subset => "subset_of"
  | overlaps => "overlaps"
  | dumpCmp => "layout_cmp"

/-- A misuse by the caller. -/
inductive Fault where
  /-- Masks of different families were compared. -/
  | mixedMasks (operation : MaskOperation) (left right : Mask)
  /-- A group mask has no such position. -/
  | groupPosition (index : Nat)
  /-- The layout has no such CPU. -/
  | noCpu (cpus cpu : Nat)
deriving DecidableEq, Repr

/-- The wording of the fault. -/
def Fault.message : Fault → String
  | mixedMasks operation left right =>
    s!"mask representation mismatch in {operation.name}: {left.text} vs {right.text}"
  | groupPosition index => s!"group mask bit {index} out of range"
  | noCpu cpus cpu => s!"index out of bounds: the len is {cpus} but the index is {cpu}"

namespace Mask

/-- Answers only where the masks belong to one family. -/
def comparing {α : Type} (operation : MaskOperation) (a b : Mask) (answer : α) :
    Except Fault α :=
  if a.sameFamily b then .ok answer else .error (.mixedMasks operation a b)

def inter? (a b : Mask) : Except Fault Mask := comparing .inter a b (a.inter b)

def subset? (a b : Mask) : Except Fault Bool := comparing .subset a b (a.subset b)

def overlaps? (a b : Mask) : Except Fault Bool := comparing .overlaps a b (a.overlaps b)

def dumpCmp? (a b : Mask) : Except Fault Ordering := comparing .dumpCmp a b (a.dumpCmp b)

/-- Selects one position more, where the mask can have it. -/
def insert? (m : Mask) (index : Nat) : Except Fault Mask :=
  if m.isGroup && 64 ≤ index then .error (.groupPosition index) else .ok (m.insert index)

end Mask

end CpuPlacement
