import CpuPlacement.Sorted
import CpuPlacement.Source.Error
import CpuPlacement.Text.Blank
import CpuPlacement.Text.Parts

/-!
# Range lists

The kernel lists CPUs as numbers and ascending ranges between commas: `0-3,8,10-11`. Entries may
overlap, come in any order and be empty; what the list stands for is the set of its CPUs.
-/

set_option autoImplicit false

namespace CpuPlacement.RangeList

/-- The first and the last CPU of an entry. -/
def span (entry : List Char) : Except SourceFault (Nat × Nat) := do
  let shown := String.ofList entry
  let number (text : List Char) : Except SourceFault Nat :=
    (Numeral.read Numeral.wordLimit (Text.trim text)).mapError fun _ => .invalidEntry shown
  match Text.cut '-' entry with
  | some (first, last) =>
    let first ← number first
    let last ← number last
    if last < first then throw (.descendingRange shown)
    return (first, last)
  | none =>
    let cpu ← number entry
    return (cpu, cpu)

/-- The entries of a list that are not empty, without the blanks around them. -/
def entries (text : List Char) : List (List Char) :=
  ((Text.parts ',' (Text.trim text)).map Text.trim).filter (!·.isEmpty)

/-- The CPUs of some spans, in ascending order and each once. -/
def collect (spans : List (Nat × Nat)) : List Nat :=
  let cpus := spans.flatMap fun (first, last) => List.range' first (last + 1 - first)
  withoutRepeats (· == ·) (sortedBy compare cpus)

/-- Reads a range list. -/
def parse (text : String) : Except SourceFault (List Nat) :=
  ((entries text.toList).mapM span).map collect

end CpuPlacement.RangeList
