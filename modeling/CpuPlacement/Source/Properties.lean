import CpuPlacement.Layout.OfDescriptors
import CpuPlacement.Source.Error
import CpuPlacement.Text.Blank
import CpuPlacement.Text.Parts

/-!
# Property files

A property file gives each CPU in a line `cpu=socket,core,thread`. Blank lines and lines that start
with `#` say nothing. The lines may come in any order, the last line for a CPU counts, and the list
of CPUs ends before the first number that no line defines.
-/

set_option autoImplicit false

namespace CpuPlacement.Properties

/-- The line says nothing: it is blank or a comment. -/
def isSilent (line : List Char) : Bool :=
  match line with
  | [] => true
  | c :: _ => c == '#'

/-- The CPU that a line defines, and its descriptor. -/
def entry (line : List Char) : Except SourceFault (Nat × Descriptor) := do
  let shown := String.ofList line
  let some (index, ids) := Text.cut '=' line | throw (.noAssignment shown)
  let index ← (Numeral.read Numeral.wordLimit (Text.trim index)).mapError fun _ =>
    .invalidIndex shown
  let ids ← ((Text.parts ',' ids).mapM fun id =>
    Numeral.read Numeral.idLimit (Text.trim id)).mapError fun _ => .invalidIds shown
  let [socket, core, thread] := ids | throw (.notThreeIds shown)
  return (index, { socketId := socket, coreId := core, threadId := thread })

/-- The entries of a text in the order of their lines. -/
def entries (text : List Char) : Except SourceFault (List (Nat × Descriptor)) :=
  (((Text.lines text).map Text.trim).filter (!isSilent ·)).mapM entry

/-- The descriptors of the CPUs from 0 on, as far as there is an entry for each; the last entry for
a CPU counts. -/
def collect (entries : List (Nat × Descriptor)) : List Descriptor :=
  let latest := entries.reverse
  ((List.range entries.length).map (latest.lookup ·)).takeWhile (·.isSome) |>.filterMap id

/-- Reads a property file. -/
def parse (text : String) : Except SourceFault (List Descriptor) :=
  (entries text.toList).map collect

/-- The layout that a property file describes. -/
def layout (text : String) : Except SourceError Layout := do
  (Layout.ofDescriptors (← (parse text).mapError .malformed)).mapError .layout

end CpuPlacement.Properties
