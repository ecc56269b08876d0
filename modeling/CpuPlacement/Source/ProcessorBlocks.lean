import CpuPlacement.Layout.OfDescriptors
import CpuPlacement.Source.Error
import CpuPlacement.Text.Blank
import CpuPlacement.Text.Parts

/-!
# Processor blocks

The kernel describes its processors in blocks of `key : value` lines with blank lines between. The
lines are read one by one. The first line of a block that has a colon starts a CPU, every further
one may give it an id, and the blank line or the end of the text after it closes it. `physical id`
is its socket, `core id` its core, `apicid` its APIC id, and of a repeated key the last line counts;
other lines say nothing. A CPU without a socket is on socket 0, and one without a core has its own
position for a core id. A CPU that is closed is the next thread of its core.
-/

set_option autoImplicit false

namespace CpuPlacement.ProcessorBlocks

/-- What a block says of its CPU, before the threads are counted. -/
structure Processor where
  socketId : Nat
  coreId : Nat
  apicId : Option Nat
deriving DecidableEq, Repr

/-- The descriptor of the processor as a thread of its core. -/
def Processor.thread (p : Processor) (threadId : Nat) : Descriptor :=
  { socketId := p.socketId, coreId := p.coreId, threadId, apicId := p.apicId }

/-- The trimmed key and value of a line with a colon. -/
def field? (line : List Char) : Option (List Char × List Char) :=
  (Text.cut ':' line).map fun (key, value) => (Text.trim key, Text.trim value)

/-- The number in a field. -/
def number (key value : List Char) : Except SourceFault Nat :=
  (Numeral.read Numeral.idLimit value).mapError fun _ =>
    .invalidField (String.ofList key) (String.ofList value)

/-- What a field says about a processor. -/
def Processor.set (p : Processor) (field : List Char × List Char) : Except SourceFault Processor :=
  let (key, value) := field
  if key = "physical id".toList then return { p with socketId := ← number key value }
  else if key = "core id".toList then return { p with coreId := ← number key value }
  else if key = "apicid".toList then return { p with apicId := some (← number key value) }
  else return p

/-- What is known between two lines. -/
structure Progress where
  /-- The CPUs that are closed. -/
  cpus : List Descriptor
  /-- How many of them are on a core, given by socket and core id. Of the entries of one core the
  first counts. -/
  counts : List ((Nat × Nat) × Nat)
  /-- The CPU of the block that is being read, once a line of it has a colon. -/
  current : Option Processor

namespace Progress

/-- What is known before the first line. -/
def start : Progress :=
  ⟨[], [], none⟩

/-- How many CPUs that are closed are on the core. -/
def count (s : Progress) (core : Nat × Nat) : Nat :=
  (s.counts.lookup core).getD 0

/-- Closes the CPU that is being read, if there is one, as the next thread of its core. -/
def finish (s : Progress) : Progress :=
  match s.current with
  | none => s
  | some p =>
    let core := (p.socketId, p.coreId)
    { cpus := s.cpus ++ [p.thread (s.count core)]
      counts := (core, s.count core + 1) :: s.counts
      current := none }

/-- Reads a line. -/
def read (s : Progress) (line : List Char) : Except SourceFault Progress :=
  if Text.isAllBlank line then return s.finish
  else match field? line with
    | none => return s
    | some field => do
      let p := s.current.getD ⟨0, s.cpus.length, none⟩
      return { s with current := some (← p.set field) }

end Progress

/-- Reads processor blocks. -/
def parse (text : String) : Except SourceFault (List Descriptor) := do
  let s ← (Text.lines text.toList).foldlM Progress.read Progress.start
  return s.finish.cpus

/-- The layout that processor blocks describe. -/
def layout (text : String) : Except SourceError Layout := do
  (Layout.ofDescriptors (← (parse text).mapError .malformed)).mapError .layout

end CpuPlacement.ProcessorBlocks
