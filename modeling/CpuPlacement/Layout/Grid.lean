import CpuPlacement.Layout.OfDescriptors
import CpuPlacement.Text.Blank
import CpuPlacement.Text.Parts

/-!
# Synthetic layouts

A regular machine is described by three counts, `sockets/cores/threads`: cores in each socket and
threads in each core. Its CPUs are numbered with the thread outermost, then the socket, then the
core, so that in `1/4/2` CPUs 2 and 6 are the two threads of core 2.

The flat layout, one socket with one thread for each core, stands in where no source can be read. It
is written down directly and needs no check.
-/

set_option autoImplicit false

namespace CpuPlacement.Layout

/-- The descriptors of a regular machine in the order of CPU numbers. Their ids are what an id has
room for of the counters. -/
def gridDescriptors (sockets cores threads : Nat) : List Descriptor :=
  (List.range threads).flatMap fun thread =>
    (List.range sockets).flatMap fun socket =>
      (List.range cores).map fun core =>
        { socketId := socket % Numeral.idLimit
          coreId := core % Numeral.idLimit
          threadId := thread % Numeral.idLimit }

/-- The counts of a description. -/
def descriptionCounts (text : List Char) : Except DescriptionFault (Nat × Nat × Nat) := do
  let counts ← ((Text.parts '/' text).mapM fun part =>
    Numeral.read Numeral.wordLimit (Text.trim part)).mapError .numeral
  match counts with
  | [sockets, cores, threads] =>
    if sockets = 0 ∨ cores = 0 ∨ threads = 0 then throw .zeroCount
    return (sockets, cores, threads)
  | _ => throw .notThreeCounts

/-- The layout of a description. -/
def ofDescription (description : String) : Except LayoutError Layout :=
  match descriptionCounts description.toList with
  | .ok (sockets, cores, threads) => ofDescriptors (gridDescriptors sockets cores threads)
  | .error cause => .error (.invalidDescription description cause)

/-- One socket of single-threaded cores, at least one. -/
def flat (cpus : Nat) : Layout :=
  let count := max cpus 1
  let range := List.range count
  { descriptors := range.map fun cpu => { socketId := 0, coreId := cpu, threadId := 0 }
    slots := range.map fun cpu => { socket := 0, core := cpu, node := none, group := none }
    cpuMasks := range.map (Mask.single count)
    groups := []
    nodes := []
    sockets := [⟨0, Mask.full count, .socket none⟩]
    cores := range.map fun cpu => ⟨cpu, Mask.single count cpu, .core 0⟩
    caches := []
    groupBases := []
    socketCount := 1
    coresPerSocket := count
    threadsPerCore := 1 }

end CpuPlacement.Layout
