/-!
# Logical CPU descriptors

A descriptor is what a topology source says about one logical CPU: the socket, the core within the
socket and the thread within the core, and where the source knows them the processor group, the
NUMA node and the APIC id. A source lists its descriptors by CPU number, without gaps, so the
position of a descriptor is the number of its CPU.
-/

set_option autoImplicit false

namespace CpuPlacement

/-- What a topology source says about one logical CPU. -/
structure Descriptor where
  socketId : Nat
  coreId : Nat
  threadId : Nat
  groupId : Option Nat := none
  nodeId : Option Nat := none
  apicId : Option Nat := none
deriving DecidableEq, Repr

namespace Descriptor

/-- An optional part of a text. -/
def optionalPart (before : String) (value : Option Nat) (after : String) : String :=
  match value with
  | some n => before ++ toString n ++ after
  | none => ""

/-- The text of a descriptor. -/
def text (d : Descriptor) : String :=
  "CpuInfo\x7b" ++ optionalPart "apicId=" d.apicId ", "
    ++ s!"socketId={d.socketId}, coreId={d.coreId}, threadId={d.threadId}"
    ++ optionalPart ", numaId=" d.nodeId "" ++ optionalPart ", groupId=" d.groupId "" ++ "\x7d"

/-- One line for each CPU: its number and its descriptor. -/
def listing (cpus : List Descriptor) : String :=
  String.join (cpus.zipIdx.map fun (d, cpu) => s!"{cpu}: {d.text}\n")

end Descriptor

end CpuPlacement
