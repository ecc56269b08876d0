import CpuPlacement.Cache
import CpuPlacement.Descriptor
import CpuPlacement.Json.Value
import CpuPlacement.Text.Numeral

/-!
# Descriptors and caches in JSON

A list of descriptors is an array with a record for each CPU. The group, the node and the APIC id
may be left out or null, and are left out where a descriptor without them is written. Numbers have
to fit their fields: ids 32 bits, levels and associativities 8, line sizes 16, cache sizes 64. The
kind of a cache is its name, or an object with the name as its only field and null for its value.
-/

set_option autoImplicit false

namespace CpuPlacement

namespace Descriptor

/-- The fields of a descriptor, in the order in which they are written. -/
def fieldNames : List String :=
  ["socket_id", "core_id", "thread_id", "group_id", "numa_node_id", "apic_id"]

def ofJson? (value : Json.Value) : Option Descriptor := do
  let [socket, core, thread, group, node, apic] ← value.fields? fieldNames | none
  some
    { socketId := ← (← socket).natBelow? Numeral.idLimit
      coreId := ← (← core).natBelow? Numeral.idLimit
      threadId := ← (← thread).natBelow? Numeral.idLimit
      groupId := ← Json.Value.optionalNatBelow? Numeral.idLimit group
      nodeId := ← Json.Value.optionalNatBelow? Numeral.idLimit node
      apicId := ← Json.Value.optionalNatBelow? Numeral.idLimit apic }

/-- Reads a list of descriptors. -/
def listOfJson? (text : String) : Option (List Descriptor) :=
  match Json.parse? text with
  | some (.array items) => items.mapM ofJson?
  | _ => none

/-- A field that is written if there is something to write. -/
def jsonField (name : String) (value : Option Nat) : Option String :=
  value.map fun n => s!"\"{name}\":{n}"

def json (d : Descriptor) : String :=
  let values := [some d.socketId, some d.coreId, some d.threadId, d.groupId, d.nodeId, d.apicId]
  let fields := (fieldNames.zip values).filterMap fun (name, value) => jsonField name value
  "\x7b" ++ ",".intercalate fields ++ "\x7d"

/-- Writes a list of descriptors. -/
def jsonList (cpus : List Descriptor) : String :=
  "[" ++ ",".intercalate (cpus.map json) ++ "]"

end Descriptor

namespace CacheKind

def ofJson? : Json.Value → Option CacheKind
  | .text (some name) => ofName? name
  | .object [(some name, .null)] => ofName? name
  | _ => none

end CacheKind

namespace Cache

/-- The fields of a cache, in the order in which they are written. -/
def fieldNames : List String :=
  ["level", "cache_type", "size", "line_size", "associativity"]

def ofJson? (value : Json.Value) : Option Cache := do
  let [level, kind, size, lineSize, associativity] ← value.fields? fieldNames | none
  some
    { level := ← (← level).natBelow? (Numeral.limit 8)
      kind := ← CacheKind.ofJson? (← kind)
      size := ← (← size).natBelow? Numeral.wordLimit
      lineSize := ← (← lineSize).natBelow? (Numeral.limit 16)
      associativity := ← (← associativity).natBelow? (Numeral.limit 8) }

/-- Reads the parameters of a cache. -/
def ofJsonText? (text : String) : Option Cache :=
  (Json.parse? text).bind ofJson?

def json (c : Cache) : String :=
  s!"\x7b\"level\":{c.level},\"cache_type\":\"{c.kind.name}\",\"size\":{c.size},"
    ++ s!"\"line_size\":{c.lineSize},\"associativity\":{c.associativity}\x7d"

end Cache

end CpuPlacement
