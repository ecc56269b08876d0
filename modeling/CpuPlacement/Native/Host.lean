import CpuPlacement.Layout.Retry
import CpuPlacement.Native.Kernel
import CpuPlacement.Policy
import CpuPlacement.Source.ProcessorBlocks
import CpuPlacement.Source.RangeList

/-!
# The running machine

What there is to know about the machine that the library runs on: its kernel, and the texts in which
the kernel describes the processors and lists the CPUs that are isolated from the scheduler. A list
that cannot be read isolates nothing, and where the description of the processors makes no layout, a
flat one over the CPUs that are online takes its place.
-/

set_option autoImplicit false

namespace CpuPlacement

/-- A Linux machine. -/
structure Host where
  kernel : Kernel
  /-- The blocks that describe the processors. -/
  processors : String
  /-- The range list of the isolated CPUs, if it can be read. -/
  isolated : Option String

namespace Host

/-- A machine of single-threaded cores on one socket, with nothing isolated. -/
def plain (cpus : Nat) : Host where
  kernel := Kernel.new cpus
  processors := String.join ((List.range cpus).map fun cpu =>
    s!"processor\t: {cpu}\nphysical id\t: 0\ncore id\t\t: {cpu}\n\n")
  isolated := some "\n"

/-! ## What the kernel publishes -/

/-- The range list of the CPUs that are online. -/
def onlinePath : String := "/sys/devices/system/cpu/online"

/-- The range list of the CPUs that are isolated from the scheduler. -/
def isolatedPath : String := "/sys/devices/system/cpu/isolated"

/-- The blocks that describe the processors. -/
def processorsPath : String := "/proc/cpuinfo"

/-- What the kernel says about the process itself, a field in each line. -/
def statusPath : String := "/proc/self/status"

/-- The files that a machine is read from. -/
def paths : List String := [onlinePath, isolatedPath, processorsPath, statusPath]

/-- The CPUs of a range list; none where the list is missing or malformed. -/
def listed (text : Option String) : List Nat :=
  (text.bind fun text => (RangeList.parse text).toOption).getD []

/-- A field of the status of the process. -/
def statusField? (status name : String) : Option String :=
  let fields := (Text.lines status.toList).filterMap ProcessorBlocks.field?
  (fields.lookup name.toList).map String.ofList

/-- The machine that the texts of these files describe. It has at least one CPU, and the process may
use all of them unless its status says otherwise. -/
def ofTexts (texts : List (String × String)) : Host :=
  let online := max (listed (texts.lookup onlinePath)).length 1
  let status (name : String) := (texts.lookup statusPath).bind (statusField? · name)
  let named := listed (status "Cpus_allowed_list")
  { kernel :=
      { Kernel.new online with
        allowed := if named.isEmpty then List.range online else named
        processNumber := ((status "Pid").bind String.toNat?).getD 1 }
    processors := (texts.lookup processorsPath).getD ""
    isolated := texts.lookup isolatedPath }

/-! ## What follows from it -/

/-- The CPUs that are online, and those of them that are isolated. -/
def machine (h : Host) : Machine :=
  Machine.new h.kernel.online ((listed h.isolated).filter (· < h.kernel.online))

/-- The layout of the machine. -/
def layout (h : Host) : Layout :=
  (Layout.buildWithRetry (fun _ => ProcessorBlocks.layout h.processors) Layout.defaultAttempts
    h.machine.cpus).layout

end Host

end CpuPlacement
