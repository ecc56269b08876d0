import CpuPlacement.Command.Arguments
import CpuPlacement.Command.Failure
import CpuPlacement.Command.Files
import CpuPlacement.Command.Help
import CpuPlacement.Command.LogFilter
import CpuPlacement.Json.Descriptor
import CpuPlacement.Layout.Grid
import CpuPlacement.Layout.Location
import CpuPlacement.Native.Host
import CpuPlacement.Native.Simulated
import CpuPlacement.Reservation.Release
import CpuPlacement.Source.Properties

/-!
# Running the command

The command prints a layout, its entities in listing order and the lock table. On the way it may
reserve CPUs, or cores, for its main thread, which holds them until the end. A layout that is given
on the command line is worked on with a simulated machine; without one the command works on the
running machine.
-/

set_option autoImplicit false

namespace CpuPlacement.Command

/-- What the command finds around it. -/
structure Surroundings where
  files : Files
  host : Host
  /-- The value of the variable that may name the reserved CPUs. -/
  reserved : Option String
  /-- The value of the variable that may say what is logged. -/
  logging : Option String

/-- What the command leaves behind. -/
structure Report where
  exitCode : Nat
  output : String
  /-- What is printed as an error. -/
  errors : String
  log : List LogLine
  /-- What is printed as a warning, before anything is logged. -/
  warnings : List String := []

/-! ## The layout -/

/-- The text of a file that the command line names. -/
def readText (files : Files) (path : String) (doing : String) : Except Failure String :=
  (files path).mapError fun error => ⟨s!"{doing} {path}", [error.message]⟩

/-- The layout of a source file. A file that cannot be read is named both by what it means for the
source and by itself. -/
def loadLayout (files : Files) (path : String) (read : String → Except SourceError Layout) :
    Except Failure Layout :=
  let doing := s!"loading {path}"
  match files path with
  | .error error => .error ⟨doing, [s!"I/O error: {error.message}", error.message]⟩
  | .ok text => (read text).mapError fun error => ⟨doing, [error.message]⟩

/-- The layout that the command line gives. -/
def describedLayout (files : Files) : LayoutSource → Except Failure Layout
  | .description text =>
    (Layout.ofDescription text).mapError fun error =>
      ⟨s!"invalid layout description {text}", [error.message]⟩
  | .descriptorList path => do
    let text ← readText files path "reading"
    let some cpus := Descriptor.listOfJson? text | throw ⟨s!"parsing {path}", []⟩
    (Layout.ofDescriptors cpus).mapError fun error => ⟨error.message, []⟩
  | .processorBlocks path => loadLayout files path ProcessorBlocks.layout
  | .propertyFile path => loadLayout files path Properties.layout

/-! ## The reservations -/

/-- The threads of the command: there is one. -/
def mainRoster : Roster :=
  ⟨[⟨some "main", true⟩]⟩

def mainThread : ThreadId := ⟨1⟩

/-- What is printed about the reservations and the locks. -/
def lockReport {σ : Type} (arguments : Arguments) (series : Series σ) : String :=
  let held := series.held
  let shortage :=
    if series.exhausted then s!"No CPU left after {held.length} reservations\n" else ""
  let listed := if held.isEmpty then "" else s!"Reserved cpus: {Log.numberList held}\n\n"
  let table :=
    if arguments.locks || !held.isEmpty then series.inventory.text mainRoster ++ "\n" else ""
  shortage ++ listed ++ table

/-- Works on a layout: prints it, makes the reservations, prints the locks and releases them. -/
def work {σ : Type} (arguments : Arguments) (origin : String) (backend : Backend σ) (native : σ)
    (callLog : Log.CallLog) (layout : Layout) (policy : Policy) : Report :=
  let who := mainRoster.text mainThread
  let inventory := Inventory.new layout policy
  let demand : Demand := ⟨arguments.cores, arguments.bind, arguments.strategies⟩
  let series := inventory.acquireSeries backend native mainRoster.alive mainThread demand []
    arguments.acquire
  let release := series.inventory.release backend series.native mainRoster.alive mainThread
  { exitCode := 0
    output := layout.text ++ "\n" ++ layout.dump ++ "\n" ++ lockReport arguments series
    errors := ""
    log :=
      ⟨.info, LogLine.commandTarget, s!"Using {origin} layout of {layout.cpus} cpus"⟩
        :: Log.locks inventory
        ++ series.attempts.flatMap (fun (inventory, outcome) =>
          Log.acquired callLog who arguments.cores inventory outcome)
        ++ Log.released callLog who mainThread series.inventory release }

/-- The command could not do its work. -/
def failed (failure : Failure) (log : List LogLine) : Report where
  exitCode := 1
  output := ""
  errors := failure.text ++ "\n"
  log

/-! ## The command -/

/-- Works on the layout that the command line gives. -/
def workDescribed (arguments : Arguments) (files : Files) (source : LayoutSource) : Report :=
  match describedLayout files source with
  | .error failure => failed failure []
  | .ok layout =>
    let before := [Log.assembled layout]
    match Policy.resolve layout.cpus none arguments.reserved with
    | .error malformed => failed ⟨malformed.message, []⟩ before
    | .ok policy =>
      let report := work arguments "described" Simulated.backend (Simulated.forLayout layout)
        (Log.simulatedCall mainThread) layout policy
      { report with
        log := before ++ Log.resolved layout.cpus none arguments.reserved ++ report.log }

/-- The policy on the running machine: reserved CPUs that are named go with the affinity of the
process, others with the isolated CPUs. -/
def hostPolicy (arguments : Arguments) (host : Host) (layout : Layout) :
    Except MalformedHex Policy :=
  let affinity := Kernel.backend.mask host.kernel mainThread
  match arguments.reserved with
  | some text => Policy.resolve layout.cpus (Policy.baseOf? affinity) (some text)
  | none => .ok (host.machine.policy affinity none)

/-- Works on the layout of the running machine. -/
def workDetected (arguments : Arguments) (host : Host) : Report :=
  let layout := host.layout
  match hostPolicy arguments host layout with
  | .error malformed => failed ⟨malformed.message, []⟩ []
  | .ok policy =>
    work arguments "detected" Kernel.backend host.kernel (fun _ _ => []) layout policy

/-- Does what the arguments ask for. The report has every line of the log. -/
def carryOut (arguments : List String) (around : Surroundings) : Report :=
  match Request.ofArguments arguments around.reserved with
  | .error mistake => { exitCode := 2, output := "", errors := mistake.text, log := [] }
  | .ok .help =>
    { exitCode := 0, output := helpText around.reserved, errors := "", log := [] }
  | .ok .version => { exitCode := 0, output := versionText, errors := "", log := [] }
  | .ok (.run arguments) =>
    match arguments.source with
    | some source => workDescribed arguments around.files source
    | none => workDetected arguments around.host

/-- Runs the command with its arguments. -/
def run (arguments : List String) (around : Surroundings) : Report :=
  let (filter, warnings) := LogFilter.ofSetting around.logging
  let report := carryOut arguments around
  { report with log := report.log.filter filter.admits, warnings }

end CpuPlacement.Command
