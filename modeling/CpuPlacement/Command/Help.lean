import CpuPlacement.Command.Arguments
import CpuPlacement.Text.Parts
import CpuPlacement.Text.Terminal

/-!
# Help and version

The help lists every option with what it does, in one column, and the values that hold where the
option is not given. A value from the environment may have several lines, which stay in the column.
For a terminal the options are in bold type; what is printed elsewhere has no control sequences,
whether they come from that or from the environment.
-/

set_option autoImplicit false

namespace CpuPlacement.Command

/-- The name of the command. -/
def commandName : String := "affinity-cli"

/-- The variable of the environment that may name the reserved CPUs. -/
def reservedVariable : String := "AFFINITY_RESERVED"

namespace Flag

/-- What the option does. -/
def purpose : Flag → String
  | desc => "Synthetic layout as sockets/cores-per-socket/threads-per-core, e.g. 2/8/2"
  | descriptors => "JSON array of logical CPU descriptors"
  | cpuinfo => "A saved /proc/cpuinfo"
  | properties => "A cpu=socket,core,thread properties file"
  | reserved => "Reserved CPUs as a hex mask, most significant digit first"
  | locks => "Print the lock table"
  | acquire => "Reserve this many CPUs for the main thread before printing the lock table"
  | strategy =>
    "Placement of each reservation relative to the previous ones, tried in order, "
      ++ "e.g. same_core,same_socket,any"
  | cores => "Reserve whole cores instead of single CPUs"
  | bind => "Bind the main thread natively to each reservation"
  | help => "Print help"
  | version => "Print version"

/-- What holds where the option is not given. -/
def fallback (environment : Option String) : Flag → String
  | reserved => " [env: " ++ reservedVariable ++ "=" ++ environment.getD "" ++ "]"
  | acquire => " [default: 0]"
  | strategy => " [default: any]"
  | _ => ""

/-- The forms of the option, short and long, and the placeholder for its value. -/
def forms (f : Flag) : String :=
  let short := match f.short? with
    | some c => Text.bold s!"-{c}" ++ ", "
    | none => "    "
  let value := if f.takesValue then s!" <{f.long.toUpper}>" else ""
  short ++ Text.bold s!"--{f.long}" ++ value

/-- The text of an option, with the forms padded to a common width. Further lines start where the
first one has got to behind the forms. -/
def helpLine (environment : Option String) (width : Nat) (f : Flag) : String :=
  let padding := "".pushn ' ' (width - f.usage.length + 2)
  let indent := "\n".pushn ' ' (width + 8)
  let lines := (Text.parts '\n' (f.purpose ++ f.fallback environment).toList).map String.ofList
  "  " ++ f.forms ++ padding ++ indent.intercalate lines ++ "\n"

end Flag

/-- The text of the help, for a terminal. -/
def styledHelp (environment : Option String) : String :=
  let width := (Flag.all.map (·.usage.length)).foldl max 0
  "Prints the CPU layout the allocator sees, its entity tree and the lock table\n\n"
    ++ s!"Usage: {commandName} [OPTIONS]\n\nOptions:\n"
    ++ String.join (Flag.all.map (Flag.helpLine environment width))

/-- The text of the help. -/
def helpText (environment : Option String) : String :=
  Text.withoutControls (styledHelp environment)

/-- The text of the version. -/
def versionText : String :=
  s!"{commandName} 0.1.0\n"

/-- The text of a mistake in the arguments. -/
def UsageError.text (e : UsageError) : String :=
  e.message ++ s!"\n\nUsage: {commandName} [OPTIONS]\n\nFor more information, try '--help'.\n"

end CpuPlacement.Command
