import CpuPlacement.Strategy
import CpuPlacement.Text.Numeral
import CpuPlacement.Text.Parts

/-!
# The command line

An argument that starts with two hyphens is a long option, whose value may follow after an equals
sign; one that starts with a single hyphen is a row of short options, of which the last may have its
value attached, with or without an equals sign. An option that still lacks its value takes the next
argument, unless that is an option itself. There are no other arguments.

The arguments are read from left to right, and the first that settles the matter does so: a mistake,
or a request for help or for the version. Only options that may occur once are refused a second
time, and the sources of a layout exclude each other.
-/

set_option autoImplicit false

namespace CpuPlacement.Command

/-- The options of the command. -/
inductive Flag where
  | desc
  | descriptors
  | cpuinfo
  | properties
  | reserved
  | locks
  | acquire
  | strategy
  | cores
  | bind
  | help
  | version
deriving DecidableEq, Repr

namespace Flag

/-- The options in the order in which they are explained. -/
def all : List Flag :=
  [desc, descriptors, cpuinfo, properties, reserved, locks, acquire, strategy, cores, bind, help,
    version]

def long : Flag → String
  | desc => "desc"
  | descriptors => "descriptors"
  | cpuinfo => "cpuinfo"
  | properties => "properties"
  | reserved => "reserved"
  | locks => "locks"
  | acquire => "acquire"
  | strategy => "strategy"
  | cores => "cores"
  | bind => "bind"
  | help => "help"
  | version => "version"

def short? : Flag → Option Char
  | desc => some 'd'
  | reserved => some 'r'
  | locks => some 'l'
  | acquire => some 'a'
  | strategy => some 's'
  | bind => some 'b'
  | help => some 'h'
  | version => some 'V'
  | _ => none

def takesValue : Flag → Bool
  | locks | cores | bind | help | version => false
  | _ => true

/-- The option may occur more than once. -/
def repeatable (f : Flag) : Bool :=
  f = strategy

/-- The option says where the layout comes from. -/
def isSource : Flag → Bool
  | desc | descriptors | cpuinfo | properties => true
  | _ => false

/-- The option with a placeholder for its value. -/
def usage (f : Flag) : String :=
  if f.takesValue then s!"--{f.long} <{f.long.toUpper}>" else s!"--{f.long}"

def ofLong? (name : List Char) : Option Flag :=
  all.find? fun f => f.long.toList == name

def ofShort? (c : Char) : Option Flag :=
  all.find? fun f => f.short? == some c

end Flag

/-- A mistake in the arguments. -/
inductive UsageError where
  | unexpected (argument : String)
  | missingValue (flag : Flag)
  | needlessValue (flag : Flag) (value : String)
  | invalidValue (flag : Flag) (value reason : String)
  | again (flag : Flag)
  | conflict (first second : Flag)
deriving DecidableEq, Repr

/-- The wording of the mistake. -/
def UsageError.message : UsageError → String
  | unexpected argument => s!"error: unexpected argument '{argument}' found"
  | missingValue flag => s!"error: a value is required for '{flag.usage}' but none was supplied"
  | needlessValue flag value =>
    s!"error: unexpected value '{value}' for '{flag.usage}' found; no more were expected"
  | invalidValue flag value reason =>
    s!"error: invalid value '{value}' for '{flag.usage}': {reason}"
  | again flag => s!"error: the argument '{flag.usage}' cannot be used multiple times"
  | conflict first second =>
    s!"error: the argument '{first.usage}' cannot be used with '{second.usage}'"

/-- Where the layout comes from. -/
inductive LayoutSource where
  | description (text : String)
  | descriptorList (path : String)
  | processorBlocks (path : String)
  | propertyFile (path : String)
deriving DecidableEq, Repr

/-- The file that the layout is read from. -/
def LayoutSource.path? : LayoutSource → Option String
  | description _ => none
  | descriptorList path => some path
  | processorBlocks path => some path
  | propertyFile path => some path

/-- What the command is to do. -/
structure Arguments where
  /-- The source of the layout; without one it is the layout of the running machine. -/
  source : Option LayoutSource := none
  /-- The reserved CPUs in hexadecimal. -/
  reserved : Option String := none
  /-- Print the lock table even if nothing is reserved. -/
  locks : Bool := false
  /-- The number of reservations. -/
  acquire : Nat := 0
  /-- The strategies in order, as far as they are given. -/
  strategies : List Strategy := []
  cores : Bool := false
  bind : Bool := false
deriving DecidableEq, Repr

/-- What the arguments ask for. -/
inductive Request where
  | help
  | version
  | run (arguments : Arguments)

/-! ## Values -/

/-- The strategies of a value, which are separated by commas. -/
def strategiesOf (value : String) : Except UnknownStrategy (List Strategy) :=
  (Text.parts ',' value.toList).mapM fun name => Strategy.ofText (String.ofList name)

/-- A path must not be empty. -/
def pathOf (flag : Flag) (value : String) : Except UsageError String :=
  if value.isEmpty then .error (.invalidValue flag value "a value is required") else .ok value

/-- Takes over an option and its value. -/
def Arguments.set (a : Arguments) (flag : Flag) (value : String) : Except UsageError Arguments :=
  match flag with
  | .desc => .ok { a with source := some (.description value) }
  | .descriptors => return { a with source := some (.descriptorList (← pathOf flag value)) }
  | .cpuinfo => return { a with source := some (.processorBlocks (← pathOf flag value)) }
  | .properties => return { a with source := some (.propertyFile (← pathOf flag value)) }
  | .reserved => .ok { a with reserved := some value }
  | .locks => .ok { a with locks := true }
  | .acquire =>
    match Numeral.read Numeral.wordLimit value.toList with
    | .ok count => .ok { a with acquire := count }
    | .error reason => .error (.invalidValue flag value reason.message)
  | .strategy =>
    match strategiesOf value with
    | .ok strategies => .ok { a with strategies := a.strategies ++ strategies }
    | .error unknown => .error (.invalidValue flag value unknown.message)
  | .cores => .ok { a with cores := true }
  | .bind => .ok { a with bind := true }
  | .help | .version => .ok a

/-! ## Reading the arguments -/

/-- How far the arguments have been read. -/
structure Reading where
  arguments : Arguments := {}
  /-- The options that have occurred. -/
  seen : List Flag := []
  /-- The option that waits for its value. -/
  pending : Option Flag := none
  /-- Options have been declared to be at an end. -/
  closed : Bool := false

/-- Why reading the arguments stops early. -/
inductive Stop where
  | mistake (error : UsageError)
  | help
  | version

namespace Reading

/-- An option has occurred, with its value if it takes one. -/
def occur (r : Reading) (flag : Flag) (value : String) : Except Stop Reading := do
  if flag = .help then throw .help
  if flag = .version then throw .version
  if r.seen.contains flag && !flag.repeatable then throw (.mistake (.again flag))
  let arguments ← (r.arguments.set flag value).mapError .mistake
  return { r with arguments, seen := r.seen ++ [flag], pending := none }

/-- No option is left without its value. -/
def settle (r : Reading) : Except Stop Unit :=
  match r.pending with
  | some flag => .error (.mistake (.missingValue flag))
  | none => .ok ()

/-- A long option, given without its hyphens. -/
def long (r : Reading) (argument : String) (body : List Char) : Except Stop Reading := do
  let (name, value?) := match Text.cut '=' body with
    | some (name, value) => (name, some (String.ofList value))
    | none => (body, none)
  let some flag := Flag.ofLong? name | throw (.mistake (.unexpected argument))
  r.settle
  match flag.takesValue, value? with
  | true, some value => r.occur flag value
  | true, none => return { r with pending := some flag }
  | false, some value => throw (.mistake (.needlessValue flag value))
  | false, none => r.occur flag ""

/-- A row of short options, given without its hyphen. -/
def shorts (r : Reading) (argument : String) : List Char → Except Stop Reading
  | [] => .ok r
  | c :: rest => do
    let some flag := Flag.ofShort? c | throw (.mistake (.unexpected argument))
    r.settle
    if flag.takesValue then
      match rest with
      | [] => return { r with pending := some flag }
      | '=' :: value => r.occur flag (String.ofList value)
      | value => r.occur flag (String.ofList value)
    else
      let r ← r.occur flag ""
      r.shorts argument rest

/-- Reads one argument. -/
def step (r : Reading) (argument : String) : Except Stop Reading :=
  if r.closed then .error (.mistake (.unexpected argument))
  else
    match argument.toList with
    | ['-', '-'] => .ok { r with closed := true }
    | '-' :: '-' :: body => r.long argument body
    | '-' :: c :: body => r.shorts argument (c :: body)
    | _ =>
      match r.pending with
      | some flag => r.occur flag argument
      | none => .error (.mistake (.unexpected argument))

/-- The first two sources of a layout, which exclude each other. -/
def clash? (r : Reading) : Option UsageError :=
  match r.seen.filter (·.isSource) with
  | first :: second :: _ => some (.conflict first second)
  | _ => none

/-- The arguments have ended. The environment may name the reserved CPUs, and any strategy will do
where none is given. -/
def finish (r : Reading) (environment : Option String) : Except Stop Arguments := do
  r.settle
  if let some error := r.clash? then throw (.mistake error)
  let strategies :=
    if r.arguments.strategies.isEmpty then [Strategy.any] else r.arguments.strategies
  return { r.arguments with strategies, reserved := r.arguments.reserved.or environment }

end Reading

/-- What the arguments ask for, with the value that the environment has for the reserved CPUs. -/
def Request.ofArguments (arguments : List String) (environment : Option String) :
    Except UsageError Request :=
  match arguments.foldlM Reading.step {} >>= (·.finish environment) with
  | .ok arguments => .ok (.run arguments)
  | .error .help => .ok .help
  | .error .version => .ok .version
  | .error (.mistake error) => .error error

end CpuPlacement.Command
