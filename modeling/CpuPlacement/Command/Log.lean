import CpuPlacement.Reservation.Series

/-!
# The log of the command

The steps of the library say in their results what they did. The lines of the log are read off those
results, stage by stage; a line has a level, the part of the program that it is about, and a
message.
-/

set_option autoImplicit false

namespace CpuPlacement.Command

/-- How much a line matters. -/
inductive LogLevel where
  | error
  | warn
  | info
  | debug
  | trace
deriving DecidableEq, Repr

namespace LogLevel

def all : List LogLevel := [error, warn, info, debug, trace]

def name : LogLevel → String
  | error => "ERROR"
  | warn => "WARN"
  | info => "INFO"
  | debug => "DEBUG"
  | trace => "TRACE"

/-- Levels that matter less rank higher. -/
def rank : LogLevel → Nat
  | error => 1
  | warn => 2
  | info => 3
  | debug => 4
  | trace => 5

end LogLevel

/-- A line of the log. -/
structure LogLine where
  level : LogLevel
  target : String
  message : String
deriving DecidableEq, Repr

namespace LogLine

def layoutTarget : String := "affinity_core::topology::builder"
def policyTarget : String := "affinity_core::config"
def inventoryTarget : String := "affinity_core::lock::inventory"
def simulatedTarget : String := "affinity_core::backend"
def commandTarget : String := "affinity_cli"

/-- The text of the line; the levels take the same place in all lines. -/
def text (line : LogLine) : String :=
  let level := line.level.name
  "[" ++ level.pushn ' ' (5 - level.length) ++ " " ++ line.target ++ "] " ++ line.message

def ofInventory (level : LogLevel) (message : String) : LogLine :=
  ⟨level, inventoryTarget, message⟩

end LogLine

namespace Log

variable {σ : Type}

/-- A list of numbers. -/
def numberList (numbers : List Nat) : String :=
  "[" ++ ", ".intercalate (numbers.map toString) ++ "]"

/-- A layout has been assembled. -/
def assembled (l : Layout) : LogLine where
  level := .debug
  target := LogLine.layoutTarget
  message :=
    s!"assembled layout: {l.groups.length} groups, {l.nodes.length} nodes, "
      ++ s!"{l.sockets.length} sockets, {l.cores.length} cores, {l.caches.length} caches"

/-- Nobody has named the reserved CPUs, and none is isolated. -/
def resolved (cpus : Nat) (base : Option Mask) (reserved : Option String) : List LogLine :=
  if (Policy.named? reserved).isNone && Policy.assumesAll cpus (base.getD (Mask.full cpus)) then
    [⟨.info, LogLine.policyTarget,
      s!"no isolated CPUs found, assuming CPUs 1 to {cpus - 1} are available"⟩]
  else []

/-- The locks have been set up. -/
def locks (inv : Inventory) : List LogLine :=
  inv.locks.map fun lock =>
    LogLine.ofInventory .trace s!"cpu {lock.cpu} base={lock.base} reservable={lock.reservable}"

/-- What a backend logs of a call that sets a mask. -/
abbrev CallLog := Mask → Except AffinityError Unit → List LogLine

/-- A simulated machine logs the bit-sets that it takes. -/
def simulatedCall (me : ThreadId) : CallLog := fun mask answer =>
  match answer, mask with
  | .ok (), .bitset _ _ =>
    [⟨.debug, LogLine.simulatedTarget,
      s!"simulated affinity for ThreadId({me.number}) -> {mask.text}"⟩]
  | _, _ => []

/-- The native call of a reservation. -/
def pinned (callLog : CallLog) (who : String) (inv : Inventory) (cpu : Nat)
    (call : Option (Except AffinityError Unit)) : List LogLine :=
  match call with
  | none => []
  | some answer =>
    let native := ((inv.layout.cpuMasks[cpu]?).map fun mask => callLog mask answer).getD []
    let line := match answer with
      | .ok () => LogLine.ofInventory .info s!"binding {who} to cpu {cpu}"
      | .error refusal =>
        LogLine.ofInventory .warn s!"unable to bind {who} to cpu {cpu}: {refusal.message}"
    native ++ [line]

/-- A reservation, of a whole core if that was asked for. -/
def acquired (callLog : CallLog) (who : String) (cores : Bool) (inv : Inventory)
    (outcome : Outcome σ Handle) : List LogLine :=
  let noCore :=
    if cores then [LogLine.ofInventory .warn s!"no reservable core for {who}"] else []
  match outcome.result with
  | .wholeCore first =>
    let core := (inv.layout.slots[first]?.map (·.core)).getD 0
    pinned callLog who inv first outcome.call ++
      [LogLine.ofInventory .info
        s!"assigning core {core}: cpus {numberList (inv.layout.siblings core)} to {who}"]
  | .cpu cpu =>
    noCore ++ LogLine.ofInventory .debug s!"assigning cpu {cpu} to {who}"
      :: pinned callLog who inv cpu outcome.call
  | .none => noCore ++ [LogLine.ofInventory .warn s!"no reservable CPU for {who}"]

/-- Everything that the thread holds has been given up. -/
def released (callLog : CallLog) (who : String) (me : ThreadId) (inv : Inventory)
    (outcome : Outcome σ Unit) : List LogLine :=
  let freed := (inv.locks.filter (·.owner == some me)).map fun lock =>
    LogLine.ofInventory .info s!"releasing cpu {lock.cpu} from {who}"
  let base := inv.policy.base
  let restored := match outcome.call with
    | some (.ok ()) => callLog base (.ok ())
    | some (.error refusal) =>
      callLog base (.error refusal) ++
        [LogLine.ofInventory .warn
          s!"unable to restore base affinity {base.text}: {refusal.message}"]
    | none => []
  freed ++ restored

end Log

end CpuPlacement.Command
