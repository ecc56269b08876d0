import CpuPlacement.Command.Log
import CpuPlacement.Pattern.OfText

/-!
# What is logged

The user says what is logged in entries with commas between them. An entry names a level, for
everything; a part of the program, for all of its lines; or both, with an equals sign between them.
A part holds everything whose name begins with its own, and of several entries for a line the one
with the longest name holds. An entry takes the place of an earlier one for the same part. After a
slash there may be a pattern that the message has to match.

An entry or a pattern that cannot be read is left out with a warning. Where no entry is left, errors
are logged.
-/

set_option autoImplicit false

namespace CpuPlacement.Command

/-- The variable of the environment that may say what is logged. -/
def loggingVariable : String := "RUST_LOG"

/-- The lines of a part of the program that are logged: those up to a rank. -/
structure LogEntry where
  /-- What the names of the part begin with, unless the entry names no part at all. -/
  part : Option String
  rank : Nat
deriving DecidableEq, Repr

/-- What the user asks to be logged. -/
structure LogFilter where
  entries : List LogEntry := []
  pattern : Option Pattern := none

namespace LogEntry

/-- The entry is about a target. -/
def concerns (e : LogEntry) (target : String) : Bool :=
  e.part.all (target.startsWith ·)

/-- How closely the entry says what it is about. -/
def closeness (e : LogEntry) : Nat := (e.part.getD "").length

/-- Puts an entry in the place of the one for the same part, or behind all others. -/
def addTo (e : LogEntry) : List LogEntry → List LogEntry
  | [] => [e]
  | other :: rest => if other.part = e.part then e :: rest else other :: e.addTo rest

end LogEntry

namespace LogFilter

/-- The entries that hold where there are no others. -/
def defaults : List LogEntry := [⟨none, LogLevel.error.rank⟩]

/-- The entry that holds for a target: the closest, and of equally close ones the last. -/
def entryFor? (f : LogFilter) (target : String) : Option LogEntry :=
  let entries := if f.entries.isEmpty then defaults else f.entries
  (entries.filter (·.concerns target)).foldl
    (fun best entry => match best with
      | none => some entry
      | some best => if best.closeness ≤ entry.closeness then some entry else some best)
    none

/-- The line is logged. -/
def admits (f : LogFilter) (line : LogLine) : Bool :=
  (f.entryFor? line.target).any (line.level.rank ≤ ·.rank)
    && f.pattern.all (·.occursIn line.message)

/-- The rank up to which a level, or `off`, has lines logged. Case does not matter. -/
def rank? (name : String) : Option Nat :=
  if name.toUpper = "OFF" then some 0
  else (LogLevel.all.find? (·.name = name.toUpper)).map (·.rank)

/-- Reads an entry without the blanks around it; what cannot be read comes back. -/
def entryOf (text : List Char) : Except (List Char) LogEntry :=
  match Text.parts '=' text with
  | [name] =>
    let name := String.ofList name
    .ok (match rank? name with
      | some rank => ⟨none, rank⟩
      | none => ⟨some name, LogLevel.trace.rank⟩)
  | [part, level] =>
    let level := Text.trim level
    let part := String.ofList part
    if level.isEmpty then .ok ⟨some part, LogLevel.trace.rank⟩
    else match rank? (String.ofList level) with
      | some rank => .ok ⟨some part, rank⟩
      | none => .error level
  | _ => .error text

/-- The warning that something has been left out. -/
def ignored (what : String) : String :=
  s!"warning: invalid logging spec '{what}', ignoring it"

/-- Reads the entries, each into itself or a warning. -/
def entriesOf (text : List Char) : List (Except (List Char) LogEntry) :=
  (((Text.parts ',' text).map Text.trim).filter (!·.isEmpty)).map entryOf

/-- The entries that have been read. -/
def readEntries (entries : List (Except (List Char) LogEntry)) : List LogEntry :=
  (entries.filterMap (·.toOption)).foldl (fun entries entry => entry.addTo entries) []

/-- A warning for each entry that has not been read. -/
def entryWarnings (entries : List (Except (List Char) LogEntry)) : List String :=
  entries.filterMap fun
    | .ok _ => none
    | .error text => some (ignored (String.ofList text))

/-- Reads what the user asks for, with warnings about what is left out of it. -/
def ofText (text : String) : LogFilter × List String :=
  match Text.parts '/' text.toList with
  | [entries] =>
    let entries := entriesOf entries
    (⟨readEntries entries, none⟩, entryWarnings entries)
  | [entries, pattern] =>
    let entries := entriesOf entries
    let (pattern, refused) := match Pattern.ofText pattern with
      | .ok p => (some p, [])
      | .error e => (none, ["warning: invalid regex filter - " ++ e.message pattern])
    (⟨readEntries entries, pattern⟩, entryWarnings entries ++ refused)
  | _ => ({}, [ignored text ++ " (too many '/'s)"])

/-- Reads what the user may have asked for. -/
def ofSetting (setting : Option String) : LogFilter × List String :=
  match setting with
  | none => ({}, [])
  | some text => ofText text

end LogFilter

end CpuPlacement.Command
