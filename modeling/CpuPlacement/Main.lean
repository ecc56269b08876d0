import CpuPlacement.Command.Run

/-!
# The program

Gathers what the command works on, runs it and prints its report: the output, then on standard error
the warnings, the log as far as the environment asks for it and what went wrong.

The threads of the command are pinned on the model of the machine that the report is about. The
command ends with the affinity that it started with, so nothing of it would outlast the command.
-/

set_option autoImplicit false

namespace CpuPlacement.Command

/-- The number that the system gives an error, whichever sign it is reported with. -/
def errorNumber (code : UInt32) : Nat :=
  if code < 0x80000000 then code.toNat else (0 - code).toNat

/-- Why the system does not let a file be read. -/
def fileErrorOf (error : IO.Error) : FileError :=
  let refused (code : UInt32) (reason : String) : FileError :=
    match errorNumber code with
    | 20 => .notDirectory
    | 21 => .isDirectory
    | 36 => .nameTooLong
    | number => .refused s!"{reason} (os error {number})"
  match error with
  | .noFileOrDirectory _ _ _ => .missing
  | .permissionDenied _ code reason => refused code reason
  | .inappropriateType _ code reason => refused code reason
  | .invalidArgument _ code reason => refused code reason
  | error => .refused error.toString

/-- The text of a file. -/
def fetch (path : String) : BaseIO (Except FileError String) := do
  match ← (IO.FS.readBinFile path).toBaseIO with
  | .ok bytes => return decodeText bytes
  | .error error => return .error (fileErrorOf error)

/-- The file that the arguments name, if they name one. -/
def fetchSource (arguments : List String) (reserved : Option String) : BaseIO Files := do
  let path? := match Request.ofArguments arguments reserved with
    | .ok (.run arguments) => arguments.source.bind (·.path?)
    | _ => none
  let contents ← path?.toList.mapM fun path => return (path, ← fetch path)
  return Files.ofList contents

/-- The machine that the command runs on. -/
def fetchHost : BaseIO Host := do
  let texts ← Host.paths.mapM fun path => return (path, ← fetch path)
  return Host.ofTexts (texts.filterMap fun (path, text) => text.toOption.map (path, ·))

end CpuPlacement.Command

open CpuPlacement.Command in
def main (arguments : List String) : IO UInt32 := do
  let reserved ← IO.getEnv reservedVariable
  let files ← fetchSource arguments reserved
  let logging ← IO.getEnv loggingVariable
  let report := run arguments { files, host := ← fetchHost, reserved, logging }
  IO.print report.output
  for warning in report.warnings do
    IO.eprintln warning
  for line in report.log do
    IO.eprintln line.text
  IO.eprint report.errors
  return report.exitCode.toUInt32
