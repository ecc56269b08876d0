/-!
# Input files

The files that the command line names are read whole and have to be UTF-8.
-/

set_option autoImplicit false

namespace CpuPlacement.Command

/-- Why a file cannot be read. -/
inductive FileError where
  | missing
  /-- Something on the way to the file is itself a file. -/
  | notDirectory
  | isDirectory
  | nameTooLong
  | notText
  /-- Whatever else the system says. -/
  | refused (reason : String)
deriving DecidableEq, Repr

/-- The wording of the error. -/
def FileError.message : FileError → String
  | missing => "No such file or directory (os error 2)"
  | notDirectory => "Not a directory (os error 20)"
  | isDirectory => "Is a directory (os error 21)"
  | nameTooLong => "File name too long (os error 36)"
  | notText => "stream did not contain valid UTF-8"
  | refused reason => reason

/-- The text of a file. -/
def decodeText (bytes : ByteArray) : Except FileError String :=
  match String.fromUTF8? bytes with
  | some text => .ok text
  | none => .error .notText

/-- The files as the command sees them: the text of each path, or why there is none. -/
abbrev Files := String → Except FileError String

/-- The files of some paths, when there are no others. -/
def Files.ofList (contents : List (String × Except FileError String)) : Files := fun path =>
  (contents.lookup path).getD (.error .missing)

end CpuPlacement.Command
