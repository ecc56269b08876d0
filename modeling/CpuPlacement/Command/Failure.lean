/-!
# Failures of the command

A failure says what could not be done and then why, cause below cause. With several causes they are
numbered. The lines of a cause after its first are indented with it.
-/

set_option autoImplicit false

namespace CpuPlacement.Command

/-- What could not be done, and the causes from the outermost to the innermost. -/
structure Failure where
  message : String
  causes : List String := []
deriving DecidableEq, Repr

namespace Failure

/-- A text that starts with a mark and whose further lines are indented. -/
def indented (mark indent text : String) : String :=
  mark ++ ("\n" ++ indent).intercalate (text.splitOn "\n")

/-- A cause and its number among several: the number takes five places. -/
def numbered (cause : String) (number : Nat) : String :=
  let digits := toString number
  indented ("".pushn ' ' (5 - digits.length) ++ digits ++ ": ") "       " cause

/-- The text of a failure. -/
def text (f : Failure) : String :=
  let causes := match f.causes with
    | [] => []
    | [cause] => [indented "    " "    " cause]
    | causes => causes.zipIdx.map fun (cause, number) => numbered cause number
  s!"Error: {f.message}" ++
    if causes.isEmpty then "" else "\n\nCaused by:\n" ++ "\n".intercalate causes

end Failure

end CpuPlacement.Command
