import CpuPlacement.Layout.Error

/-!
# Why a topology source cannot be read

A source is a text that says what CPUs there are. It may be malformed, and what it says may make no
layout. Lines and entries are reported without the blanks around them.
-/

set_option autoImplicit false

namespace CpuPlacement

/-- What is wrong with the text of a source. -/
inductive SourceFault where
  | invalidField (key value : String)
  | noAssignment (line : String)
  | invalidIndex (line : String)
  | invalidIds (line : String)
  | notThreeIds (line : String)
  | invalidEntry (entry : String)
  | descendingRange (entry : String)
deriving DecidableEq, Repr

/-- The wording of the error. -/
def SourceFault.message (fault : SourceFault) : String :=
  "Failed to parse topology data: " ++
    match fault with
    | invalidField key value => s!"invalid {key}: {value}"
    | noAssignment line => s!"expected cpu=socket,core,thread: {line}"
    | invalidIndex line => s!"invalid cpu index: {line}"
    | invalidIds line => s!"invalid ids: {line}"
    | notThreeIds line => s!"expected three ids: {line}"
    | invalidEntry entry => s!"invalid cpu list entry: {entry}"
    | descendingRange entry => s!"descending cpu range: {entry}"

/-- Why a source gives no layout. -/
inductive SourceError where
  | malformed (fault : SourceFault)
  | layout (error : LayoutError)
deriving DecidableEq, Repr

/-- The wording of the error. -/
def SourceError.message : SourceError → String
  | malformed fault => fault.message
  | layout error => error.message

end CpuPlacement
