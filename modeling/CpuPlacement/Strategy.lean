import CpuPlacement.Layout.Basic
import CpuPlacement.Text.Blank

/-!
# Placement strategies

A strategy says where a CPU should lie relative to a CPU that is already taken. Sockets and cores
are compared by the ids in the descriptors. Core ids count within a socket, so `differentCore`,
which does not look at the socket, refuses the cores of equal id on other sockets too.
-/

set_option autoImplicit false

namespace CpuPlacement

/-- Where a CPU should lie relative to another. -/
inductive Strategy where
  | any
  /-- Same socket and same core id. -/
  | sameCore
  /-- Same socket, another core. -/
  | sameSocket
  /-- Another core id, on whichever socket. -/
  | differentCore
  | differentSocket
deriving DecidableEq, Repr

/-- The text of a strategy that there is not. -/
structure UnknownStrategy where
  text : String
deriving DecidableEq, Repr

/-- The wording of the error. -/
def UnknownStrategy.message (e : UnknownStrategy) : String :=
  s!"unknown strategy '{e.text}'"

namespace Strategy

def all : List Strategy := [any, sameCore, sameSocket, differentCore, differentSocket]

def name : Strategy → String
  | any => "any"
  | sameCore => "same-core"
  | sameSocket => "same-socket"
  | differentCore => "different-core"
  | differentSocket => "different-socket"

/-- A name in the one spelling that is compared: without blanks around it, in lower case, with
hyphens for underscores. -/
def canonical (text : List Char) : List Char :=
  (Text.trim text).map fun c => if c = '_' then '-' else c.toLower

/-- Reads the name of a strategy. -/
def ofText (text : String) : Except UnknownStrategy Strategy :=
  match all.find? fun s => s.name.toList == canonical text.toList with
  | some strategy => .ok strategy
  | none => .error ⟨text⟩

end Strategy

namespace Layout

/-- Both CPUs have the same socket id. -/
def sameSocketId (l : Layout) (a b : Nat) : Bool :=
  (l.descriptors[a]?.map (·.socketId)) == (l.descriptors[b]?.map (·.socketId))

/-- Both CPUs have the same core id, on whichever sockets. -/
def sameCoreId (l : Layout) (a b : Nat) : Bool :=
  (l.descriptors[a]?.map (·.coreId)) == (l.descriptors[b]?.map (·.coreId))

end Layout

namespace Strategy

/-- The second CPU lies relative to the first as the strategy says. -/
def accepts (s : Strategy) (l : Layout) (a b : Nat) : Bool :=
  match s with
  | any => true
  | sameCore => l.sameSocketId a b && l.sameCoreId a b
  | sameSocket => l.sameSocketId a b && !l.sameCoreId a b
  | differentCore => !l.sameCoreId a b
  | differentSocket => !l.sameSocketId a b

/-- The checked form: but for `any`, both CPUs have to be in the layout. -/
def accepts? (s : Strategy) (l : Layout) (a b : Nat) : Except Fault Bool := do
  if s = any then return true
  let _ ← l.descriptor a
  let _ ← l.descriptor b
  return s.accepts l a b

end Strategy

end CpuPlacement
