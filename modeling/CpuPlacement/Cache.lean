/-!
# Caches

A cache has a level, a kind, a size in bytes, a line size and an associativity, which is 0 where the
cache is fully associative. Kinds are ordered; where several caches of one level serve a CPU, the
first kind wins.
-/

set_option autoImplicit false

namespace CpuPlacement

/-- What a cache holds. -/
inductive CacheKind where
  | data
  | instruction
  | trace
  | unified
deriving DecidableEq, Repr

namespace CacheKind

/-- The kinds in their order. -/
def all : List CacheKind := [data, instruction, trace, unified]

/-- The place of a kind in the order. -/
def rank : CacheKind → Nat
  | data => 0
  | instruction => 1
  | trace => 2
  | unified => 3

def name : CacheKind → String
  | data => "Data"
  | instruction => "Instruction"
  | trace => "Trace"
  | unified => "Unified"

def letter : CacheKind → Char
  | data => 'D'
  | instruction => 'I'
  | trace => 'T'
  | unified => 'U'

/-- The kind of a name, spelled exactly so. -/
def ofName? (name : String) : Option CacheKind :=
  all.find? (·.name == name)

end CacheKind

/-- The parameters of a cache. -/
structure Cache where
  level : Nat
  kind : CacheKind
  size : Nat
  lineSize : Nat
  associativity : Nat
deriving DecidableEq, Repr

namespace Cache

/-- The level and, unless the cache is unified, the letter of its kind: `L3`, `L1D`. -/
def name (c : Cache) : String :=
  match c.kind with
  | .unified => s!"L{c.level}"
  | kind => s!"L{c.level}{kind.letter}"

/-- The units of sizes, largest first. -/
def sizeUnits : List (Nat × Char) :=
  [(1 <<< 40, 'T'), (1 <<< 30, 'G'), (1 <<< 20, 'M'), (1 <<< 10, 'K')]

/-- A size in the largest unit that it exceeds, rounded down, or in bytes. -/
def sizeText (size : Nat) : String :=
  match sizeUnits.find? fun (unit, _) => unit < size with
  | some (unit, letter) => toString (size / unit) ++ letter.toString
  | none => s!"{size}B"

end Cache

end CpuPlacement
