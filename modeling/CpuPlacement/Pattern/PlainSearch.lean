import CpuPlacement.Pattern.Starts

/-!
# Patterns that are looked for as texts

Where all matches of a pattern are among a few texts, these can be looked for as they are, and the
pattern needs no machine. It has one all the same if bytes that the texts start with make a better
sieve: a byte that is rare, a beginning that all texts have, or a few short beginnings of many
texts.
-/

set_option autoImplicit false

namespace CpuPlacement.Pattern

namespace Start

/-- The starts without those that begin with an earlier one: this is tried first wherever they
match. -/
def withoutCovered (starts : List Start) : List Start :=
  (starts.foldl (fun kept s =>
    if kept.any (·.bytes.isPrefixOf s.bytes) then kept else s :: kept) []).reverse

/-- The bytes that both lists begin with. -/
def commonBytes : List Nat → List Nat → List Nat
  | a :: as, b :: bs => if a = b then a :: commonBytes as bs else []
  | _, _ => []

/-- The bytes that all starts begin with. -/
def sharedBytes (starts : List Start) : List Nat :=
  match starts.map (·.bytes) with
  | [] => []
  | first :: others => others.foldl commonBytes first

/-- The ASCII characters that are met often. -/
def commonChars : List Char :=
  "\n\r ()-,./0129:_abcdefghilmnoprstuvxy|".toList

/-- A text has few of this byte. -/
def isRare (byte : Nat) : Bool :=
  byte ≤ 0x7F && !commonChars.contains (Char.ofNat byte)

/-- A byte that is rare is shared by all starts, and little more than this. -/
def shareRareByte (starts : List Start) : Bool :=
  match sharedBytes starts with
  | first :: others => isRare first && others.length ≤ 2
  | [] => false

/-- All starts share a beginning that makes a sieve, if there are many of them or if it is long. -/
def shareBeginning (starts : List Start) : Bool :=
  let length := (sharedBytes starts).length
  4 < length || (1 < length && 16 < starts.length)

/-- How many starts a sieve may have, and how many bytes are kept of each if there are more. -/
def sieveSteps : List (Nat × Nat) := [(10, 5), (10, 4), (64, 3), (64, 2)]

/-- The sieve that is found by taking ever fewer bytes of the starts. -/
def sieve? : List (Nat × Nat) → List Start → Option (List Start)
  | [], _ => none
  | (most, length) :: steps, starts =>
    if starts.length ≤ most then some starts
    else sieve? steps (withoutCovered (starts.map (cut length)))

/-- There is a sieve of few beginnings that are not too short. -/
def haveSieve (starts : List Start) : Bool :=
  (sieve? sieveSteps starts).any fun sieve =>
    sieve != starts && sieve.all (2 < ·.bytes.length)

/-- The starts are looked for as they are: there are some, each of them is a match that is not
empty, and nothing makes a better sieve. -/
def areSought (starts : List Start) : Bool :=
  let kept := withoutCovered starts
  !starts.isEmpty && starts.all (!·.bytes.isEmpty) && kept.all (·.isWhole)
    && !(1 < starts.length && shareRareByte kept && kept.any (1 < ·.bytes.length))
    && !(1 < kept.length && shareBeginning kept)
    && !haveSieve kept

end Start

/-- The pattern is looked for as texts: nothing is kept of a match and nothing is asked for at a
place, so that a match is no more than its bytes. -/
def isSoughtAsTexts (p : Pattern) : Bool :=
  !p.captures && !p.anyLook (fun _ => true) && p.starts.any Start.areSought

end CpuPlacement.Pattern
