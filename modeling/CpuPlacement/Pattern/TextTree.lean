import CpuPlacement.Pattern.Machine

/-!
# A tree of texts

Alternatives that are texts make a tree: the machine reads once what several of them begin with. A
place of the tree is what is left there of the texts that lead to it, in their order. A text that
ends at a place parts those before it from those after it, since the ones before are to be tried
first; so the tree goes on from there with each run of texts on its own.
-/

set_option autoImplicit false

namespace CpuPlacement.Pattern

namespace TextTree

/-- What is left of some texts at a place, byte by byte. -/
abbrev Rests := List (List Nat)

/-- Adds what is left behind a byte to what is left behind others. -/
def addUnder (byte : Nat) (rest : List Nat) : List (Nat × Rests) → List (Nat × Rests)
  | [] => [(byte, [rest])]
  | (other, rests) :: groups =>
    if other = byte then (other, rest :: rests) :: groups
    else (other, rests) :: addUnder byte rest groups

/-- The places behind the first bytes of a run of texts. -/
def byFirst (run : Rests) : List (Nat × Rests) :=
  run.foldr (fun text groups => match text with
    | [] => groups
    | byte :: rest => addUnder byte rest groups) []

/-- The runs of texts between those that end at a place. Where only ends have been met, one end is
as good as several. -/
def runs (rests : Rests) : List Rests :=
  let others := rests.dropWhile (·.isEmpty)
  let between := others.foldr (fun text runs => match text, runs with
    | [], runs => [] :: runs
    | text, run :: runs => (text :: run) :: runs
    | text, [] => [[text]]) [[]]
  if others.length < rests.length then [] :: between else between

/-- The ways on from a place, those of each run that has any. -/
def waysOn (rests : Rests) : List (List (Nat × Rests)) :=
  ((runs rests).map byFirst).filter (!·.isEmpty)

/-- Adds the states of a place: one for each run that goes on, and one that leads to these and, for
each text that ends, out of the tree. -/
def addPlace (m : Machine) (rests : Rests) : Machine :=
  let ways := waysOn rests
  let branches := ways.length + ((runs rests).length - 1)
  let steps := ways.foldl
    (fun steps way => steps + if way.length = 1 then 0 else way.length) 0
  m.add (ways.length + 1) (branchSize * branches + stepSize * steps)

/-- The places next to a place, without those where all texts have ended. -/
def next (rests : Rests) : List Rests :=
  (waysOn rests).flatten.filterMap fun (_, rests) =>
    if rests.all (·.isEmpty) then none else some rests

/-- Adds some places and those behind them. The number bounds the bytes of a text. -/
def addPlaces : Nat → List Rests → Machine → Machine
  | 0, _, m => m
  | bound + 1, places, m => addPlaces bound (places.flatMap next) (places.foldl addPlace m)

/-- The tree of some texts, with a state where it ends. -/
def machine (texts : List (List Nat)) : Machine :=
  let longest := texts.foldl (fun longest text => max longest text.length) 0
  addPlaces (longest + 1) [texts] (Machine.add {} 1 0)

end TextTree

end CpuPlacement.Pattern
