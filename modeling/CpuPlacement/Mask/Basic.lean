import CpuPlacement.Mask.LowestOne
import CpuPlacement.Mask.Ones

/-!
# CPU masks

A mask says which logical CPUs belong to something. It comes in two families. A bit-set indexes the
CPUs of the whole machine and may have any length. A group mask names a processor group and has one
bit for each of the 64 positions of that group.

Two masks can be compared bit by bit only where they index the same CPUs (`sameSpace`): two bit-sets
of any lengths, or two masks of one group. Masks of different groups share no CPU. Masks of
different families should never meet; the operations here are total and say that such masks share
nothing, and `CpuPlacement.Fault` holds the checked operations that refuse the pair.

The view of a mask is `test`: which positions it selects. `indices` lists them in ascending order.
-/

set_option autoImplicit false

namespace CpuPlacement

/-- A set of logical CPUs. -/
inductive Mask where
  /-- CPUs of the whole machine; the length counts for the text of the mask and for nothing else. -/
  | bitset (length : Nat) (bits : BitVec length)
  /-- Positions of one processor group. -/
  | group (id : Nat) (bits : BitVec 64)
deriving DecidableEq, Repr

namespace Mask

/-- The number of positions that the mask has room for. -/
def width : Mask → Nat
  | bitset length _ => length
  | group _ _ => 64

/-- The number whose binary digits say which positions are selected. -/
def number : Mask → Nat
  | bitset _ bits => bits.toNat
  | group _ bits => bits.toNat

def isGroup : Mask → Bool
  | bitset _ _ => false
  | group _ _ => true

def groupId? : Mask → Option Nat
  | bitset _ _ => none
  | group id _ => some id

/-- The mask selects the position. -/
def test (m : Mask) (index : Nat) : Bool :=
  m.number.testBit index

/-- The selected positions in ascending order. -/
def indices (m : Mask) : List Nat :=
  onesBelow m.width m.number

/-- The selected positions from a first one upwards, in ascending order. A group mask has no
position past its last one to start from. -/
def indicesFrom (m : Mask) (first : Nat) : List Nat :=
  match m with
  | bitset _ _ => m.indices.filter (first ≤ ·)
  | group _ bits =>
    let rest := if first < 64 then bits &&& (BitVec.allOnes 64 <<< first) else 0
    onesAscending rest.toNat

/-- How many positions are selected. -/
def cardinality (m : Mask) : Nat :=
  onesCount m.width m.number

def isEmpty (m : Mask) : Bool :=
  m.number == 0

/-- The lowest selected position. -/
def lowest? (m : Mask) : Option Nat :=
  lowestOne? m.number

/-! ## Building masks -/

/-- The bit-set that selects nothing. -/
def empty (length : Nat) : Mask :=
  bitset length 0

/-- The bit-set that selects every CPU below its length. -/
def full (length : Nat) : Mask :=
  bitset length (BitVec.allOnes length)

/-- Selects one position more. A bit-set grows to have room for it; a group mask has none past its
last position and stays as it is. -/
def insert (m : Mask) (index : Nat) : Mask :=
  match m with
  | bitset length bits =>
    let length' := max length (index + 1)
    bitset length' (bits.setWidth length' ||| BitVec.twoPow length' index)
  | group id bits => group id (bits ||| BitVec.twoPow 64 index)

/-- The bit-set of the listed CPUs, of the given length or as long as they need. -/
def ofIndices (length : Nat) (cpus : List Nat) : Mask :=
  cpus.foldl insert (empty length)

/-- The bit-set of one CPU. -/
def single (length : Nat) (cpu : Nat) : Mask :=
  ofIndices length [cpu]

/-- The group mask of one position. -/
def groupSingle (id : Nat) (index : Nat) : Mask :=
  group id (BitVec.twoPow 64 index)

/-! ## Sets of CPUs -/

/-- Both masks belong to one family. -/
def sameFamily (a b : Mask) : Bool :=
  a.isGroup == b.isGroup

/-- Both masks index the same CPUs. -/
def sameSpace : Mask → Mask → Bool
  | bitset _ _, bitset _ _ => true
  | group g _, group h _ => g == h
  | _, _ => false

/-- The positions that both masks select, in a mask shaped like the first. -/
def inter (a b : Mask) : Mask :=
  let shared := if a.sameSpace b then b.number else 0
  match a with
  | bitset length bits => bitset length (bits &&& BitVec.ofNat length shared)
  | group id bits => group id (bits &&& BitVec.ofNat 64 shared)

/-- Every CPU of the first mask is in the second. Of group masks this holds if each position is in
the second mask or in the complement of the first. -/
def subset : Mask → Mask → Bool
  | bitset _ x, bitset _ y => x.toNat &&& y.toNat == x.toNat
  | group g x, group h y => g == h && (y ||| ~~~x) == BitVec.allOnes 64
  | _, _ => false

/-- Some CPU is in both masks. -/
def overlaps (a b : Mask) : Bool :=
  a.sameSpace b && a.number &&& b.number != 0

end Mask

end CpuPlacement
