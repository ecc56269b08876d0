import CpuPlacement.Mask.Basic

/-!
# Numbering CPUs by a key

A key for every CPU, such as its socket id, partitions the CPUs: those with equal keys belong
together. The classes are numbered from 0 by their highest CPU. That is the numeric order of their
masks, since of two disjoint masks the one with the highest CPU is the larger number; so the
numbering depends on which CPUs belong together and not on how the keys are spelled.
-/

set_option autoImplicit false

namespace CpuPlacement.Numbering

variable {κ : Type} [DecidableEq κ]

/-- The distinct keys, ordered by their last occurrence. -/
def classes : List κ → List κ
  | [] => []
  | key :: rest => if key ∈ rest then classes rest else key :: classes rest

/-- The number of each CPU's class. -/
def numbers (keys : List κ) : List Nat :=
  let ordered := classes keys
  keys.map fun key => ordered.idxOf key

/-- The CPUs with the key, in ascending order. -/
def members (keys : List κ) (key : κ) : List Nat :=
  keys.zipIdx.filterMap fun (other, cpu) => if other = key then some cpu else none

/-- The mask of each class, in the order of the numbers. -/
def masks (keys : List κ) : List Mask :=
  (classes keys).map fun key => Mask.ofIndices keys.length (members keys key)

/-- Exactly the keys that occur have a class. -/
theorem mem_classes {key : κ} {keys : List κ} : key ∈ classes keys ↔ key ∈ keys := by
  induction keys with
  | nil => simp [classes]
  | cons first rest ih => by_cases h : first ∈ rest <;> grind [classes]

/-- No key has two classes. -/
theorem nodup_classes (keys : List κ) : (classes keys).Nodup := by
  induction keys with
  | nil => simp [classes]
  | cons first rest ih => by_cases h : first ∈ rest <;> simp [classes, h, ih, mem_classes]

end CpuPlacement.Numbering
