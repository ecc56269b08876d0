/-!
# Sorting

Lists sorted by a comparison, and lists in which neighbours that are the same are taken once.
-/

set_option autoImplicit false

namespace CpuPlacement

variable {α : Type}

/-- A list sorted by a comparison; equal elements stay in their order. -/
def sortedBy (cmp : α → α → Ordering) (l : List α) : List α :=
  l.mergeSort fun a b => (cmp a b).isLE

/-- The elements that are not the same as the last one before them that stays. -/
def dropRepeats (same : α → α → Bool) (last : α) : List α → List α
  | [] => []
  | next :: rest =>
    if same last next then dropRepeats same last rest else next :: dropRepeats same next rest

/-- The list with neighbours that are the same taken once, the first of them. -/
def withoutRepeats (same : α → α → Bool) : List α → List α
  | [] => []
  | first :: rest => first :: dropRepeats same first rest

end CpuPlacement
