import CpuPlacement.Proofs.Mask.Order
import Mathlib.Data.List.Forall2
import Mathlib.Data.List.Sort
import Mathlib.Data.Prod.Lex

/-!
# Masks that select the same CPUs

Bit-sets of different lengths can select the same CPUs. Such masks are the same to everything but
their texts: they have the same positions, and they lie within the same masks. What tells two masks
apart is their place in the numeric order (`Mask.place`). A strictly ascending list is determined by
the places that occur in it, so two such lists of the same masks agree mask by mask
(`Mask.sameEach_of_ascends`).
-/

set_option autoImplicit false

namespace CpuPlacement.Mask

/-! ## The place of a mask in the numeric order -/

/-- The group comes first, bit-sets being in front of all groups, and then the number. -/
def place (m : Mask) : Nat ×ₗ Nat :=
  toLex ((m.groupId?.map (· + 1)).getD 0, m.number)

/-- The numeric order is that of the places. -/
theorem cmp_eq_lt_iff {a b : Mask} : a.cmp b = .lt ↔ a.place < b.place := by
  cases a <;> cases b <;>
    simp [place, groupId?, number, Prod.Lex.toLex_lt_toLex, Ordering.then_eq_lt,
      Nat.compare_eq_lt]

theorem same_iff_place {a b : Mask} : a.same b = true ↔ a.place = b.place := by
  cases a <;> cases b <;>
    simp [same, place, groupId?, number, Ordering.then_eq_eq]

/-- Masks are the same if they have one group or none, and one number. -/
theorem same_iff {a b : Mask} :
    a.same b = true ↔ a.groupId? = b.groupId? ∧ a.number = b.number := by
  cases a <;> cases b <;>
    simp [same, groupId?, number, Ordering.then_eq_eq]

/-- Masks are the same if they are of one group, or of none, and select the same positions. -/
theorem same_iff_test {a b : Mask} :
    a.same b = true ↔
      a.groupId? = b.groupId? ∧ ∀ cpu, a.test cpu = true ↔ b.test cpu = true := by
  rw [same_iff]
  refine and_congr_right fun _ => ⟨fun h _ => by rw [test, h, test], fun h => ?_⟩
  exact Nat.eq_of_testBit_eq fun cpu => Bool.eq_iff_iff.mpr (h cpu)

theorem same_refl (m : Mask) : m.same m = true :=
  same_iff_place.mpr rfl

theorem same_symm {a b : Mask} (h : a.same b = true) : b.same a = true :=
  same_iff_place.mpr (same_iff_place.mp h).symm

theorem same_trans {a b c : Mask} (hab : a.same b = true) (hbc : b.same c = true) :
    a.same c = true :=
  same_iff_place.mpr ((same_iff_place.mp hab).trans (same_iff_place.mp hbc))

/-! ## What is the same of such masks -/

section Same

variable {a b : Mask} (h : a.same b = true)

include h

theorem groupId?_eq_of_same : a.groupId? = b.groupId? :=
  (same_iff.mp h).1

theorem isGroup_eq_of_same : a.isGroup = b.isGroup := by
  cases a <;> cases b <;> first | rfl | cases h

theorem isEmpty_eq_of_same : a.isEmpty = b.isEmpty := by
  rw [isEmpty, isEmpty, (same_iff.mp h).2]

theorem indices_eq_of_same : a.indices = b.indices := by
  refine (pairwise_indices a).eq_of_mem_iff (pairwise_indices b) fun cpu => ?_
  rw [mem_indices, mem_indices, test, test, (same_iff.mp h).2]

theorem cardinality_eq_of_same : a.cardinality = b.cardinality := by
  rw [← length_indices, ← length_indices, indices_eq_of_same h]

/-- They lie within the same masks. -/
theorem subset_eq_of_same_left (other : Mask) : a.subset other = b.subset other := by
  rw [subset_eq, subset_eq, (same_iff.mp h).2]
  congr 1
  cases a <;> cases b <;> cases other <;> simp_all [sameSpace, same_iff, groupId?]

/-- The same masks lie within them. -/
theorem subset_eq_of_same_right (other : Mask) : other.subset a = other.subset b := by
  rw [subset_eq, subset_eq, (same_iff.mp h).2]
  congr 1
  cases a <;> cases b <;> cases other <;> simp_all [sameSpace, same_iff, groupId?]

end Same

/-! ## Lists of masks -/

/-- The masks of two lists select the same CPUs, one by one. -/
abbrev SameEach (masks masks' : List Mask) : Prop :=
  List.Forall₂ (fun m m' => m.same m' = true) masks masks'

/-- The places of a strictly ascending list ascend strictly. -/
theorem Ascends.places {masks : List Mask} (h : Ascends masks) :
    (masks.map place).Pairwise (· < ·) :=
  List.pairwise_map.mpr (h.imp cmp_eq_lt_iff.mp)

/-- Where each mask has one that is the same in another list, its place is there too. -/
theorem places_subset {masks masks' : List Mask}
    (h : ∀ m ∈ masks, ∃ m' ∈ masks', m.same m' = true) : masks.map place ⊆ masks'.map place := by
  intro p hp
  obtain ⟨m, hm, rfl⟩ := List.mem_map.mp hp
  obtain ⟨m', hm', hsame⟩ := h m hm
  exact List.mem_map.mpr ⟨m', hm', (same_iff_place.mp hsame).symm⟩

/-- Two strictly ascending lists of which each has all masks of the other agree mask by mask. -/
theorem sameEach_of_ascends {masks masks' : List Mask} (h : Ascends masks)
    (h' : Ascends masks') (hin : ∀ m ∈ masks, ∃ m' ∈ masks', m.same m' = true)
    (hin' : ∀ m' ∈ masks', ∃ m ∈ masks, m'.same m = true) :
    SameEach masks masks' := by
  have hplaces : masks.map place = masks'.map place :=
    h.places.eq_of_mem_iff h'.places
      fun _ => ⟨fun hp => places_subset hin hp, fun hp => places_subset hin' hp⟩
  rw [← List.forall₂_eq_eq_eq, List.forall₂_map_left_iff, List.forall₂_map_right_iff] at hplaces
  exact hplaces.imp fun _ _ => same_iff_place.mpr

end CpuPlacement.Mask
