import CpuPlacement.Mask.Lemmas
import CpuPlacement.Mask.Order
import Mathlib.Data.Nat.Bitwise

/-!
# The numeric order numbers the masks of a kind

The entities of a kind are numbered by a list of masks that strictly ascends in the numeric order.
The order is transitive and turns round with its arguments, so `insertOrdered` keeps such a list
strictly ascending and `orderedSet` makes one of any masks. Of two bit-sets the one with the highest
CPU is the larger (`cmp_eq_lt_of_highest`), which is how descriptors number their classes.
-/

set_option autoImplicit false

namespace CpuPlacement.Mask

/-! ## The order -/

/-- The highest position in which two masks differ decides which of their numbers is larger. -/
theorem highestLast_eq (a b : Mask) : a.highestLast b = compare a.number b.number := by
  rw [highestLast]
  cases hdifference : a.highestDifference? b with
  | none =>
    have hxor : a.number ^^^ b.number = 0 := by
      by_contra hne
      simp [highestDifference?, highestOne?, hne] at hdifference
    have hsame : a.number = b.number := by
      rwa [Nat.xor_eq_zero_iff] at hxor
    exact (Nat.compare_eq_eq.mpr hsame).symm
  | some i =>
    obtain ⟨hat, habove⟩ := highestOne?_eq_some_iff.mp hdifference
    -- above the highest difference the numbers agree, so the digit there decides
    have hagree : ∀ j, i < j → a.number.testBit j = b.number.testBit j := by
      intro j hj
      have hzero := habove j hj
      rwa [Nat.testBit_xor, bne_eq_false_iff_eq] at hzero
    rw [Nat.testBit_xor] at hat
    show (if a.number.testBit i = true then Ordering.gt else .lt) = _
    split
    · next htest =>
      have hother : b.number.testBit i = false := by simpa [htest] using hat
      have hlt := Nat.lt_of_testBit i hother htest fun j hj => (hagree j hj).symm
      exact (Nat.compare_eq_gt.mpr hlt).symm
    · next htest =>
      have htest := Bool.eq_false_iff.mpr htest
      have hother : b.number.testBit i = true := by simpa [htest] using hat
      exact (Nat.compare_eq_lt.mpr (Nat.lt_of_testBit i htest hother hagree)).symm

@[simp] theorem cmp_bitset {n m : Nat} (a : BitVec n) (b : BitVec m) :
    (bitset n a).cmp (bitset m b) = compare a.toNat b.toNat :=
  highestLast_eq _ _

@[simp] theorem cmp_group (g h : Nat) (a b : BitVec 64) :
    (group g a).cmp (group h b) = (compare g h).then (compare a.toNat b.toNat) := rfl

@[simp] theorem cmp_bitset_group {n h : Nat} (a : BitVec n) (b : BitVec 64) :
    (bitset n a).cmp (group h b) = .lt := rfl

@[simp] theorem cmp_group_bitset {g m : Nat} (a : BitVec 64) (b : BitVec m) :
    (group g a).cmp (bitset m b) = .gt := rfl

/-- The numeric order is transitive. -/
theorem cmp_eq_lt_trans {a b c : Mask} (hab : a.cmp b = .lt) (hbc : b.cmp c = .lt) :
    a.cmp c = .lt := by
  cases a <;> cases b <;> cases c <;>
    simp only [cmp_bitset, cmp_group, cmp_bitset_group, cmp_group_bitset, Ordering.then_eq_lt,
      Nat.compare_eq_lt, Nat.compare_eq_eq, reduceCtorEq] at hab hbc ⊢ <;>
    omega

/-- Seen from the other side, larger is smaller. -/
theorem cmp_eq_gt_iff {a b : Mask} : a.cmp b = .gt ↔ b.cmp a = .lt := by
  cases a <;> cases b <;>
    simp only [cmp_bitset, cmp_group, cmp_bitset_group, cmp_group_bitset, Ordering.then_eq_gt,
      Ordering.then_eq_lt, Nat.compare_eq_lt, Nat.compare_eq_gt, Nat.compare_eq_eq, reduceCtorEq]
  omega

instance : Std.TransCmp cmp where
  eq_swap {a b} := by
    cases a <;> cases b <;> simp [Ordering.swap_then, Nat.compare_swap]
  isLE_trans {a b c} hab hbc := by
    cases a <;> cases b <;> cases c <;>
      simp only [cmp_bitset, cmp_group, cmp_bitset_group, cmp_group_bitset,
        Ordering.isLE_then_iff_or, Nat.compare_eq_lt, Nat.compare_eq_eq, Nat.isLE_compare,
        Ordering.isLE_lt, Ordering.isLE_gt, reduceCtorEq] at hab hbc ⊢ <;>
      omega

/-- Of two bit-sets the one with the highest CPU is the larger. -/
theorem cmp_eq_lt_of_highest {a b : Mask} {cpu : Nat} (ha : a.isGroup = false)
    (hb : b.isGroup = false) (below : ∀ other, a.test other = true → other < cpu)
    (has : b.test cpu = true) : a.cmp b = .lt := by
  cases a with
  | group => cases ha
  | bitset n x =>
    cases b with
    | group => cases hb
    | bitset m y =>
      have hx : x.toNat < 2 ^ cpu := by
        refine Nat.lt_pow_two_of_testBit _ fun other hother => ?_
        have hnot : ¬ other < cpu := by omega
        exact Bool.eq_false_iff.mpr fun htest => hnot (below other htest)
      have hy : 2 ^ cpu ≤ y.toNat := Nat.ge_two_pow_of_testBit has
      rw [cmp_bitset]
      exact Nat.compare_eq_lt.mpr (Nat.lt_of_lt_of_le hx hy)

theorem groupId?_eq_none {m : Mask} (h : m.isGroup = false) : m.groupId? = none := by
  cases m with
  | bitset => rfl
  | group => cases h

/-- A mask with a group is a group mask. -/
theorem exists_bits_of_groupId? {m : Mask} {id : Nat} (h : m.groupId? = some id) :
    ∃ bits, m = .group id bits := by
  cases m with
  | bitset => cases h
  | group other bits => exact ⟨bits, congrArg (Mask.group · bits) (Option.some.inj h)⟩

/-- All bit-sets index the same CPUs. -/
theorem sameSpace_of_bitsets {a b : Mask} (ha : a.isGroup = false) (hb : b.isGroup = false) :
    a.sameSpace b = true := by
  cases a with
  | group => cases ha
  | bitset =>
    cases b with
    | group => cases hb
    | bitset => rfl

theorem sameSpace_refl (m : Mask) : m.sameSpace m = true := by
  cases m <;> simp [sameSpace]

theorem sameSpace_symm {a b : Mask} (h : a.sameSpace b = true) : b.sameSpace a = true := by
  cases a <;> cases b <;> simp_all [sameSpace]

theorem sameFamily_of_sameSpace {a b : Mask} (h : a.sameSpace b = true) :
    a.sameFamily b = true := by
  cases a <;> cases b <;> simp_all [sameSpace, sameFamily, isGroup]

/-- A mask that lies in another one indexes the same CPUs. -/
theorem sameSpace_of_subset {a b : Mask} (hsub : a.subset b = true) : a.sameSpace b = true := by
  rw [subset_eq, Bool.and_eq_true] at hsub
  exact hsub.1

theorem test_of_subset {a b : Mask} (hsub : a.subset b = true) {index : Nat}
    (hindex : a.test index = true) : b.test index = true :=
  (subset_iff (sameSpace_of_subset hsub)).mp hsub index hindex

/-- Inclusion is transitive. -/
theorem subset_trans {a b c : Mask} (hab : a.subset b = true) (hbc : b.subset c = true) :
    a.subset c = true := by
  have hspace : a.sameSpace c = true := by
    have hfirst := sameSpace_of_subset hab
    have hsecond := sameSpace_of_subset hbc
    cases a <;> cases b <;> cases c <;> simp_all [sameSpace]
  exact (subset_iff hspace).mpr fun cpu hcpu => test_of_subset hbc (test_of_subset hab hcpu)

theorem subset_refl (m : Mask) : m.subset m = true :=
  (subset_iff (sameSpace_refl m)).mpr fun _ hcpu => hcpu

/-- A mask that selects something is not empty. -/
theorem isEmpty_eq_false_of_test {m : Mask} {index : Nat} (h : m.test index = true) :
    m.isEmpty = false := by
  refine Bool.eq_false_iff.mpr fun hempty => ?_
  rw [isEmpty_iff.mp hempty index] at h
  cases h

/-- A mask with a non-empty one inside is not empty. -/
theorem nonempty_of_subset {a b : Mask} (hsub : a.subset b = true) (ha : a.isEmpty = false) :
    b.isEmpty = false := by
  by_contra hb
  refine Bool.eq_false_iff.mp ha (isEmpty_iff.mpr fun cpu => Bool.eq_false_iff.mpr fun hcpu => ?_)
  exact hb (isEmpty_eq_false_of_test (test_of_subset hsub hcpu))

/-- Adding positions to a mask of a group leaves the mask inside. -/
theorem subset_group_or_left (id : Nat) (a b : BitVec 64) :
    (group id a).subset (group id (a ||| b)) = true := by
  have hspace : (group id a).sameSpace (group id (a ||| b)) = true := beq_self_eq_true id
  refine (subset_iff hspace).mpr fun cpu hcpu => ?_
  simp only [test, number, BitVec.toNat_or, Nat.testBit_or] at hcpu ⊢
  rw [hcpu, Bool.true_or]

theorem subset_group_or_right (id : Nat) (a b : BitVec 64) :
    (group id b).subset (group id (a ||| b)) = true :=
  BitVec.or_comm b a ▸ subset_group_or_left id b a

/-! ## Ascending lists of masks -/

/-- Each mask is below all that come after it. -/
def Ascends (masks : List Mask) : Prop :=
  masks.Pairwise fun a b => a.cmp b = .lt

/-- In an ascending list the masks stand as they compare. -/
theorem Ascends.lt_iff {masks : List Mask} (h : Ascends masks) {i j : Nat} {a b : Mask}
    (ha : masks[i]? = some a) (hb : masks[j]? = some b) : i < j ↔ a.cmp b = .lt := by
  obtain ⟨hi, rfl⟩ := List.getElem?_eq_some_iff.mp ha
  obtain ⟨hj, rfl⟩ := List.getElem?_eq_some_iff.mp hb
  have hpairs := List.pairwise_iff_getElem.mp h
  refine ⟨hpairs i j hi hj, fun hlt => ?_⟩
  rcases Nat.lt_trichotomy i j with hij | rfl | hji
  · exact hij
  · cases Std.ReflCmp.compare_self.symm.trans hlt
  · exact absurd hlt (Std.OrientedCmp.not_lt_of_lt (hpairs j i hj hi hji))

/-- Insertion adds the mask and no other. -/
theorem mem_insertOrdered {m x : Mask} {masks : List Mask} (hx : x ∈ insertOrdered m masks) :
    x = m ∨ x ∈ masks := by
  induction masks with
  | nil => exact .inl (List.mem_singleton.mp hx)
  | cons first rest ih =>
    rw [insertOrdered] at hx
    split at hx
    · exact List.mem_cons.mp hx
    · exact .inr hx
    · rcases List.mem_cons.mp hx with rfl | hx
      · exact .inr List.mem_cons_self
      · exact (ih hx).imp_right (List.mem_cons_of_mem first)

/-- Insertion keeps masks in order. -/
theorem Ascends.insertOrdered {masks : List Mask} (m : Mask) (h : Ascends masks) :
    Ascends (insertOrdered m masks) := by
  induction masks with
  | nil => exact List.pairwise_singleton _ m
  | cons first rest ih =>
    obtain ⟨hfirst, hrest⟩ := List.pairwise_cons.mp h
    rw [Mask.insertOrdered]
    split
    · next hlt =>
      refine List.pairwise_cons.mpr ⟨fun x hx => ?_, h⟩
      rcases List.mem_cons.mp hx with rfl | hx
      · exact hlt
      · exact cmp_eq_lt_trans hlt (hfirst x hx)
    · exact h
    · next hgt =>
      refine List.pairwise_cons.mpr ⟨fun x hx => ?_, ih hrest⟩
      rcases mem_insertOrdered hx with rfl | hx
      · exact cmp_eq_gt_iff.mp hgt
      · exact hfirst x hx

/-- The distinct masks of a list ascend, and each of them is listed. -/
theorem orderedSet_spec (masks : List Mask) :
    Ascends (orderedSet masks) ∧ ∀ m ∈ orderedSet masks, m ∈ masks := by
  suffices grown : ∀ set : List Mask, Ascends set →
      Ascends (masks.foldl (fun set m => insertOrdered m set) set) ∧
        ∀ m ∈ masks.foldl (fun set m => insertOrdered m set) set, m ∈ set ∨ m ∈ masks by
    obtain ⟨hascends, hmem⟩ := grown [] List.Pairwise.nil
    exact ⟨hascends, fun m hm => (hmem m hm).resolve_left List.not_mem_nil⟩
  induction masks with
  | nil => exact fun set h => ⟨h, fun m hm => .inl hm⟩
  | cons first rest ih =>
    intro set h
    obtain ⟨hascends, hmem⟩ := ih _ (h.insertOrdered first)
    refine ⟨hascends, fun m hm => ?_⟩
    rcases hmem m hm with hm | hm
    · rcases mem_insertOrdered hm with rfl | hm
      · exact .inr List.mem_cons_self
      · exact .inl hm
    · exact .inr (List.mem_cons_of_mem first hm)

theorem ascends_orderedSet (masks : List Mask) : Ascends (orderedSet masks) :=
  (orderedSet_spec masks).1

theorem mem_of_mem_orderedSet {m : Mask} {masks : List Mask} (hm : m ∈ orderedSet masks) :
    m ∈ masks :=
  (orderedSet_spec masks).2 m hm

/-- A mask that is already there stays. -/
theorem mem_insertOrdered_of_mem (m : Mask) {x : Mask} {masks : List Mask} (hx : x ∈ masks) :
    x ∈ insertOrdered m masks := by
  induction masks with
  | nil => cases hx
  | cons first rest ih =>
    rw [insertOrdered]
    split
    · exact List.mem_cons_of_mem m hx
    · exact hx
    · rcases List.mem_cons.mp hx with rfl | hx
      · exact List.mem_cons_self
      · exact List.mem_cons_of_mem first (ih hx)

/-- After the insertion a mask is there that selects the same CPUs. -/
theorem exists_same_insertOrdered (m : Mask) (masks : List Mask) :
    ∃ x ∈ insertOrdered m masks, m.same x = true := by
  induction masks with
  | nil => exact ⟨m, List.mem_singleton_self m, by cases m <;> simp [same]⟩
  | cons first rest ih =>
    rw [insertOrdered]
    split
    · exact ⟨m, List.mem_cons_self, by cases m <;> simp [same]⟩
    · next heq => exact ⟨first, List.mem_cons_self, by rw [same, heq]; rfl⟩
    · obtain ⟨x, hx, hsame⟩ := ih
      exact ⟨x, List.mem_cons_of_mem first hx, hsame⟩

/-- Each mask is in the ordered list, as far as the order tells masks apart. -/
theorem exists_same_orderedSet {m : Mask} {masks : List Mask} (hm : m ∈ masks) :
    ∃ x ∈ orderedSet masks, m.same x = true := by
  suffices grown : ∀ set : List Mask, (∃ x ∈ set, m.same x = true) ∨ m ∈ masks →
      ∃ x ∈ masks.foldl (fun set m => insertOrdered m set) set, m.same x = true from
    grown [] (.inr hm)
  clear hm
  induction masks with
  | nil => exact fun set h => h.resolve_right List.not_mem_nil
  | cons first rest ih =>
    intro set h
    rw [List.foldl_cons]
    refine ih _ ?_
    rcases h with ⟨x, hx, hsame⟩ | hm
    · exact .inl ⟨x, mem_insertOrdered_of_mem first hx, hsame⟩
    · rcases List.mem_cons.mp hm with rfl | hm
      · exact .inl (exists_same_insertOrdered m set)
      · exact .inr hm

/-- The order tells all group masks apart. -/
theorem eq_of_same {a b : Mask} (ha : a.isGroup = true) (hsame : a.same b = true) : a = b := by
  cases a with
  | bitset => cases ha
  | group g x =>
    cases b with
    | bitset => cases hsame
    | group h y =>
      simp only [same, cmp_group, beq_iff_eq, Ordering.then_eq_eq, Nat.compare_eq_eq] at hsame
      rw [hsame.1, BitVec.eq_of_toNat_eq hsame.2]

end CpuPlacement.Mask
