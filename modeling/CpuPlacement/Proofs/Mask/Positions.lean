import CpuPlacement.Fault
import CpuPlacement.Proofs.Mask.Same
import Mathlib

/-!
# Masks as sets of positions

What a mask answers can be read off the ascending list of the positions that it selects
(`Mask.Answers`), and what is answered for two masks of one family off both lists
(`Mask.AnswersWith`). The two families do not go about it alike. A bit-set is cut into halves to be
listed, and what lies below a first position is then left out; a word of a group has the positions
below the first one cleared and its lowest one taken away until none is left. The ones are counted
without being listed. The length of a bit-set shows in none of the answers
(`Mask.AnswersAlike`).
-/

set_option autoImplicit false

namespace CpuPlacement

/-! ## Taking the ones away one by one -/

theorem lowestOne?_eq_none_iff {n : Nat} : lowestOne? n = none ↔ n = 0 := by
  by_cases hzero : n = 0 <;> simp [lowestOne?, hzero]

/-- The list has the positions of the ones of the number. -/
theorem mem_onesAscending {n i : Nat} : i ∈ onesAscending n ↔ n.testBit i = true := by
  fun_induction onesAscending n with
  | case1 n hnone => simp [lowestOne?_eq_none_iff.mp hnone]
  | case2 n lowest hlowest ih =>
    rw [List.mem_cons, ih, testBit_and_pred hlowest, Bool.and_eq_true, decide_eq_true_iff]
    by_cases hi : i = lowest
    · simp [hi, (lowestOne?_eq_some_iff.mp hlowest).1]
    · simp [hi]

/-- What is left after the lowest one was taken away lies above it. -/
theorem pairwise_onesAscending (n : Nat) : (onesAscending n).Pairwise (· < ·) := by
  fun_induction onesAscending n with
  | case1 => exact List.Pairwise.nil
  | case2 n lowest hlowest ih =>
    refine List.pairwise_cons.mpr ⟨fun i hi => ?_, ih⟩
    rw [mem_onesAscending, testBit_and_pred hlowest, Bool.and_eq_true, decide_eq_true_iff] at hi
    obtain ⟨hone, hne⟩ := hi
    refine Nat.lt_of_le_of_ne (Nat.le_of_not_lt fun hbelow => ?_) hne.symm
    rw [(lowestOne?_eq_some_iff.mp hlowest).2 i hbelow] at hone
    cases hone

namespace Mask

/-! ## One mask -/

/-- The positions are those of the ones of the number that the mask writes. -/
theorem indices_eq_bitIndices (m : Mask) : m.indices = m.number.bitIndices := by
  refine (pairwise_indices m).eq_of_mem_iff Nat.bitIndices_sorted.pairwise fun i => ?_
  rw [mem_indices, Nat.mem_bitIndices, test]

/-- The positions from a first one upwards are those of all positions that are not below it. -/
theorem indicesFrom_eq (m : Mask) (first : Nat) :
    m.indicesFrom first = m.indices.filter (first ≤ ·) := by
  cases m with
  | bitset length bits => rfl
  | group id bits =>
    refine (pairwise_onesAscending _).eq_of_mem_iff ((pairwise_indices _).filter _) fun i => ?_
    rw [mem_onesAscending, List.mem_filter, mem_indices, decide_eq_true_iff]
    show BitVec.getLsbD _ i = true ↔ bits.getLsbD i = true ∧ first ≤ i
    by_cases hfirst : first < 64
    · by_cases hi : i < 64
      · simp only [if_pos hfirst, BitVec.getLsbD_and, BitVec.getLsbD_shiftLeft,
          BitVec.getLsbD_allOnes, Bool.and_eq_true]
        simp [hi, show i - first < 64 by omega]
      · simp [BitVec.getLsbD_of_ge _ i (Nat.le_of_not_lt hi)]
    · -- no position of a group is that high
      have hnone : ¬ (bits.getLsbD i = true ∧ first ≤ i) := by
        rintro ⟨hone, hfrom⟩
        rw [BitVec.getLsbD_of_ge bits i (by omega)] at hone
        cases hone
      simp [hfirst, hnone]

/-- The lowest position is the first that is listed. -/
theorem lowest?_eq_head? (m : Mask) : m.lowest? = m.indices.head? := by
  apply Option.ext
  intro index
  rw [lowest?_eq_some_iff, indices_eq, List.head?_filter, List.find?_range_eq_some]
  constructor
  · rintro ⟨htest, hbelow⟩
    refine ⟨htest, List.mem_range.mpr (lt_width_of_test htest), fun other hother => ?_⟩
    rw [hbelow other hother]
    rfl
  · rintro ⟨htest, -, hbelow⟩
    refine ⟨htest, fun other hother => ?_⟩
    simpa using hbelow other hother

theorem isEmpty_eq (m : Mask) : m.isEmpty = m.indices.isEmpty := by
  rw [Bool.eq_iff_iff, isEmpty_iff, List.isEmpty_iff, List.eq_nil_iff_forall_not_mem]
  simp only [mem_indices, Bool.not_eq_true]

theorem groupId?_insert (m : Mask) (index : Nat) : (m.insert index).groupId? = m.groupId? := by
  cases m <;> rfl

/-- A position that the mask can have is inserted without a fault. -/
theorem insert?_eq_ok {m : Mask} {index : Nat} (hroom : m.isGroup = true → index < 64) :
    m.insert? index = .ok (m.insert index) := by
  have hfits : (m.isGroup && decide (64 ≤ index)) = false := by
    cases hgroup : m.isGroup with
    | false => rfl
    | true => simp [hroom hgroup]
  rw [insert?, hfits, if_neg Bool.false_ne_true]

/-- Insertion adds the position and no other. -/
theorem mem_indices_insert {m : Mask} {index : Nat} (hroom : m.isGroup = true → index < 64)
    (other : Nat) : other ∈ (m.insert index).indices ↔ other = index ∨ other ∈ m.indices := by
  rw [mem_indices, test_insert hroom, mem_indices, Bool.or_eq_true, decide_eq_true_iff, or_comm,
    eq_comm]

/-- What a mask answers is read off the list of its positions. -/
structure Answers (m : Mask) : Prop where
  ascending : m.indices.Pairwise (· < ·)
  mem_indices : ∀ i, i ∈ m.indices ↔ m.test i = true
  cardinality : m.cardinality = m.indices.length
  lowest : m.lowest? = m.indices.head?
  isEmpty : m.isEmpty = m.indices.isEmpty
  indicesFrom : ∀ first, m.indicesFrom first = m.indices.filter (first ≤ ·)
  /-- A position that the mask has room for is added, and nothing else. -/
  insert : ∀ i, (m.isGroup = true → i < 64) → ∃ grown, m.insert? i = .ok grown ∧
    grown.groupId? = m.groupId? ∧ ∀ j, j ∈ grown.indices ↔ j = i ∨ j ∈ m.indices

/-- A mask answers as the list of its positions does. -/
theorem answers (m : Mask) : m.Answers where
  ascending := pairwise_indices m
  mem_indices _ := Mask.mem_indices
  cardinality := (length_indices m).symm
  lowest := lowest?_eq_head? m
  isEmpty := isEmpty_eq m
  indicesFrom := indicesFrom_eq m
  insert i hroom := ⟨_, insert?_eq_ok hroom, groupId?_insert m i, mem_indices_insert hroom⟩

/-! ## Two masks of one family -/

/-- Masks index the same CPUs if they are of one group, or of none. -/
theorem sameSpace_iff {a b : Mask} : a.sameSpace b = true ↔ a.groupId? = b.groupId? := by
  cases a <;> cases b <;> simp [sameSpace, groupId?]

theorem groupId?_inter (a b : Mask) : (a.inter b).groupId? = a.groupId? := by
  cases a <;> rfl

theorem mem_indices_inter {a b : Mask} {i : Nat} :
    i ∈ (a.inter b).indices ↔ a.groupId? = b.groupId? ∧ i ∈ a.indices ∧ i ∈ b.indices := by
  simp only [mem_indices, test_inter, Bool.and_eq_true, sameSpace_iff]

/-- Masks overlap if they have one group or none, and a position in common. -/
theorem overlaps_iff_indices {a b : Mask} :
    a.overlaps b = true ↔ a.groupId? = b.groupId? ∧ ∃ i ∈ a.indices, i ∈ b.indices := by
  rw [← sameSpace_iff]
  by_cases hspace : a.sameSpace b = true
  · simp only [overlaps_iff hspace, mem_indices, hspace, true_and]
  · simp [overlaps, hspace]

/-- A mask lies in another one if they have one group or none, and its positions are among the
other's. -/
theorem subset_iff_indices {a b : Mask} :
    a.subset b = true ↔ a.groupId? = b.groupId? ∧ a.indices ⊆ b.indices := by
  rw [← sameSpace_iff]
  by_cases hspace : a.sameSpace b = true
  · simp only [subset_iff hspace, List.subset_def, mem_indices, hspace, true_and]
  · simp [subset_eq, hspace]

/-- A mask inside another selects no more positions. -/
theorem cardinality_le_of_subset {a b : Mask} (hsub : a.subset b = true) :
    a.cardinality ≤ b.cardinality := by
  have hnodup : a.indices.Nodup := (pairwise_indices a).imp Nat.ne_of_lt
  rw [← length_indices, ← length_indices]
  exact (List.subperm_of_subset hnodup (subset_iff_indices.mp hsub).2).length_le

/-- If it selects as many, the two are the same. -/
theorem same_of_subset_of_cardinality {a b : Mask} (hsub : a.subset b = true)
    (hsize : a.cardinality = b.cardinality) : a.same b = true := by
  obtain ⟨hgroup, hindices⟩ := subset_iff_indices.mp hsub
  have hnodup : a.indices.Nodup := (pairwise_indices a).imp Nat.ne_of_lt
  rw [← length_indices, ← length_indices] at hsize
  have hperm : a.indices.Perm b.indices :=
    (List.subperm_of_subset hnodup hindices).perm_of_length_le hsize.ge
  refine same_iff_test.mpr ⟨hgroup, fun cpu => ?_⟩
  rw [← mem_indices, ← mem_indices, hperm.mem_iff]

/-- Masks of one family are compared without a fault. -/
theorem comparing_eq_ok {α : Type} {operation : MaskOperation} {a b : Mask}
    (hfamily : a.sameFamily b = true) (answer : α) :
    comparing operation a b answer = .ok answer := by
  rw [comparing, if_pos hfamily]

/-- What is answered for two masks is read off the lists of their positions. Masks of different
groups have nothing in common. -/
structure AnswersWith (a b : Mask) : Prop where
  inter : ∃ shared, a.inter? b = .ok shared ∧ shared.groupId? = a.groupId? ∧
    ∀ i, i ∈ shared.indices ↔ a.groupId? = b.groupId? ∧ i ∈ a.indices ∧ i ∈ b.indices
  overlaps : ∃ answer, a.overlaps? b = .ok answer ∧
    (answer = true ↔ a.groupId? = b.groupId? ∧ ∃ i ∈ a.indices, i ∈ b.indices)
  subset : ∃ answer, a.subset? b = .ok answer ∧
    (answer = true ↔ a.groupId? = b.groupId? ∧ a.indices ⊆ b.indices)

/-- Two masks answer as the lists of their positions do. -/
theorem answersWith {a b : Mask} (hfamily : a.sameFamily b = true) : a.AnswersWith b where
  inter := ⟨_, comparing_eq_ok hfamily _, groupId?_inter a b, fun _ => mem_indices_inter⟩
  overlaps := ⟨_, comparing_eq_ok hfamily _, overlaps_iff_indices⟩
  subset := ⟨_, comparing_eq_ok hfamily _, subset_iff_indices⟩

/-! ## Masks that select the same positions -/

/-- One mask in the place of another that is the same changes no answer, and a mask that is made of
it is the same again. -/
structure AnswersAlike (a a' b b' : Mask) : Prop where
  test : ∀ i, a.test i = a'.test i
  indices : a.indices = a'.indices
  cardinality : a.cardinality = a'.cardinality
  lowest : a.lowest? = a'.lowest?
  isEmpty : a.isEmpty = a'.isEmpty
  indicesFrom : ∀ first, a.indicesFrom first = a'.indicesFrom first
  insert : ∀ i grown, a.insert? i = .ok grown →
    ∃ grown', a'.insert? i = .ok grown' ∧ grown.same grown' = true
  inter : ∃ shared shared', a.inter? b = .ok shared ∧ a'.inter? b' = .ok shared' ∧
    shared.same shared' = true
  overlaps : a.overlaps? b = a'.overlaps? b'
  subset : a.subset? b = a'.subset? b'

/-- Where insertion is no fault, the mask can have the position. -/
theorem room_of_insert?_eq_ok {m grown : Mask} {index : Nat} (h : m.insert? index = .ok grown) :
    m.isGroup = true → index < 64 := by
  intro hgroup
  rw [insert?, hgroup, Bool.true_and] at h
  split at h
  · cases h
  · next hfits => simpa using hfits

section Alike

variable {a a' b b' : Mask} (ha : a.same a' = true) (hb : b.same b' = true)

include ha

/-- Masks that select the same stay so with a further position. -/
theorem insert_same {index : Nat} (hroom : a.isGroup = true → index < 64) :
    (a.insert index).same (a'.insert index) = true := by
  obtain ⟨hgroup, htest⟩ := same_iff_test.mp ha
  have hroom' : a'.isGroup = true → index < 64 := isGroup_eq_of_same ha ▸ hroom
  refine same_iff_test.mpr ⟨?_, fun other => ?_⟩
  · rw [groupId?_insert, groupId?_insert, hgroup]
  · rw [test_insert hroom, test_insert hroom', Bool.or_eq_true, Bool.or_eq_true, htest other]

include hb

/-- Intersections of masks that select the same select the same. -/
theorem inter_same : (a.inter b).same (a'.inter b') = true := by
  refine same_iff_test.mpr ⟨?_, fun cpu => ?_⟩
  · rw [groupId?_inter, groupId?_inter, groupId?_eq_of_same ha]
  · rw [← mem_indices, ← mem_indices, mem_indices_inter, mem_indices_inter,
      groupId?_eq_of_same ha, groupId?_eq_of_same hb, indices_eq_of_same ha, indices_eq_of_same hb]

theorem overlaps_eq_of_same : a.overlaps b = a'.overlaps b' := by
  rw [Bool.eq_iff_iff, overlaps_iff_indices, overlaps_iff_indices, groupId?_eq_of_same ha,
    groupId?_eq_of_same hb, indices_eq_of_same ha, indices_eq_of_same hb]

/-- Masks that select the same answer alike, whatever their lengths. -/
theorem answersAlike (hfamily : a.sameFamily b = true) : AnswersAlike a a' b b' := by
  have hfamily' : a'.sameFamily b' = true := by
    rw [sameFamily, ← isGroup_eq_of_same ha, ← isGroup_eq_of_same hb]
    exact hfamily
  have hindices := indices_eq_of_same ha
  exact
    { test := fun i => Bool.eq_iff_iff.mpr ((same_iff_test.mp ha).2 i)
      indices := hindices
      cardinality := cardinality_eq_of_same ha
      lowest := by rw [lowest?_eq_head?, lowest?_eq_head?, hindices]
      isEmpty := isEmpty_eq_of_same ha
      indicesFrom := fun first => by rw [indicesFrom_eq, indicesFrom_eq, hindices]
      insert := by
        intro i grown hgrown
        have hroom := room_of_insert?_eq_ok hgrown
        have hroom' : a'.isGroup = true → i < 64 := isGroup_eq_of_same ha ▸ hroom
        cases Except.ok.inj ((insert?_eq_ok hroom).symm.trans hgrown)
        exact ⟨_, insert?_eq_ok hroom', insert_same ha hroom⟩
      inter := ⟨_, _, comparing_eq_ok hfamily _, comparing_eq_ok hfamily' _, inter_same ha hb⟩
      overlaps := by
        rw [overlaps?, overlaps?, comparing_eq_ok hfamily, comparing_eq_ok hfamily',
          overlaps_eq_of_same ha hb]
      subset := by
        rw [subset?, subset?, comparing_eq_ok hfamily, comparing_eq_ok hfamily',
          subset_eq_of_same_left ha, subset_eq_of_same_right hb] }

end Alike

end Mask

/-- The operations on masks are those on the sets of their positions, and do not see the length of a
bit-set. -/
theorem masks_answer_as_sets {a b : Mask} (hfamily : a.sameFamily b = true) :
    a.Answers ∧ a.AnswersWith b ∧ ∀ a' b' : Mask, a.same a' = true → b.same b' = true →
      Mask.AnswersAlike a a' b b' :=
  ⟨a.answers, Mask.answersWith hfamily, fun _ _ ha hb => Mask.answersAlike ha hb hfamily⟩

/-- The CPUs 1 and 4 of nine, and CPU 1 of two. -/
theorem masks_answer_as_sets_long_short :
    let a : Mask := .bitset 9 0b10010
    let b : Mask := .bitset 2 0b10
    a.sameFamily b = true ∧ a.Answers ∧ a.AnswersWith b ∧
      Mask.AnswersAlike a (.bitset 5 0b10010) b (.bitset 70 0b10) := by
  intro a b
  obtain ⟨hone, hboth, halike⟩ := masks_answer_as_sets (a := a) (b := b) rfl
  exact ⟨rfl, hone, hboth, halike _ _ (by decide) (by decide)⟩

end CpuPlacement
