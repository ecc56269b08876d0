import CpuPlacement.Proofs.Mask.Positions
import Mathlib

/-!
# The two orders on masks are total

Both orders look at one position only: the numeric order at the highest in which two masks differ,
the order of listings at the lowest. In the first a mask stands where the number stands that its
positions write (`Mask.written`), so the first is total because numbers are. The second is that of
the sequences of bits, read from position 0 on, and is shown total as such (`Mask.Leads`). Masks
compare equal in either exactly if they are the same, and a mask that lies properly inside another
is below it in the first and after it in the second.
-/

set_option autoImplicit false

namespace CpuPlacement

namespace Mask

/-! ## The number of a mask -/

/-- The number that the positions write as binary digits. -/
def written (m : Mask) : Nat :=
  (m.indices.map (2 ^ ·)).sum

theorem written_eq (m : Mask) : m.written = m.number := by
  rw [written, indices_eq_bitIndices, Nat.sum_map_two_pow_bitIndices]

/-- Bit-sets before group masks; bit-sets by the number that they write, group masks by group and
then by that number. -/
def numericCmp (a b : Mask) : Ordering :=
  match a.groupId?, b.groupId? with
  | none, none => compare a.written b.written
  | none, some _ => .lt
  | some _, none => .gt
  | some g, some h => (compare g h).then (compare a.written b.written)

/-- The numeric order by the highest differing position is that of the numbers. -/
theorem cmp_eq_numericCmp (a b : Mask) : a.cmp b = a.numericCmp b := by
  rw [numericCmp, written_eq, written_eq]
  cases a with
  | bitset n x =>
    cases b with
    | bitset m y => exact cmp_bitset x y
    | group h y => exact cmp_bitset_group x y
  | group g x =>
    cases b with
    | bitset m y => exact cmp_group_bitset x y
    | group h y => exact cmp_group g h x y

/-! ## The lowest difference -/

section Lowest

variable {a b c : Mask}

/-- At the lowest position in which the masks differ, the first one selects it. -/
def Leads (a b : Mask) : Prop :=
  ∃ i, (∀ j < i, a.test j = b.test j) ∧ a.test i = true ∧ b.test i = false

/-- A mask that leads another one is different. -/
theorem Leads.number_ne (h : a.Leads b) : a.number ≠ b.number := by
  obtain ⟨i, -, ha, hb⟩ := h
  intro hsame
  rw [test, hsame, ← test, hb] at ha
  cases ha

/-- Leading is transitive. -/
theorem Leads.trans (hab : a.Leads b) (hbc : b.Leads c) : a.Leads c := by
  obtain ⟨i, hagree, ha, hb⟩ := hab
  obtain ⟨j, hagree', hb', hc⟩ := hbc
  rcases Nat.lt_trichotomy i j with hlt | rfl | hlt
  · refine ⟨i, fun k hk => (hagree k hk).trans (hagree' k (hk.trans hlt)), ha, ?_⟩
    rw [← hagree' i hlt, hb]
  · rw [hb] at hb'
    cases hb'
  · refine ⟨j, fun k hk => (hagree k (hk.trans hlt)).trans (hagree' k hk), ?_, hc⟩
    rw [hagree j hlt, hb']

theorem Leads.asymm (h : a.Leads b) : ¬ b.Leads a :=
  fun hother => (h.trans hother).number_ne rfl

/-- The three outcomes of looking at the lowest difference. -/
theorem lowestFirst_cases (a b : Mask) :
    (a.number = b.number ∧ a.lowestFirst b = .eq) ∨ (a.Leads b ∧ a.lowestFirst b = .lt) ∨
      (b.Leads a ∧ a.lowestFirst b = .gt) := by
  rw [lowestFirst]
  cases hdifference : a.lowestDifference? b with
  | none =>
    have hxor := lowestOne?_eq_none_iff.mp hdifference
    exact Or.inl ⟨Nat.xor_eq_zero_iff.mp hxor, rfl⟩
  | some i =>
    obtain ⟨hat, hbelow⟩ := lowestOne?_eq_some_iff.mp hdifference
    -- below the lowest difference the masks agree, and whichever has the position leads
    have hagree : ∀ j < i, a.test j = b.test j := by
      intro j hj
      have hzero := hbelow j hj
      rwa [Nat.testBit_xor, bne_eq_false_iff_eq] at hzero
    have hdiffer : (a.test i ^^ b.test i) = true := by
      rwa [Nat.testBit_xor] at hat
    cases ha : a.test i with
    | true =>
      have hb : b.test i = false := by simpa [ha] using hdiffer
      exact Or.inr (Or.inl ⟨⟨i, hagree, ha, hb⟩, by simp [ha]⟩)
    | false =>
      have hb : b.test i = true := by simpa [ha] using hdiffer
      exact Or.inr (Or.inr ⟨⟨i, fun j hj => (hagree j hj).symm, hb, ha⟩, by simp [ha]⟩)

/-- The masks tie only if they have one number. -/
theorem lowestFirst_eq_eq_iff : a.lowestFirst b = .eq ↔ a.number = b.number := by
  rcases lowestFirst_cases a b with ⟨hsame, heq⟩ | ⟨hleads, heq⟩ | ⟨hleads, heq⟩
  · simp [hsame, heq]
  · simp [hleads.number_ne, heq]
  · simp [hleads.number_ne.symm, heq]

/-- The mask that leads comes first. -/
theorem lowestFirst_eq_lt_iff : a.lowestFirst b = .lt ↔ a.Leads b := by
  rcases lowestFirst_cases a b with ⟨hsame, heq⟩ | ⟨hleads, heq⟩ | ⟨hleads, heq⟩
  · have hnot : ¬ a.Leads b := fun hleads => hleads.number_ne hsame
    simp [heq, hnot]
  · simp [heq, hleads]
  · simp [heq, hleads.asymm]

/-- Exchanging the masks turns the answer round. -/
theorem lowestFirst_swap (a b : Mask) : a.lowestFirst b = (b.lowestFirst a).swap := by
  rcases lowestFirst_cases a b with ⟨hsame, heq⟩ | ⟨hleads, heq⟩ | ⟨hleads, heq⟩
  · rw [heq, lowestFirst_eq_eq_iff.mpr hsame.symm]
    rfl
  · rcases lowestFirst_cases b a with ⟨hsame, -⟩ | ⟨hother, -⟩ | ⟨-, hother⟩
    · exact absurd hsame.symm hleads.number_ne
    · exact absurd hother hleads.asymm
    · rw [heq, hother]
      rfl
  · rw [heq, lowestFirst_eq_lt_iff.mpr hleads]
    rfl

theorem isLE_lowestFirst_iff :
    (a.lowestFirst b).isLE = true ↔ a.number = b.number ∨ a.Leads b := by
  rw [Ordering.isLE_iff_eq_lt_or_eq_eq, lowestFirst_eq_lt_iff, lowestFirst_eq_eq_iff, or_comm]

/-- Masks of one number are led by the same masks. -/
theorem leads_congr {a' b' : Mask} (ha : a.number = a'.number) (hb : b.number = b'.number) :
    a.Leads b ↔ a'.Leads b' := by
  simp only [Leads, test, ha, hb]

end Lowest

instance : Std.TransCmp lowestFirst where
  eq_swap {a b} := lowestFirst_swap a b
  isLE_trans {a b c} hab hbc := by
    rw [isLE_lowestFirst_iff] at hab hbc ⊢
    rcases hab with hab | hab
    · exact hbc.imp hab.trans (leads_congr hab rfl).mpr
    · rcases hbc with hbc | hbc
      · exact Or.inr ((leads_congr rfl hbc).mp hab)
      · exact Or.inr (hab.trans hbc)

instance : Std.TransCmp dumpCmp :=
  inferInstanceAs (Std.TransCmp (compareLex (compareOn groupId?) lowestFirst))

/-! ## Total orders -/

/-- A comparison that orders masks totally, in which exactly the masks that are the same compare
equal. -/
structure TotalOrder (cmp : Mask → Mask → Ordering) : Prop where
  swap : ∀ a b, cmp b a = (cmp a b).swap
  total : ∀ a b, (cmp a b).isLE = true ∨ (cmp b a).isLE = true
  antisymm : ∀ a b, (cmp a b).isLE = true → (cmp b a).isLE = true → a.same b = true
  trans : ∀ a b c, (cmp a b).isLE = true → (cmp b c).isLE = true → (cmp a c).isLE = true
  eq_iff_same : ∀ a b, cmp a b = .eq ↔ a.same b = true

/-- A lawful comparison that ties on masks that are the same is a total order. -/
theorem TotalOrder.of_transCmp {cmp : Mask → Mask → Ordering} [Std.TransCmp cmp]
    (heq : ∀ a b, cmp a b = .eq ↔ a.same b = true) : TotalOrder cmp where
  swap _ _ := Std.OrientedCmp.eq_swap
  total a b := by
    have hswap : cmp b a = (cmp a b).swap := Std.OrientedCmp.eq_swap
    rw [hswap]
    cases cmp a b <;> simp
  antisymm a b hab hba := (heq a b).mp (Std.OrientedCmp.isLE_antisymm hab hba)
  trans _ _ _ := Std.TransCmp.isLE_trans
  eq_iff_same := heq

/-- The listing order ties only on masks that are the same. -/
theorem dumpCmp_eq_eq_iff {a b : Mask} : a.dumpCmp b = .eq ↔ a.same b = true := by
  rw [dumpCmp, Ordering.then_eq_eq, Std.LawfulEqOrd.compare_eq_iff_eq, lowestFirst_eq_eq_iff,
    same_iff]

/-- Masks are the same if both are bit-sets of the same positions or both are one group mask. -/
theorem same_iff_indices_or_eq {a b : Mask} :
    a.same b = true ↔ (a.isGroup = false ∧ b.isGroup = false ∧ a.indices = b.indices) ∨
      ∃ id bits, a = .group id bits ∧ b = .group id bits := by
  constructor
  · intro hsame
    cases a with
    | bitset n x =>
      have hgroup := isGroup_eq_of_same hsame
      exact Or.inl ⟨rfl, hgroup.symm, indices_eq_of_same hsame⟩
    | group g x => exact Or.inr ⟨g, x, rfl, (eq_of_same rfl hsame).symm⟩
  · rintro (⟨ha, hb, hindices⟩ | ⟨id, bits, rfl, rfl⟩)
    · have hspace := sameSpace_iff.mp (sameSpace_of_bitsets ha hb)
      refine same_iff_test.mpr ⟨hspace, fun cpu => ?_⟩
      rw [← mem_indices, hindices, mem_indices]
    · exact same_refl _

/-! ## Masks inside masks -/

section Inside

variable {a b : Mask} (hsub : a.subset b = true) (hmore : a.same b = false)

include hsub hmore

/-- A mask properly inside another has some position less, and everywhere else they agree or the
other has more. -/
theorem leads_of_subset : b.Leads a := by
  have hgroup := sameSpace_iff.mp (sameSpace_of_subset hsub)
  have hnumber : a.number ≠ b.number := fun hsame => by
    rw [same_iff.mpr ⟨hgroup, hsame⟩] at hmore
    cases hmore
  rcases lowestFirst_cases b a with ⟨hsame, -⟩ | ⟨hleads, -⟩ | ⟨⟨i, -, ha, hb⟩, -⟩
  · exact absurd hsame.symm hnumber
  · exact hleads
  · rw [test_of_subset hsub ha] at hb
    cases hb

/-- A mask comes before what it contains. -/
theorem dumpCmp_eq_lt_of_subset : b.dumpCmp a = .lt := by
  have hgroup := sameSpace_iff.mp (sameSpace_of_subset hsub)
  rw [dumpCmp, Std.LawfulEqOrd.compare_eq_iff_eq.mpr hgroup.symm, Ordering.eq_then,
    lowestFirst_eq_lt_iff]
  exact leads_of_subset hsub hmore

/-- A mask has a larger number than what it contains. -/
theorem cmp_eq_lt_of_subset : a.cmp b = .lt := by
  have hgroup := sameSpace_iff.mp (sameSpace_of_subset hsub)
  have hle : a.number ≤ b.number := by
    have hand : a.number &&& b.number = a.number := by
      rw [subset_eq, Bool.and_eq_true, beq_iff_eq] at hsub
      exact hsub.2
    rw [← hand]
    exact Nat.and_le_right
  have hlt : a.number < b.number := by
    refine Nat.lt_of_le_of_ne hle fun hsame => ?_
    rw [same_iff.mpr ⟨hgroup, hsame⟩] at hmore
    cases hmore
  refine cmp_eq_lt_iff.mpr (Prod.Lex.toLex_lt_toLex.mpr (Or.inr ⟨?_, hlt⟩))
  rw [hgroup]

end Inside

/-- Fewer positions of one group, or of none, are those of a mask properly inside the other. -/
theorem subset_and_not_same {a b : Mask} (hgroup : a.groupId? = b.groupId?)
    (hsub : a.indices ⊆ b.indices) (hmore : ¬ b.indices ⊆ a.indices) :
    a.subset b = true ∧ a.same b = false := by
  refine ⟨subset_iff_indices.mpr ⟨hgroup, hsub⟩, Bool.eq_false_iff.mpr fun hsame => hmore ?_⟩
  rw [indices_eq_of_same hsame]
  exact List.Subset.refl _

/-- The listing order goes by groups first. -/
theorem dumpCmp_of_groupId?_lt {g h : Nat} (hlt : g < h) (x y : BitVec 64) :
    (group g x).dumpCmp (group h y) = .lt := by
  have hgroups : compare (group g x).groupId? (group h y).groupId? = .lt :=
    Nat.compare_eq_lt.mpr hlt
  rw [dumpCmp, hgroups]
  rfl

end Mask

/-- Both orders on masks are total and agree with what the masks select. The numeric order is that
of the numbers that the positions write, behind the family and the group. The order of listings
answers within each family and has lower groups in front. A mask properly inside another comes
before it in the numeric order and after it in listings. -/
theorem mask_orders_total :
    Mask.TotalOrder Mask.cmp ∧ (∀ a b : Mask, a.cmp b = a.numericCmp b) ∧
    (∀ a b : Mask, a.same b = true ↔
      (a.isGroup = false ∧ b.isGroup = false ∧ a.indices = b.indices) ∨
        ∃ id bits, a = .group id bits ∧ b = .group id bits) ∧
    Mask.TotalOrder Mask.dumpCmp ∧
    (∀ a b : Mask, a.sameFamily b = true → a.dumpCmp? b = .ok (a.dumpCmp b)) ∧
    (∀ (g h : Nat) (x y : BitVec 64), g < h → (Mask.group g x).dumpCmp (.group h y) = .lt) ∧
    ∀ a b : Mask, a.groupId? = b.groupId? → a.indices ⊆ b.indices → ¬ b.indices ⊆ a.indices →
      a.cmp b = .lt ∧ b.dumpCmp a = .lt := by
  refine ⟨.of_transCmp fun a b => ?_, Mask.cmp_eq_numericCmp,
    fun a b => Mask.same_iff_indices_or_eq, .of_transCmp fun a b => Mask.dumpCmp_eq_eq_iff,
    fun a b hfamily => Mask.comparing_eq_ok hfamily _,
    fun g h x y hlt => Mask.dumpCmp_of_groupId?_lt hlt x y, fun a b hgroup hsub hmore => ?_⟩
  · rw [Mask.same, beq_iff_eq]
  · obtain ⟨hinside, hother⟩ := Mask.subset_and_not_same hgroup hsub hmore
    exact ⟨Mask.cmp_eq_lt_of_subset hinside hother, Mask.dumpCmp_eq_lt_of_subset hinside hother⟩

end CpuPlacement
