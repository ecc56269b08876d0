import CpuPlacement.Proofs.Layout.GroupNumbering
import CpuPlacement.Proofs.Layout.Tiling

/-!
# Masks of a kind are in the order of their last CPUs

Records number the entities of a kind in the numeric order of their masks, descriptors by the last
CPU of each. The two orders are one where masks share no CPU. For bit-sets the reason is that of two
different numbers the larger has the highest of the digits in which they differ. For masks of one
group the same holds of positions; masks of different groups are in the order of the groups, and so
are their CPUs, as long as each mask lies inside its group.
-/

set_option autoImplicit false

namespace CpuPlacement

namespace Mask

/-- Within one space the numeric order of masks is that of their numbers. -/
theorem number_lt_of_cmp {a b : Mask} (hspace : a.sameSpace b = true) (hlt : a.cmp b = .lt) :
    a.number < b.number := by
  cases a <;> cases b <;>
    simp only [cmp_bitset, cmp_group, sameSpace, beq_iff_eq,
      Ordering.then_eq_lt, Nat.compare_eq_lt, Nat.compare_eq_eq, reduceCtorEq] at hspace hlt
  · exact hlt
  · simp only [number]
    omega

/-- Of two masks that share nothing the larger has a position above all of the smaller. -/
theorem exists_above_of_cmp_lt {a b : Mask} (hspace : a.sameSpace b = true) (hlt : a.cmp b = .lt)
    (hapart : ∀ index, a.test index = true → ¬ b.test index = true) :
    ∃ top, b.test top = true ∧ ∀ index, a.test index = true → index < top := by
  have hless := number_lt_of_cmp hspace hlt
  have htop : b.test b.number.log2 = true := Nat.testBit_log2 (by omega)
  refine ⟨b.number.log2, htop, fun index hindex => ?_⟩
  by_contra habove
  have hne : index ≠ b.number.log2 := fun hsame => hapart index hindex (hsame ▸ htop)
  have hpow : 2 ^ (b.number.log2 + 1) ≤ 2 ^ index :=
    Nat.pow_le_pow_right (by decide) (by omega)
  have hbig : 2 ^ index ≤ a.number := Nat.ge_two_pow_of_testBit hindex
  have hsmall : b.number < 2 ^ (b.number.log2 + 1) := Nat.lt_log2_self
  omega

/-- A mask that lies inside a mask of a group is of that group. -/
theorem groupId?_eq_of_subset {a b : Mask} (hsub : a.subset b = true) :
    a.groupId? = b.groupId? := by
  have hspace := sameSpace_of_subset hsub
  cases a <;> cases b <;> simp_all [sameSpace, groupId?]

/-- What lies in a group mask is a group mask. -/
theorem isGroup_of_subset {a b : Mask} (hsub : a.subset b = true) (hb : b.isGroup = true) :
    a.isGroup = true := by
  have hspace := sameSpace_of_subset hsub
  cases a <;> cases b <;> simp_all [sameSpace, isGroup]

/-- Group masks are in the order of their groups first. -/
theorem groupId?_le_of_cmp {a b : Mask} (ha : a.isGroup = true) (hb : b.isGroup = true)
    (hlt : a.cmp b = .lt) :
    ∃ idA, a.groupId? = some idA ∧ ∃ idB, b.groupId? = some idB ∧ idA ≤ idB := by
  cases a with
  | bitset => cases ha
  | group idA bitsA =>
    cases b with
    | bitset => cases hb
    | group idB bitsB =>
      refine ⟨idA, rfl, idB, rfl, ?_⟩
      simp only [cmp_group, Ordering.then_eq_lt, Nat.compare_eq_lt, Nat.compare_eq_eq] at hlt
      omega

end Mask

theorem CpuNumbering.baseOf?_congr (n : CpuNumbering) {a b : Mask}
    (hsame : a.groupId? = b.groupId?) : n.baseOf? a = n.baseOf? b := by
  rw [baseOf?, baseOf?, hsame]

namespace Parts

variable {p : Parts}

/-- The second mask has a CPU above all CPUs of the first. -/
def EndsBefore (p : Parts) (a b : Mask) : Prop :=
  ∃ last ∈ p.layout.cpusOf b, ∀ cpu ∈ p.layout.cpusOf a, cpu < last

/-- Two masks of a kind share no CPU. -/
theorem Divides.apart {owner? : Slot → Option Nat} {masks : List Mask} (h : p.Divides owner? masks)
    {i j : Nat} {a b : Mask} (ha : masks[i]? = some a) (hb : masks[j]? = some b) (hne : i ≠ j)
    {cpu : Nat} (hcpu : cpu ∈ p.layout.cpusOf a) : cpu ∉ p.layout.cpusOf b := by
  intro hother
  have hi := (h.mem_cpusOf_iff ha cpu).mp hcpu
  have hj := (h.mem_cpusOf_iff hb cpu).mp hother
  exact hne (Option.some.inj (hi.symm.trans hj))

/-- A kind is in the order of its last CPUs if any two of its masks that share no CPU are. -/
theorem Divides.pairwise_endsBefore {owner? : Slot → Option Nat} {masks : List Mask}
    (h : p.Divides owner? masks)
    (hpair : ∀ a ∈ masks, ∀ b ∈ masks, a.cmp b = .lt →
      (∀ cpu ∈ p.layout.cpusOf a, cpu ∉ p.layout.cpusOf b) → p.EndsBefore a b) :
    masks.Pairwise p.EndsBefore := by
  refine List.pairwise_iff_getElem.mpr fun i j hi hj hlt => ?_
  refine hpair _ (List.getElem_mem hi) _ (List.getElem_mem hj)
    (List.pairwise_iff_getElem.mp h.ascends i j hi hj hlt) fun cpu hcpu => ?_
  exact h.apart (List.getElem?_eq_getElem hi) (List.getElem?_eq_getElem hj) (Nat.ne_of_lt hlt) hcpu

/-- Of bit-sets that share no CPU the lower one in the order ends first. -/
theorem endsBefore_of_bitsets {a b : Mask} (ha : a.isGroup = false) (hb : b.isGroup = false)
    (hlt : a.cmp b = .lt) (hapart : ∀ cpu ∈ p.layout.cpusOf a, cpu ∉ p.layout.cpusOf b) :
    p.EndsBefore a b := by
  obtain ⟨top, htop, habove⟩ := Mask.exists_above_of_cmp_lt (Mask.sameSpace_of_bitsets ha hb) hlt
    fun index hindex htest => hapart index ((Layout.mem_cpusOf_bitset ha).mpr hindex)
      ((Layout.mem_cpusOf_bitset hb).mpr htest)
  exact ⟨top, (Layout.mem_cpusOf_bitset hb).mpr htop,
    fun cpu hcpu => habove cpu ((Layout.mem_cpusOf_bitset ha).mp hcpu)⟩

end Parts

namespace Record.Accepted

variable {records : List Record} {coverage : Coverage}

/-- The CPUs of a group mask are its positions, counted from the base of the group. -/
theorem mem_cpusOf_parts {mask : Mask} (hgroup : mask.isGroup = true) {cpu : Nat} :
    cpu ∈ (parts true records coverage).layout.cpusOf mask ↔
      ∃ base bit, (numbering true records).baseOf? mask = some base ∧ mask.test bit = true ∧
        base + bit = cpu :=
  CpuNumbering.mem_cpusOf_iff_baseOf? rfl hgroup

/-- Of two groups the one with the smaller number ends before the other begins. -/
theorem ends_before_base (h : Accepted records true coverage) {a b : Mask} {idA idB x y : Nat}
    (ha : a ∈ groupMasks true records) (hb : b ∈ groupMasks true records)
    (hidA : a.groupId? = some idA) (hidB : b.groupId? = some idB) (hlt : idA < idB)
    (hx : (numbering true records).baseOf? a = some x)
    (hy : (numbering true records).baseOf? b = some y) : x + a.cardinality ≤ y := by
  obtain ⟨i, hi, rfl⟩ := List.mem_iff_getElem.mp ha
  obtain ⟨j, hj, rfl⟩ := List.mem_iff_getElem.mp hb
  have hascends := List.pairwise_iff_getElem.mp (ascends_groupMasks true records)
  rcases Nat.lt_trichotomy i j with hij | rfl | hji
  · exact List.pairwise_iff_getElem.mp h.consecutive.ordered i j hi hj hij x y hx hy
  · exact absurd (Option.some.inj (hidA.symm.trans hidB)) (Nat.ne_of_lt hlt)
  · -- Groups are listed by ascending number.
    obtain ⟨other, hother, id, hid, hle⟩ := Mask.groupId?_le_of_cmp (h.isGroup_groupMasks hb)
      (h.isGroup_groupMasks ha) (hascends j i hj hi hji)
    cases Option.some.inj (hother.symm.trans hidB)
    cases Option.some.inj (hid.symm.trans hidA)
    omega

/-- Two masks of one group are in the order of their last positions. -/
theorem endsBefore_of_same_group {a b : Mask} (ha : a.isGroup = true) (hb : b.isGroup = true)
    (hsame : a.groupId? = b.groupId?)
    (hinhabited : (parts true records coverage).layout.cpusOf b ≠ []) (hlt : a.cmp b = .lt)
    (hapart : ∀ cpu ∈ (parts true records coverage).layout.cpusOf a,
      cpu ∉ (parts true records coverage).layout.cpusOf b) :
    (parts true records coverage).EndsBefore a b := by
  obtain ⟨_, hsome⟩ := List.exists_mem_of_ne_nil _ hinhabited
  obtain ⟨base, _, hbaseB, -⟩ := (mem_cpusOf_parts hb).mp hsome
  have hbaseA := ((numbering true records).baseOf?_congr hsame).trans hbaseB
  have hspace : a.sameSpace b = true := by
    cases a <;> cases b <;> simp_all [Mask.groupId?, Mask.sameSpace, Mask.isGroup]
  obtain ⟨top, htop, habove⟩ := Mask.exists_above_of_cmp_lt hspace hlt
    fun index hindex htest => hapart (base + index)
      ((mem_cpusOf_parts ha).mpr ⟨base, index, hbaseA, hindex, rfl⟩)
      ((mem_cpusOf_parts hb).mpr ⟨base, index, hbaseB, htest, rfl⟩)
  refine ⟨base + top, (mem_cpusOf_parts hb).mpr ⟨base, top, hbaseB, htop, rfl⟩, fun cpu hcpu => ?_⟩
  obtain ⟨other, bit, hother, htest, rfl⟩ := (mem_cpusOf_parts ha).mp hcpu
  cases Option.some.inj (hother.symm.trans hbaseA)
  exact Nat.add_lt_add_left (habove bit htest) base

/-- Masks inside two groups are in the order of the groups. -/
theorem endsBefore_of_less_group (h : Accepted records true coverage) {a b spanA spanB : Mask}
    {idA idB : Nat} (hspanA : spanA ∈ groupMasks true records)
    (hspanB : spanB ∈ groupMasks true records) (hsubA : a.subset spanA = true)
    (hsubB : b.subset spanB = true) (hidA : spanA.groupId? = some idA)
    (hidB : spanB.groupId? = some idB) (hless : idA < idB) (ha : a.isGroup = true)
    (hb : b.isGroup = true) (hinhabited : (parts true records coverage).layout.cpusOf b ≠ []) :
    (parts true records coverage).EndsBefore a b := by
  obtain ⟨last, hlast⟩ := List.exists_mem_of_ne_nil _ hinhabited
  refine ⟨last, hlast, fun cpu hcpu => ?_⟩
  obtain ⟨x, bit, hx, htest, rfl⟩ := (mem_cpusOf_parts ha).mp hcpu
  obtain ⟨y, other, hy, -, rfl⟩ := (mem_cpusOf_parts hb).mp hlast
  have hbit : bit < spanA.cardinality :=
    (h.filled spanA hspanA bit).mp (Mask.test_of_subset hsubA htest)
  have hend : x + spanA.cardinality ≤ y :=
    h.ends_before_base hspanA hspanB hidA hidB hless
      ((numbering true records).baseOf?_congr (Mask.groupId?_eq_of_subset hsubA) ▸ hx)
      ((numbering true records).baseOf?_congr (Mask.groupId?_eq_of_subset hsubB) ▸ hy)
  omega

/-- Masks that lie inside their groups are in the order of their last CPUs. -/
theorem endsBefore_of_groups (h : Accepted records true coverage) {a b : Mask}
    (ha : ∃ span ∈ groupMasks true records, a.subset span = true)
    (hb : ∃ span ∈ groupMasks true records, b.subset span = true)
    (hinhabited : (parts true records coverage).layout.cpusOf b ≠ []) (hlt : a.cmp b = .lt)
    (hapart : ∀ cpu ∈ (parts true records coverage).layout.cpusOf a,
      cpu ∉ (parts true records coverage).layout.cpusOf b) :
    (parts true records coverage).EndsBefore a b := by
  obtain ⟨spanA, hspanA, hsubA⟩ := ha
  obtain ⟨spanB, hspanB, hsubB⟩ := hb
  have hgroupA := Mask.isGroup_of_subset hsubA (h.isGroup_groupMasks hspanA)
  have hgroupB := Mask.isGroup_of_subset hsubB (h.isGroup_groupMasks hspanB)
  obtain ⟨idA, hidA, idB, hidB, hle⟩ := Mask.groupId?_le_of_cmp hgroupA hgroupB hlt
  by_cases hsame : idA = idB
  · have hids : a.groupId? = b.groupId? := by rw [hidA, hidB, hsame]
    exact endsBefore_of_same_group hgroupA hgroupB hids hinhabited hlt hapart
  · exact h.endsBefore_of_less_group hspanA hspanB hsubA hsubB
      ((Mask.groupId?_eq_of_subset hsubA).symm.trans hidA)
      ((Mask.groupId?_eq_of_subset hsubB).symm.trans hidB) (Nat.lt_of_le_of_ne hle hsame) hgroupA
      hgroupB hinhabited

end Record.Accepted

end CpuPlacement
