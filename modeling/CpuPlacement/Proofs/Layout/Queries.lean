import CpuPlacement.Layout.Basic
import CpuPlacement.Proofs.Mask.Order

/-!
# What a layout answers

The queries of a layout in terms of its slots and of the masks of its CPUs.
-/

set_option autoImplicit false

namespace CpuPlacement.Layout

/-! ## Cores and their CPUs -/

/-- A descriptor is found for the CPUs that have one. -/
theorem descriptor_eq_ok_iff {l : Layout} {cpu : Nat} {d : Descriptor} :
    l.descriptor cpu = .ok d ↔ l.descriptors[cpu]? = some d := by
  rw [descriptor, atCpu]
  cases l.descriptors[cpu]? <;> simp

/-- The physical core of a CPU is that of its slot. -/
theorem physicalCore_eq_ok_iff {l : Layout} {cpu core : Nat} :
    l.physicalCore cpu = .ok core ↔ ∃ slot, l.slots[cpu]? = some slot ∧ slot.core = core := by
  unfold physicalCore atCpu
  cases hslot : l.slots[cpu]? with
  | none => simp [bind, Except.bind]
  | some slot => simp [bind, Except.bind, pure, Except.pure]

/-- The siblings of a core are the CPUs that have it as their physical core. -/
theorem mem_siblings {l : Layout} {cpu core : Nat} :
    cpu ∈ l.siblings core ↔ l.physicalCore cpu = .ok core := by
  unfold siblings
  rw [List.mem_mergeSort, physicalCore_eq_ok_iff]
  simp only [List.mem_filterMap, Option.ite_none_right_eq_some, Option.some.injEq, Prod.exists,
    List.mem_zipIdx_iff_getElem?]
  constructor
  · rintro ⟨slot, index, hslot, hcore, rfl⟩
    exact ⟨slot, hslot, hcore⟩
  · rintro ⟨slot, hslot, hcore⟩
    exact ⟨slot, cpu, hslot, hcore, rfl⟩

/-! ## Masks and CPUs -/

/-- A mask contains a CPU if the CPU's own mask lies in it. -/
theorem maskContains_iff {l : Layout} {mask : Mask} {cpu : Nat} :
    l.maskContains mask cpu = true ↔
      ∃ single, l.cpuMasks[cpu]? = some single ∧ single.subset mask = true :=
  Option.any_eq_true ..

/-- The checked form finds a CPU in a mask where the other does; a mask of another family contains
no CPU. -/
theorem maskContains?_eq_ok_true_iff {l : Layout} {mask : Mask} {cpu : Nat} :
    l.maskContains? mask cpu = .ok true ↔ l.maskContains mask cpu = true := by
  unfold maskContains? maskContains
  cases l.cpuMasks[cpu]? with
  | none => simp
  | some single =>
    rw [Option.any_some]
    show Mask.comparing .subset single mask (single.subset mask) = .ok true ↔ _
    unfold Mask.comparing
    constructor
    · intro h
      split at h
      · exact Except.ok.inj h
      · cases h
    · intro h
      rw [if_pos (Mask.sameFamily_of_sameSpace (Mask.sameSpace_of_subset h)), h]

/-- A larger mask contains what a smaller one does. -/
theorem maskContains_of_subset {l : Layout} {inner outer : Mask} {cpu : Nat}
    (hcpu : l.maskContains inner cpu = true) (hsub : inner.subset outer = true) :
    l.maskContains outer cpu = true := by
  obtain ⟨single, hsingle, hinner⟩ := maskContains_iff.mp hcpu
  exact maskContains_iff.mpr ⟨single, hsingle, Mask.subset_trans hinner hsub⟩

/-- The CPUs of a group mask are its positions, counted from the base of the group. -/
theorem cpusOf_group {l : Layout} {id base : Nat} {bits : BitVec 64}
    (hbase : l.groupBases.lookup id = some base) :
    l.cpusOf (.group id bits) = (Mask.group id bits).indices.map (base + ·) := by
  rw [cpusOf, groupBase?, hbase]

/-- A group mask that has CPUs is of a group that is there. -/
theorem exists_base_of_mem_cpusOf {l : Layout} {id cpu : Nat} {bits : BitVec 64}
    (hcpu : cpu ∈ l.cpusOf (.group id bits)) : ∃ base, l.groupBases.lookup id = some base := by
  rw [cpusOf, groupBase?] at hcpu
  cases hbase : l.groupBases.lookup id with
  | none => simp [hbase] at hcpu
  | some base => exact ⟨base, rfl⟩

/-- The CPUs of a mask are listed in ascending order. -/
theorem pairwise_cpusOf (l : Layout) (mask : Mask) : (l.cpusOf mask).Pairwise (· < ·) := by
  cases mask with
  | bitset length bits => exact Mask.pairwise_indices _
  | group id bits =>
    rw [cpusOf]
    cases l.groupBase? id with
    | none => exact List.Pairwise.nil
    | some base =>
      refine List.pairwise_map.mpr ((Mask.pairwise_indices _).imp fun hlt => ?_)
      exact Nat.add_lt_add_left hlt base

/-- A mask that selects a CPU of the machine is not empty. -/
theorem isEmpty_eq_false_of_cpusOf {l : Layout} {mask : Mask} (h : l.cpusOf mask ≠ []) :
    mask.isEmpty = false := by
  have hindices : mask.indices ≠ [] := by
    intro hnil
    cases mask with
    | bitset length bits => exact h hnil
    | group id bits =>
      rw [cpusOf, hnil] at h
      cases hbase : l.groupBase? id <;> simp [hbase] at h
  obtain ⟨index, hindex⟩ := List.exists_mem_of_ne_nil _ hindices
  exact Mask.isEmpty_eq_false_of_test (Mask.mem_indices.mp hindex)

/-- A bit-set selects machine-wide CPU numbers. -/
theorem mem_cpusOf_bitset {l : Layout} {mask : Mask} (hbitset : mask.isGroup = false) {cpu : Nat} :
    cpu ∈ l.cpusOf mask ↔ mask.test cpu = true := by
  cases mask with
  | group => cases hbitset
  | bitset length bits => exact Mask.mem_indices

/-- Where the CPUs have bit-sets of their own, bit-sets contain the CPUs that they select, and group
masks contain none. -/
theorem maskContains_bitset {l : Layout} {n : Nat}
    (hsingles : l.cpuMasks = (List.range n).map (Mask.single n)) {mask : Mask} {cpu : Nat} :
    l.maskContains mask cpu = true ↔ cpu < n ∧ mask.isGroup = false ∧ mask.test cpu = true := by
  have hsubset : (Mask.single n cpu).subset mask = true ↔
      mask.isGroup = false ∧ mask.test cpu = true := by
    cases mask with
    | group id bits =>
      simp [Mask.subset_eq, Mask.single, Mask.ofIndices, Mask.empty, Mask.insert, Mask.sameSpace,
        Mask.isGroup]
    | bitset length bits =>
      have hspace : (Mask.single n cpu).sameSpace (.bitset length bits) = true := rfl
      simp [Mask.subset_iff hspace, Mask.test_single, Mask.isGroup]
  rw [maskContains_iff, hsingles]
  by_cases hcpu : cpu < n
  · simp [hcpu, hsubset]
  · simp [hcpu]

/-- A position of a group is in the masks of that group that select it. -/
theorem maskContains_group {l : Layout} {cpu id bit : Nat} (hbit : bit < 64)
    (hsingle : l.cpuMasks[cpu]? = some (Mask.groupSingle id bit)) {mask : Mask} :
    l.maskContains mask cpu = true ↔ mask.groupId? = some id ∧ mask.test bit = true := by
  have hsubset : l.maskContains mask cpu = (Mask.groupSingle id bit).subset mask := by
    rw [maskContains, hsingle, Option.any_some]
  rw [hsubset]
  cases mask with
  | bitset length bits => simp [Mask.subset_eq, Mask.groupSingle, Mask.sameSpace, Mask.groupId?]
  | group other bits =>
    by_cases hsame : id = other
    · subst hsame
      have hspace : (Mask.groupSingle id bit).sameSpace (.group id bits) = true :=
        beq_self_eq_true id
      simp [Mask.subset_iff hspace, Mask.test_groupSingle hbit, Mask.groupId?]
    · simp [Mask.subset_eq, Mask.groupSingle, Mask.sameSpace, Mask.groupId?, hsame, Ne.symm hsame]

end CpuPlacement.Layout
