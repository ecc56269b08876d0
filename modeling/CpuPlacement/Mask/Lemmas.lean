import CpuPlacement.Mask.Basic

/-!
# What the operations on masks select

Each operation in terms of the view `test`. Nothing beyond the width is ever selected, `indices`
lists exactly what is selected and in ascending order, and within one space intersection, inclusion
and overlap are those of the selected positions. The length of a bit-set plays no part in any of it.
-/

set_option autoImplicit false

namespace CpuPlacement.Mask

/-! ## The view -/

/-- Nothing beyond the width is selected. -/
theorem test_eq_false_of_width_le {m : Mask} {index : Nat} (h : m.width ≤ index) :
    m.test index = false := by
  cases m with
  | bitset length bits => exact BitVec.getLsbD_of_ge bits index h
  | group id bits => exact BitVec.getLsbD_of_ge bits index h

theorem lt_width_of_test {m : Mask} {index : Nat} (h : m.test index = true) : index < m.width := by
  apply Nat.lt_of_not_le
  intro beyond
  simp [test_eq_false_of_width_le beyond] at h

/-- The positions are tested one by one. -/
theorem indices_eq (m : Mask) : m.indices = (List.range m.width).filter m.test :=
  onesBelow_eq fun _ => lt_width_of_test

/-- The listed positions are the selected ones. -/
theorem mem_indices {m : Mask} {index : Nat} : index ∈ m.indices ↔ m.test index = true := by
  simp only [indices_eq, List.mem_filter, List.mem_range, and_iff_right_iff_imp]
  exact lt_width_of_test

theorem pairwise_indices (m : Mask) : m.indices.Pairwise (· < ·) := by
  rw [indices_eq]
  exact List.pairwise_lt_range.filter _

/-- The positions are counted as they are listed. -/
theorem length_indices (m : Mask) : m.indices.length = m.cardinality :=
  length_onesFrom 0 _ m.number

theorem lowest?_eq_some_iff {m : Mask} {index : Nat} :
    m.lowest? = some index ↔ m.test index = true ∧ ∀ other < index, m.test other = false :=
  lowestOne?_eq_some_iff

/-- A mask is empty when it selects nothing. -/
theorem isEmpty_iff {m : Mask} : m.isEmpty = true ↔ ∀ index, m.test index = false := by
  simp only [isEmpty, beq_iff_eq, test]
  constructor
  · intro none index
    simp [none]
  · intro none
    exact Nat.eq_of_testBit_eq fun index => by simp [none]

/-! ## Building masks -/

theorem test_empty (length index : Nat) : (empty length).test index = false := by
  simp [empty, test, number]

theorem test_full (length index : Nat) :
    (full length).test index = decide (index < length) := by
  simp [full, test, number]

theorem isGroup_insert (m : Mask) (index : Nat) : (m.insert index).isGroup = m.isGroup := by
  cases m <;> rfl

/-- A bit-set takes any position. -/
theorem test_insert_bitset {length : Nat} (bits : BitVec length) (index other : Nat) :
    ((bitset length bits).insert index).test other =
      ((bitset length bits).test other || decide (index = other)) := by
  have fits : bits.toNat % 2 ^ max length (index + 1) = bits.toNat :=
    Nat.mod_eq_of_lt (Nat.lt_of_lt_of_le bits.isLt (Nat.pow_le_pow_right (by decide) (by omega)))
  have one : 2 ^ index % 2 ^ max length (index + 1) = 2 ^ index :=
    Nat.mod_eq_of_lt (Nat.pow_lt_pow_right (by decide) (by omega))
  simp only [insert, test, number, BitVec.toNat_or, BitVec.toNat_setWidth, BitVec.toNat_twoPow,
    fits, one, Nat.testBit_or, Nat.testBit_two_pow]

/-- A group mask takes the positions that it has. -/
theorem test_insert_group {id index other : Nat} (bits : BitVec 64) (h : index < 64) :
    ((group id bits).insert index).test other =
      ((group id bits).test other || decide (index = other)) := by
  have one : 2 ^ index % 2 ^ 64 = 2 ^ index :=
    Nat.mod_eq_of_lt (Nat.pow_lt_pow_right (by decide) h)
  simp only [insert, test, number, BitVec.toNat_or, BitVec.toNat_twoPow, one, Nat.testBit_or,
    Nat.testBit_two_pow]

/-- A bit-set takes any position and a group mask those that it has. -/
theorem test_insert {m : Mask} {index : Nat} (hroom : m.isGroup = true → index < 64) (other : Nat) :
    (m.insert index).test other = (m.test other || decide (index = other)) := by
  cases m with
  | bitset length bits => exact test_insert_bitset bits index other
  | group id bits => exact test_insert_group bits (hroom rfl)

/-- The bit-set of a list selects what is listed, in whatever order. -/
theorem test_ofIndices (length : Nat) (cpus : List Nat) (cpu : Nat) :
    (ofIndices length cpus).test cpu = cpus.contains cpu := by
  suffices grown : ∀ m : Mask, m.isGroup = false →
      (cpus.foldl insert m).test cpu = (m.test cpu || cpus.contains cpu) by
    simpa [ofIndices, empty, test, number] using grown (empty length) rfl
  induction cpus with
  | nil => simp
  | cons first rest ih =>
    intro m family
    cases m with
    | group => cases family
    | bitset length bits =>
      rw [List.foldl_cons, ih _ (by simp [isGroup_insert, family]), test_insert_bitset]
      simp [Bool.or_assoc, eq_comm]

theorem test_single (length cpu other : Nat) :
    (single length cpu).test other = decide (other = cpu) := by
  simp [single, test_ofIndices]

/-- A position of a group is the only one that its mask selects. -/
theorem test_groupSingle {id bit : Nat} (h : bit < 64) (other : Nat) :
    (groupSingle id bit).test other = decide (bit = other) := by
  have one : 2 ^ bit % 2 ^ 64 = 2 ^ bit :=
    Nat.mod_eq_of_lt (Nat.pow_lt_pow_right (by decide) h)
  simp only [groupSingle, test, number, BitVec.toNat_twoPow, one, Nat.testBit_two_pow]

/-- What is made of a list is a bit-set. -/
theorem isGroup_ofIndices (length : Nat) (cpus : List Nat) :
    (ofIndices length cpus).isGroup = false := by
  suffices kept : ∀ m : Mask, (cpus.foldl insert m).isGroup = m.isGroup from kept _
  induction cpus with
  | nil => exact fun m => rfl
  | cons first rest ih =>
    intro m
    rw [List.foldl_cons, ih, isGroup_insert]

theorem groupId?_ofIndices (length : Nat) (cpus : List Nat) :
    (ofIndices length cpus).groupId? = none := by
  have hbitset := isGroup_ofIndices length cpus
  cases hmask : ofIndices length cpus with
  | bitset => rfl
  | group => simp only [hmask, isGroup, Bool.true_eq_false] at hbitset

theorem isGroup_single (length cpu : Nat) : (single length cpu).isGroup = false :=
  isGroup_ofIndices length [cpu]

/-- A bit-set grows only as far as the new position needs. -/
theorem width_insert_bitset {m : Mask} (hbitset : m.isGroup = false) (cpu : Nat) :
    (m.insert cpu).width = max m.width (cpu + 1) := by
  cases m with
  | bitset => rfl
  | group => cases hbitset

/-- CPUs that the length has room for do not make the bit-set longer. -/
theorem width_ofIndices {length : Nat} {cpus : List Nat} (hcpus : ∀ cpu ∈ cpus, cpu < length) :
    (ofIndices length cpus).width = length := by
  suffices kept : ∀ m : Mask, m.isGroup = false → m.width = length →
      (cpus.foldl insert m).width = length from kept (empty length) rfl rfl
  induction cpus with
  | nil => exact fun m _ hwidth => hwidth
  | cons first rest ih =>
    intro m hbitset hwidth
    obtain ⟨hfirst, hrest⟩ := List.forall_mem_cons.mp hcpus
    refine ih hrest _ (by rw [isGroup_insert, hbitset]) ?_
    rw [width_insert_bitset hbitset, hwidth]
    exact Nat.max_eq_left hfirst

/-! ## Equality -/

/-- A mask is its group, its width and its positions. -/
theorem eq_of_test {a b : Mask} (hgroup : a.groupId? = b.groupId?) (hwidth : a.width = b.width)
    (htest : ∀ cpu, a.test cpu = true ↔ b.test cpu = true) : a = b := by
  have hnumber : a.number = b.number :=
    Nat.eq_of_testBit_eq fun cpu => Bool.eq_iff_iff.mpr (htest cpu)
  cases a with
  | bitset length bits =>
    cases b with
    | bitset length' bits' =>
      obtain rfl : length = length' := hwidth
      rw [BitVec.eq_of_toNat_eq hnumber]
    | group => cases hgroup
  | group id bits =>
    cases b with
    | bitset => cases hgroup
    | group id' bits' =>
      obtain rfl : id = id' := Option.some.inj hgroup
      rw [BitVec.eq_of_toNat_eq hnumber]

/-! ## Sets of CPUs -/

/-- Cutting a number down to a width loses no digit that a word of that width has. -/
theorem getLsbD_and_ofNat {width : Nat} (bits : BitVec width) (n i : Nat) :
    (bits &&& BitVec.ofNat width n).getLsbD i = (bits.getLsbD i && n.testBit i) := by
  rw [BitVec.getLsbD_and, BitVec.getLsbD_ofNat]
  by_cases below : i < width
  · simp [below]
  · simp [BitVec.getLsbD_of_ge bits i (by omega)]

/-- An intersection selects what both masks select, and nothing where they index different CPUs. -/
theorem test_inter (a b : Mask) (cpu : Nat) :
    (a.inter b).test cpu = (a.sameSpace b && (a.test cpu && b.test cpu)) := by
  by_cases space : a.sameSpace b = true
  · cases a with
    | bitset length bits =>
      simp only [inter, space, if_true, Bool.true_and]
      exact getLsbD_and_ofNat bits b.number cpu
    | group id bits =>
      simp only [inter, space, if_true, Bool.true_and]
      exact getLsbD_and_ofNat bits b.number cpu
  · cases a <;> simp [inter, space, test, number]

/-- A word whose complement fills up another one to a full word has no bit of its own. -/
theorem or_not_eq_allOnes_iff {width : Nat} {x y : BitVec width} :
    y ||| ~~~x = BitVec.allOnes width ↔ x.toNat &&& y.toNat = x.toNat := by
  rw [← BitVec.toNat_and, ← BitVec.toNat_eq, BitVec.eq_of_getLsbD_eq_iff,
    BitVec.eq_of_getLsbD_eq_iff]
  refine forall_congr' fun i => forall_congr' fun hi => ?_
  rw [BitVec.getLsbD_or, BitVec.getLsbD_not, BitVec.getLsbD_and, BitVec.getLsbD_allOnes]
  cases x.getLsbD i <;> cases y.getLsbD i <;> simp [hi]

/-- Either family says the same of the numbers of its masks. -/
theorem subset_eq (a b : Mask) :
    a.subset b = (a.sameSpace b && a.number &&& b.number == a.number) := by
  cases a with
  | bitset length x =>
    cases b with
    | bitset length' y => rw [subset, sameSpace, Bool.true_and, number, number]
    | group h y => rfl
  | group g x =>
    cases b with
    | bitset length y => rfl
    | group h y =>
      rw [subset, sameSpace, number, number, Bool.beq_eq_decide_eq (y ||| _),
        Bool.beq_eq_decide_eq (x.toNat &&& y.toNat)]
      simp only [or_not_eq_allOnes_iff]

/-- Within one space inclusion is that of the selected positions. -/
theorem subset_iff {a b : Mask} (space : a.sameSpace b = true) :
    a.subset b = true ↔ ∀ cpu, a.test cpu = true → b.test cpu = true := by
  simp only [subset_eq, space, Bool.true_and, beq_iff_eq, test]
  constructor
  · intro same cpu selected
    rw [← same, Nat.testBit_and, Bool.and_eq_true] at selected
    exact selected.2
  · intro within
    apply Nat.eq_of_testBit_eq
    intro cpu
    have := within cpu
    rw [Nat.testBit_and]
    cases selected : a.number.testBit cpu <;> simp_all

/-- Within one space masks overlap where they select a position in common. -/
theorem overlaps_iff {a b : Mask} (space : a.sameSpace b = true) :
    a.overlaps b = true ↔ ∃ cpu, a.test cpu = true ∧ b.test cpu = true := by
  simp only [overlaps, space, Bool.true_and, bne_iff_ne, ne_eq, test]
  constructor
  · intro some
    obtain ⟨cpu, shared⟩ := Nat.exists_testBit_of_ne_zero some
    exact ⟨cpu, by simpa [Nat.testBit_and] using shared⟩
  · rintro ⟨cpu, inA, inB⟩ none
    have := congrArg (·.testBit cpu) none
    simp [Nat.testBit_and, inA, inB] at this

end CpuPlacement.Mask
