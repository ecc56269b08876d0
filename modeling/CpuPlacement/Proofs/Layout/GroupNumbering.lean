import CpuPlacement.Proofs.Layout.Recorded

/-!
# Groups one behind the other

The CPUs of a group are numbered from the base of the group on, a CPU at each selected position.
Bases are sums of cardinalities (`CpuNumbering.consecutive_ofGroups`), which leaves a gap wherever a
group skips a position. Where every CPU up to the total is in some group there are no gaps: a group
selects its first positions and no others (`CpuNumbering.filled_of_reached`). The first group must
hold the CPUs that come before the second base, because nobody else can; so it has no position to
spare, and the argument goes on from the second group.
-/

set_option autoImplicit false

namespace CpuPlacement

/-- A mask that selects as many first positions as it selects at all selects no others. -/
theorem Mask.test_iff_lt_cardinality {m : Mask} (h : ∀ bit < m.cardinality, m.test bit = true)
    (bit : Nat) : m.test bit = true ↔ bit < m.cardinality := by
  have hsub : List.range m.cardinality ⊆ m.indices :=
    fun other hother => Mask.mem_indices.mpr (h other (List.mem_range.mp hother))
  have hlength : m.indices.length ≤ (List.range m.cardinality).length := by
    rw [List.length_range, Mask.length_indices]
  have hperm := (List.subperm_of_subset List.nodup_range hsub).perm_of_length_le hlength
  rw [← Mask.mem_indices, ← hperm.mem_iff, List.mem_range]

namespace CpuNumbering

variable {n : CpuNumbering}

/-- The number of the CPU at position 0 of the group of a mask. -/
def baseOf? (n : CpuNumbering) (mask : Mask) : Option Nat :=
  mask.groupId?.bind fun id => n.bases.lookup id

/-- The CPUs that a layout reads from a group mask are its positions, counted from the base. -/
theorem mem_cpusOf_iff_baseOf? {l : Layout} (hbases : l.groupBases = n.bases) {mask : Mask}
    (hgroup : mask.isGroup = true) {cpu : Nat} :
    cpu ∈ l.cpusOf mask ↔
      ∃ base bit, n.baseOf? mask = some base ∧ mask.test bit = true ∧ base + bit = cpu := by
  cases mask with
  | bitset => cases hgroup
  | group id bits =>
    rw [Layout.cpusOf, Layout.groupBase?, hbases, baseOf?, Mask.groupId?, Option.bind_some]
    cases n.bases.lookup id with
    | none => simp
    | some base => simp [Mask.mem_indices]

/-- No group is named twice. -/
theorem pairwise_of_repeatedGroup? {masks : List Mask} (hgroups : ∀ m ∈ masks, m.isGroup = true)
    (h : repeatedGroup? masks = none) : masks.Pairwise fun a b => a.groupId? ≠ b.groupId? := by
  induction masks with
  | nil => exact List.Pairwise.nil
  | cons first rest ih =>
    obtain ⟨hagain, hrest⟩ := Option.or_eq_none_iff.mp h
    refine List.pairwise_cons.mpr
      ⟨fun other hother hsame => ?_, ih (fun m hm => hgroups m (List.mem_cons_of_mem _ hm)) hrest⟩
    cases first with
    | bitset => cases hgroups _ List.mem_cons_self
    | group id bits =>
      refine Option.filter_eq_none_iff.mp hagain id rfl (List.any_eq_true.mpr ⟨other, hother, ?_⟩)
      exact beq_iff_eq.mpr hsame.symm

/-! ## Bases -/

theorem baseOf?_ofGroups_self (next id : Nat) (bits : BitVec 64) (rest : List Mask) :
    (ofGroups next (.group id bits :: rest)).baseOf? (.group id bits) = some next := by
  simp [baseOf?, ofGroups, Mask.groupId?]

/-- The other groups have the bases that they get when placed behind the first. -/
theorem baseOf?_ofGroups_other {next id : Nat} {bits : BitVec 64} {rest : List Mask} {mask : Mask}
    (hother : (Mask.group id bits).groupId? ≠ mask.groupId?) :
    (ofGroups next (.group id bits :: rest)).baseOf? mask =
      (ofGroups (next + (Mask.group id bits).cardinality) rest).baseOf? mask := by
  cases mask with
  | bitset => rfl
  | group other others =>
    have hne : (other == id) = false :=
      beq_eq_false_iff_ne.mpr fun hsame => hother (congrArg some hsame.symm)
    simp [baseOf?, ofGroups, Mask.groupId?, List.lookup_cons, hne]

/-- The numbering never goes back. -/
theorem le_total_ofGroups (next : Nat) (masks : List Mask) :
    next ≤ (ofGroups next masks).total := by
  induction masks generalizing next with
  | nil => exact Nat.le_refl next
  | cons first rest ih =>
    have hrest := ih (next + first.cardinality)
    cases first <;> exact Nat.le_trans (Nat.le_add_right _ _) hrest

/-- The masks have bases within the machine, and each ends before the next ones begin. -/
structure Consecutive (n : CpuNumbering) (first : Nat) (masks : List Mask) : Prop where
  placed : ∀ mask ∈ masks, ∃ base, n.baseOf? mask = some base ∧ first ≤ base ∧
    base + mask.cardinality ≤ n.total
  ordered : masks.Pairwise fun a b => ∀ x y, n.baseOf? a = some x → n.baseOf? b = some y →
    x + a.cardinality ≤ y

/-- Each group is numbered right after the one before it. -/
theorem consecutive_ofGroups (next : Nat) {masks : List Mask}
    (hgroups : ∀ m ∈ masks, m.isGroup = true)
    (hdistinct : masks.Pairwise fun a b => a.groupId? ≠ b.groupId?) :
    (ofGroups next masks).Consecutive next masks := by
  induction masks generalizing next with
  | nil => exact ⟨nofun, List.Pairwise.nil⟩
  | cons first rest ih =>
    cases first with
    | bitset => cases hgroups _ List.mem_cons_self
    | group id bits =>
      obtain ⟨hfirst, hrest⟩ := List.pairwise_cons.mp hdistinct
      -- the first group gets the base, and no other group is looked up there
      have hself := baseOf?_ofGroups_self next id bits rest
      have hother : ∀ mask ∈ rest, (ofGroups next (.group id bits :: rest)).baseOf? mask =
          (ofGroups (next + (Mask.group id bits).cardinality) rest).baseOf? mask :=
        fun mask hmask => baseOf?_ofGroups_other (hfirst mask hmask)
      obtain ⟨hplaced, hordered⟩ := ih (next + (Mask.group id bits).cardinality)
        (fun m hm => hgroups m (List.mem_cons_of_mem _ hm)) hrest
      refine ⟨fun mask hmask => ?_, List.pairwise_cons.mpr ⟨fun b hb x y hx hy => ?_, ?_⟩⟩
      · rcases List.mem_cons.mp hmask with rfl | hmask
        · exact ⟨next, hself, Nat.le_refl next, le_total_ofGroups _ rest⟩
        · obtain ⟨base, hbase, hfrom, hto⟩ := hplaced mask hmask
          exact ⟨base, (hother mask hmask).trans hbase,
            Nat.le_trans (Nat.le_add_right _ _) hfrom, hto⟩
      · obtain ⟨base, hbase, hfrom, -⟩ := hplaced b hb
        cases Option.some.inj (hself.symm.trans hx)
        cases Option.some.inj (((hother b hb).trans hbase).symm.trans hy)
        exact hfrom
      · refine hordered.imp_of_mem fun {a b} ha hb hab x y hx hy => ?_
        exact hab x y ((hother a ha).symm.trans hx) ((hother b hb).symm.trans hy)

/-! ## No gaps -/

/-- A position of one of the masks stands for the CPU. -/
def Reaches (n : CpuNumbering) (masks : List Mask) (cpu : Nat) : Prop :=
  ∃ mask ∈ masks, ∃ base bit, n.baseOf? mask = some base ∧ mask.test bit = true ∧ base + bit = cpu

/-- Groups that leave no CPU out select their first positions and no others. -/
theorem filled_of_reached (next : Nat) {masks : List Mask}
    (hgroups : ∀ m ∈ masks, m.isGroup = true)
    (hdistinct : masks.Pairwise fun a b => a.groupId? ≠ b.groupId?)
    (hreached : ∀ cpu, next ≤ cpu → cpu < (ofGroups next masks).total →
      (ofGroups next masks).Reaches masks cpu) :
    ∀ mask ∈ masks, ∀ bit, mask.test bit = true ↔ bit < mask.cardinality := by
  induction masks generalizing next with
  | nil => exact nofun
  | cons first rest ih =>
    cases first with
    | bitset => cases hgroups _ List.mem_cons_self
    | group id bits =>
      obtain ⟨hfirst, hrest⟩ := List.pairwise_cons.mp hdistinct
      have hgroupsRest : ∀ m ∈ rest, m.isGroup = true :=
        fun m hm => hgroups m (List.mem_cons_of_mem _ hm)
      let behind := next + (Mask.group id bits).cardinality
      have hself := baseOf?_ofGroups_self next id bits rest
      have hother : ∀ mask ∈ rest, (ofGroups next (.group id bits :: rest)).baseOf? mask =
          (ofGroups behind rest).baseOf? mask :=
        fun mask hmask => baseOf?_ofGroups_other (hfirst mask hmask)
      -- CPUs in front of the other groups are reached by the first one
      have hfilled : ∀ bit, (Mask.group id bits).test bit = true ↔
          bit < (Mask.group id bits).cardinality := by
        refine Mask.test_iff_lt_cardinality fun bit hbit => ?_
        have hbelow : next + bit < (ofGroups next (.group id bits :: rest)).total :=
          Nat.lt_of_lt_of_le (Nat.add_lt_add_left hbit next) (le_total_ofGroups behind rest)
        obtain ⟨mask, hmask, base, other, hbase, htest, hsum⟩ :=
          hreached (next + bit) (Nat.le_add_right _ _) hbelow
        rcases List.mem_cons.mp hmask with rfl | hmask
        · cases Option.some.inj (hself.symm.trans hbase)
          exact Nat.add_left_cancel hsum ▸ htest
        · obtain ⟨from', hfrom, hle, -⟩ :=
            (consecutive_ofGroups behind hgroupsRest hrest).placed mask hmask
          cases Option.some.inj (((hother mask hmask).trans hfrom).symm.trans hbase)
          exact absurd hsum (by simp only [behind] at hle; omega)
      intro mask hmask
      rcases List.mem_cons.mp hmask with rfl | hmask
      · exact hfilled
      · refine ih behind hgroupsRest hrest (fun cpu hfrom hto => ?_) mask hmask
        obtain ⟨mask, hmask, base, bit, hbase, htest, hsum⟩ :=
          hreached cpu (Nat.le_trans (Nat.le_add_right _ _) hfrom) hto
        rcases List.mem_cons.mp hmask with rfl | hmask
        · cases Option.some.inj (hself.symm.trans hbase)
          have hbit := (hfilled bit).mp htest
          exact absurd hsum (by simp only [behind] at hfrom; omega)
        · exact ⟨mask, hmask, base, bit, (hother mask hmask).symm.trans hbase, htest, hsum⟩

end CpuNumbering

namespace Record

/-! ## Spans -/

/-- Adds what a record reports to the spans of the groups. -/
def addRecord (spans : List (Nat × BitVec 64)) (r : Record) : List (Nat × BitVec 64) :=
  match r.mask with
  | .group id bits => addSpan id bits spans
  | .bitset _ _ => spans

theorem groupSpans_eq (records : List Record) :
    groupSpans records = (records.foldl addRecord []).map fun (id, bits) => .group id bits := rfl

/-- The span of a group takes in what is added to it. -/
theorem exists_mem_addSpan (id : Nat) (bits : BitVec 64) (spans : List (Nat × BitVec 64)) :
    ∃ span, (id, span) ∈ addSpan id bits spans ∧
      (Mask.group id bits).subset (.group id span) = true := by
  induction spans with
  | nil => exact ⟨bits, List.mem_singleton_self _, Mask.subset_refl _⟩
  | cons first rest ih =>
    obtain ⟨other, span⟩ := first
    rw [addSpan]
    split
    · exact ⟨bits, List.mem_cons_self, Mask.subset_refl _⟩
    · split
      · next hsame =>
        exact ⟨span ||| bits, hsame ▸ List.mem_cons_self, Mask.subset_group_or_right id span bits⟩
      · obtain ⟨span, hspan, hsub⟩ := ih
        exact ⟨span, List.mem_cons_of_mem _ hspan, hsub⟩

/-- Adding to one span makes no span smaller. -/
theorem exists_mem_addSpan_of_mem (id : Nat) (bits : BitVec 64) {other : Nat} {span : BitVec 64}
    {spans : List (Nat × BitVec 64)} (hspan : (other, span) ∈ spans) :
    ∃ grown, (other, grown) ∈ addSpan id bits spans ∧
      (Mask.group other span).subset (.group other grown) = true := by
  induction spans with
  | nil => cases hspan
  | cons first rest ih =>
    rw [addSpan]
    split
    · exact ⟨span, List.mem_cons_of_mem _ hspan, Mask.subset_refl _⟩
    · split
      · rcases List.mem_cons.mp hspan with rfl | hspan
        · exact ⟨span ||| bits, List.mem_cons_self, Mask.subset_group_or_left other span bits⟩
        · exact ⟨span, List.mem_cons_of_mem _ hspan, Mask.subset_refl _⟩
      · rcases List.mem_cons.mp hspan with rfl | hspan
        · exact ⟨span, List.mem_cons_self, Mask.subset_refl _⟩
        · obtain ⟨grown, hgrown, hsub⟩ := ih hspan
          exact ⟨grown, List.mem_cons_of_mem _ hgrown, hsub⟩

/-- Spans to which something is added have positions if they had any before. -/
theorem nonempty_addSpan {id : Nat} {bits : BitVec 64} {spans : List (Nat × BitVec 64)}
    (hbits : (Mask.group id bits).isEmpty = false)
    (hspans : ∀ span ∈ spans, (Mask.group span.1 span.2).isEmpty = false) :
    ∀ span ∈ addSpan id bits spans, (Mask.group span.1 span.2).isEmpty = false := by
  induction spans with
  | nil =>
    intro span hspan
    cases List.mem_singleton.mp hspan
    exact hbits
  | cons first rest ih =>
    obtain ⟨hfirst, hrest⟩ := List.forall_mem_cons.mp hspans
    rw [addSpan]
    split
    · exact List.forall_mem_cons.mpr ⟨hbits, hspans⟩
    · split
      · refine List.forall_mem_cons.mpr ⟨?_, hrest⟩
        exact Mask.nonempty_of_subset (Mask.subset_group_or_left _ _ bits) hfirst
      · exact List.forall_mem_cons.mpr ⟨hfirst, ih hrest⟩

/-- Records with CPUs in them make spans with CPUs in them. -/
theorem nonempty_groupSpans {records : List Record}
    (h : ∀ r ∈ records, r.mask.isEmpty = false) :
    ∀ mask ∈ groupSpans records, mask.isEmpty = false := by
  intro mask hmask
  obtain ⟨⟨id, bits⟩, hspan, rfl⟩ := List.mem_map.mp (groupSpans_eq records ▸ hmask)
  refine List.foldlRecOn records addRecord
    (motive := fun spans => ∀ span ∈ spans, (Mask.group span.1 span.2).isEmpty = false)
    nofun (fun spans hspans r hr => ?_) (id, bits) hspan
  have hr := h r hr
  rw [addRecord]
  cases hmask : r.mask with
  | bitset => exact hspans
  | group id bits => exact nonempty_addSpan (hmask ▸ hr) hspans

/-- What a record reports in a group lies within the span of the group. -/
theorem exists_span {records : List Record} {r : Record} (hr : r ∈ records)
    (hgroup : r.mask.isGroup = true) :
    ∃ span ∈ groupSpans records, r.mask.subset span = true := by
  -- the records that come later make no span smaller
  have kept : ∀ (later : List Record) (spans : List (Nat × BitVec 64)) (id : Nat)
      (bits span : BitVec 64), (id, span) ∈ spans →
      (Mask.group id bits).subset (.group id span) = true →
      ∃ grown, (id, grown) ∈ later.foldl addRecord spans ∧
        (Mask.group id bits).subset (.group id grown) = true := by
    intro later
    induction later with
    | nil => exact fun spans id bits span hspan hsub => ⟨span, hspan, hsub⟩
    | cons next later ih =>
      intro spans id bits span hspan hsub
      rw [List.foldl_cons, addRecord]
      cases next.mask with
      | bitset => exact ih _ id bits span hspan hsub
      | group added reported =>
        obtain ⟨grown, hgrown, hle⟩ := exists_mem_addSpan_of_mem added reported hspan
        exact ih _ id bits grown hgrown (Mask.subset_trans hsub hle)
  obtain ⟨before, after, rfl⟩ := List.append_of_mem hr
  cases hmask : r.mask with
  | bitset length bits => rw [hmask] at hgroup; cases hgroup
  | group id bits =>
    obtain ⟨span, hspan, hsub⟩ := exists_mem_addSpan id bits (before.foldl addRecord [])
    obtain ⟨grown, hgrown, hle⟩ := kept after _ id bits span hspan hsub
    refine ⟨.group id grown, ?_, hle⟩
    rw [groupSpans_eq, List.foldl_append, List.foldl_cons, addRecord, hmask]
    exact List.mem_map.mpr ⟨(id, grown), hgrown, rfl⟩

/-! ## The groups of accepted records -/

theorem numbering_grouped (records : List Record) :
    numbering true records = CpuNumbering.ofGroups 0 (groupMasks true records) := rfl

namespace Accepted

open CpuNumbering (ownerAt)

variable {records : List Record} {grouped : Bool} {coverage : Coverage}

/-- The masks of groups are group masks. -/
theorem isGroup_groupMasks (h : Accepted records true coverage) {mask : Mask}
    (hmask : mask ∈ groupMasks true records) : mask.isGroup = true := by
  rw [groupMasks] at hmask
  split at hmask
  · obtain ⟨span, -, rfl⟩ := List.mem_map.mp (groupSpans_eq records ▸ hmask)
    rfl
  · exact h.isGroup_masksOf hmask

/-- No group is without CPUs. -/
theorem nonempty_groupMasks (h : Accepted records grouped coverage) {mask : Mask}
    (hmask : mask ∈ groupMasks grouped records) : mask.isEmpty = false := by
  rw [groupMasks] at hmask
  split at hmask
  · exact nonempty_groupSpans h.nonempty mask hmask
  · exact h.nonempty_masksOf hmask

/-- The CPUs are divided among the groups. -/
theorem divides_groups (h : Accepted records grouped coverage)
    (hgroups : groupMasks grouped records ≠ []) :
    (parts grouped records coverage).Divides (·.group) (groupMasks grouped records) :=
  divides_of_settles (CpuNumbering.assign_settles h.groups) (ascends_groupMasks grouped records)
    (fun _ hmask => h.nonempty_groupMasks hmask)
    (fun _ hcpu => (Coverage.covered_of_gap? h.covered hcpu).2.2.2 (by simpa using hgroups))
    (fun _ _ hid => hid)

/-- No two masks are of the same group. -/
theorem distinct_groupMasks (h : Accepted records true coverage) :
    (groupMasks true records).Pairwise fun a b => a.groupId? ≠ b.groupId? :=
  CpuNumbering.pairwise_of_repeatedGroup? (fun _ hmask => h.isGroup_groupMasks hmask)
    (h.distinct rfl)

/-- The groups of accepted records are numbered from 0, one right after the other. -/
theorem consecutive (h : Accepted records true coverage) :
    (numbering true records).Consecutive 0 (groupMasks true records) :=
  CpuNumbering.consecutive_ofGroups 0 (fun _ hmask => h.isGroup_groupMasks hmask)
    h.distinct_groupMasks

/-- A machine with a CPU has a group. -/
theorem groupMasks_ne_nil {cpu : Nat} (hcpu : cpu < (numbering true records).total) :
    groupMasks true records ≠ [] := by
  intro hnil
  rw [numbering_grouped, hnil] at hcpu
  exact Nat.not_lt_zero cpu hcpu

/-- Every group selects its first positions and no others. -/
theorem filled (h : Accepted records true coverage) :
    ∀ mask ∈ groupMasks true records, ∀ bit, mask.test bit = true ↔ bit < mask.cardinality := by
  refine CpuNumbering.filled_of_reached 0 (fun _ hmask => h.isGroup_groupMasks hmask)
    h.distinct_groupMasks fun cpu _ hcpu => ?_
  have hlt : cpu < (parts true records coverage).slots.length := by
    rw [length_slots_parts]
    exact hcpu
  obtain ⟨id, mask, -, hmask, hmem⟩ :=
    (h.divides_groups (groupMasks_ne_nil hcpu)).owner (List.getElem?_eq_getElem hlt)
  have hmask := List.mem_of_getElem? hmask
  have hbase := (CpuNumbering.mem_cpusOf_iff_baseOf? (n := numbering true records) rfl
    (h.isGroup_groupMasks hmask)).mp hmem
  exact ⟨mask, hmask, hbase⟩

/-- The mask of a record is among the masks of its relationship. -/
theorem mem_masksOf (h : Accepted records true coverage) {r : Record} (hr : r ∈ records) :
    r.mask ∈ masksOf records r.relationship := by
  have hlisted : r.mask ∈
      (records.filter (·.relationship = r.relationship)).map (·.mask) :=
    List.mem_map_of_mem (List.mem_filter.mpr ⟨hr, decide_eq_true rfl⟩)
  obtain ⟨mask, hmask, hsame⟩ := Mask.exists_same_orderedSet hlisted
  rwa [Mask.eq_of_same (h.family r hr) hsame]

end Accepted

end Record

end CpuPlacement
