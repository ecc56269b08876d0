import CpuPlacement.Proofs.Layout.GroupNumbering
import CpuPlacement.Proofs.Layout.Hierarchy
import Mathlib

/-!
# CPUs and the groups that they are numbered in

On a machine of groups a CPU number stands for one position of one group: the group whose base is
the last one at or below the number. The slot of the CPU names that group. The CPU's own mask is
made from the mask of its core, and nothing checks that a core keeps to the positions of the group
that it names: a core that goes on past the last one takes CPUs of the next group, and these CPUs
then have masks of a group that they are not in. The main statement says that numbers and masks
agree on the groups exactly when no core does that, and that then no package and no node does.
-/

set_option autoImplicit false

namespace CpuPlacement

namespace Layout

/-- The number of the CPU, counted from the base of the group, is a position of the group. -/
structure PlacedIn (l : Layout) (g : Entity) (id base cpu : Nat) : Prop where
  groupOf : l.groupOf? cpu = some g
  groupId : g.mask.groupId? = some id
  groupBase : l.groupBase? id = some base
  base_le : base ≤ cpu
  test : g.mask.test (cpu - base) = true

/-- The own mask of every CPU is the position of its group that its number stands for, and no other
group has the CPU. -/
def RespectsGroups (l : Layout) : Prop :=
  ∀ cpu < l.cpus, ∃ g id base, l.PlacedIn g id base cpu ∧
    l.cpuMask cpu = .ok (.groupSingle id (cpu - base)) ∧
    l.groups.filter (fun e => l.maskContains e.mask cpu) = [g]

/-- The mask lies inside the mask of a group, which then is the group that it names. -/
def HasGroupAround (l : Layout) (mask : Mask) : Prop :=
  ∃ g ∈ l.groups, mask.subset g.mask = true

theorem cpuMask_eq_ok_iff {l : Layout} {cpu : Nat} {mask : Mask} :
    l.cpuMask cpu = .ok mask ↔ l.cpuMasks[cpu]? = some mask := by
  rw [cpuMask, atCpu]
  cases l.cpuMasks[cpu]? <;> simp

end Layout

/-- A group is numbered like its mask. -/
theorem Parts.mem_groups {p : Parts} {e : Entity} :
    e ∈ p.layout.groups ↔ p.groupMasks[e.id]? = some e.mask ∧ e.role = .group := by
  have hgroups : p.layout.groups = number p.groupMasks fun _ => .group := rfl
  rw [hgroups, mem_number]

namespace Record.Accepted

variable {records : List Record} {coverage : Coverage}

/-- A CPU that is in a group in some way has that group in its slot, and is placed in it. -/
theorem placedIn_of_mem_cpusOf (h : Accepted records true coverage) {cpu index : Nat} {mask : Mask}
    (hmask : (groupMasks true records)[index]? = some mask)
    (hmem : cpu ∈ (parts true records coverage).layout.cpusOf mask) :
    ∃ id base, (parts true records coverage).layout.PlacedIn ⟨index, mask, .group⟩ id base cpu := by
  let p := parts true records coverage
  have hgroups : groupMasks true records ≠ [] := List.ne_nil_of_mem (List.mem_of_getElem? hmask)
  obtain ⟨slot, hslot, hindex⟩ := Parts.ownerOf?_eq_some_iff.mp
    (((h.divides_groups hgroups).mem_cpusOf_iff hmask cpu).mp hmem)
  have hgroup := h.isGroup_groupMasks (List.mem_of_getElem? hmask)
  obtain ⟨base, bit, hbase, htest, rfl⟩ :=
    (CpuNumbering.mem_cpusOf_iff_baseOf? (n := numbering true records) rfl hgroup).mp hmem
  obtain ⟨id, hid, hlookup⟩ := Option.bind_eq_some_iff.mp hbase
  refine ⟨id, base, ?_, hid, hlookup, Nat.le_add_right _ _, ?_⟩
  · exact Option.bind_eq_some_iff.mpr ⟨slot, hslot, Option.bind_eq_some_iff.mpr
      ⟨index, hindex, Parts.getElem?_number_of (fun _ => .group) hmask⟩⟩
  · rwa [Nat.add_sub_cancel_left]

/-- Every CPU is placed in a group. -/
theorem exists_placedIn (h : Accepted records true coverage) {cpu : Nat}
    (hcpu : cpu < (parts true records coverage).layout.cpus) :
    ∃ g id base, (parts true records coverage).layout.PlacedIn g id base cpu := by
  obtain ⟨slot, hslot⟩ := h.tiled.exists_slot hcpu
  have htotal : cpu < (numbering true records).total := by
    rw [← length_slots_parts true records coverage]
    exact (List.getElem?_eq_some_iff.mp hslot).1
  obtain ⟨index, mask, -, hmask, hmem⟩ :=
    (h.divides_groups (groupMasks_ne_nil htotal)).owner hslot
  exact ⟨_, h.placedIn_of_mem_cpusOf hmask hmem⟩

/-- Every position of a group is a CPU that is placed in it. -/
theorem exists_placedIn_of_test (h : Accepted records true coverage) {g : Entity}
    (hg : g ∈ (parts true records coverage).layout.groups) {bit : Nat}
    (hbit : g.mask.test bit = true) :
    ∃ id base, base + bit < (parts true records coverage).layout.cpus ∧
      (parts true records coverage).layout.PlacedIn g id base (base + bit) := by
  let p := parts true records coverage
  obtain ⟨hmask, hrole⟩ := Parts.mem_groups.mp hg
  have hmem := List.mem_of_getElem? hmask
  obtain ⟨base, hbase, -⟩ := h.consecutive.placed g.mask hmem
  have hcpu : base + bit ∈ p.layout.cpusOf g.mask :=
    (CpuNumbering.mem_cpusOf_iff_baseOf? (n := numbering true records) rfl
      (h.isGroup_groupMasks hmem)).mpr ⟨base, bit, hbase, hbit, rfl⟩
  obtain ⟨id, other, hplaced⟩ := h.placedIn_of_mem_cpusOf hmask hcpu
  obtain ⟨named, hnamed, hlookup⟩ := Option.bind_eq_some_iff.mp hbase
  cases Option.some.inj (hnamed.symm.trans hplaced.groupId)
  cases Option.some.inj (hlookup.symm.trans hplaced.groupBase)
  have hself : (⟨g.id, g.mask, .group⟩ : Entity) = g := by rw [← hrole]
  refine ⟨id, base, ?_, hself ▸ hplaced⟩
  obtain ⟨slot, hslot, -⟩ := Option.bind_eq_some_iff.mp hplaced.groupOf
  exact h.tiled.lt_cpus hslot

/-- No group but the one that a CPU is placed in contains the mask of the CPU. -/
theorem eq_of_maskContains (h : Accepted records true coverage) {g e : Entity} {id base cpu : Nat}
    (hplaced : (parts true records coverage).layout.PlacedIn g id base cpu)
    (he : e ∈ (parts true records coverage).layout.groups)
    (hcontains : (parts true records coverage).layout.maskContains e.mask cpu = true) : e = g := by
  obtain ⟨hmask, hrole⟩ := Parts.mem_groups.mp he
  obtain ⟨id, base, hother⟩ := h.placedIn_of_mem_cpusOf hmask (h.tiled.mem_cpusOf hcontains)
  have hsame := Option.some.inj (hother.groupOf.symm.trans hplaced.groupOf)
  rw [← hsame, ← hrole]

/-- Two groups with one number are the same. -/
theorem eq_of_groupId? (h : Accepted records true coverage) {a b : Entity}
    (ha : a ∈ (parts true records coverage).layout.groups)
    (hb : b ∈ (parts true records coverage).layout.groups)
    (hsame : a.mask.groupId? = b.mask.groupId?) : a = b := by
  obtain ⟨hamask, harole⟩ := Parts.mem_groups.mp ha
  obtain ⟨hbmask, hbrole⟩ := Parts.mem_groups.mp hb
  have hid : a.id = b.id := by
    obtain ⟨halt, ha⟩ := List.getElem?_eq_some_iff.mp hamask
    obtain ⟨hblt, hb⟩ := List.getElem?_eq_some_iff.mp hbmask
    have hdistinct : (parts true records coverage).groupMasks.Pairwise _ := h.distinct_groupMasks
    have hapart := List.pairwise_iff_getElem.mp hdistinct
    rcases Nat.lt_trichotomy a.id b.id with hlt | heq | hlt
    · exact absurd (by rw [ha, hb, hsame]) (hapart _ _ halt hblt hlt)
    · exact heq
    · exact absurd (by rw [ha, hb, hsame]) (hapart _ _ hblt halt hlt)
  have hmask : a.mask = b.mask := Option.some.inj (hamask.symm.trans (hid ▸ hbmask))
  cases a
  cases b
  simp_all

/-! ## CPUs whose mask lies in their group -/

/-- Masks respect the groups exactly when the mask of every CPU lies in the mask of the group that
its slot names. -/
theorem respectsGroups_iff_holds (h : Accepted records true coverage) :
    (parts true records coverage).layout.RespectsGroups ↔
      (parts true records coverage).Holds (·.group) (groupMasks true records) := by
  let p := parts true records coverage
  constructor
  · intro hrespects cpu index slot mask hslot hindex hmask
    obtain ⟨g, id, base, hplaced, -, honly⟩ := hrespects cpu (h.tiled.lt_cpus hslot)
    have hgroupOf : p.layout.groupOf? cpu = some ⟨index, mask, .group⟩ :=
      Option.bind_eq_some_iff.mpr ⟨slot, hslot, Option.bind_eq_some_iff.mpr
        ⟨index, hindex, Parts.getElem?_number_of (fun _ => .group) hmask⟩⟩
    cases Option.some.inj (hplaced.groupOf.symm.trans hgroupOf)
    have hmem : (⟨index, mask, .group⟩ : Entity) ∈
        p.layout.groups.filter fun e => p.layout.maskContains e.mask cpu := by
      rw [honly]
      exact List.mem_singleton_self _
    exact (List.mem_filter.mp hmem).2
  · intro hholds cpu hcpu
    obtain ⟨slot, hslot⟩ := h.tiled.exists_slot hcpu
    obtain ⟨g, id, base, hplaced⟩ := h.exists_placedIn hcpu
    obtain ⟨found, hfound, hgroup⟩ := Option.bind_eq_some_iff.mp hplaced.groupOf
    obtain ⟨index, hindex, hg⟩ := Option.bind_eq_some_iff.mp hgroup
    cases Option.some.inj (hslot.symm.trans hfound)
    have hget : (Parts.number (groupMasks true records) fun _ => .group)[index]? = some g := hg
    rw [Parts.getElem?_number] at hget
    obtain ⟨mask, hmask, rfl⟩ := Option.map_eq_some_iff.mp hget
    have hcontains : p.layout.maskContains mask cpu = true := hholds hslot hindex hmask
    refine ⟨_, id, base, hplaced, ?_, ?_⟩
    · -- The position of the core that the CPU's mask is made from is that of the group.
      obtain ⟨coreId, bits, coreBase, bit, -, hlookup, hsum, htest, hsingle⟩ := h.exists_bit hslot
      obtain ⟨hid, -⟩ :=
        (Layout.maskContains_group (Mask.lt_width_of_test htest) hsingle).mp hcontains
      cases Option.some.inj (hid.symm.trans hplaced.groupId)
      cases Option.some.inj (hlookup.symm.trans hplaced.groupBase)
      have hbit : cpu - base = bit := by omega
      rw [hbit]
      exact Layout.cpuMask_eq_ok_iff.mpr hsingle
    · have hgroups : groupMasks true records ≠ [] :=
        List.ne_nil_of_mem (List.mem_of_getElem? hmask)
      exact (h.divides_groups hgroups).filter_maskContains hholds h.tiled (fun _ => .group) hslot
        hindex hmask

/-! ## Masks that lie inside the group that they name -/

/-- Where the masks of a kind and of the groups contain their CPUs, each position of a mask of that
kind is a position of the group that the mask names. -/
theorem exists_group_of_test (h : Accepted records true coverage)
    (hholds : (parts true records coverage).Holds (·.group) (groupMasks true records))
    {owner? : Slot → Option Nat} {masks : List Mask}
    (hdivides : (parts true records coverage).Divides owner? masks)
    (hkind : (parts true records coverage).Holds owner? masks) {mask : Mask} (hmask : mask ∈ masks)
    (hfamily : mask.isGroup = true) {bit : Nat} (hbit : mask.test bit = true) :
    ∃ g ∈ (parts true records coverage).layout.groups,
      g.mask.groupId? = mask.groupId? ∧ g.mask.test bit = true := by
  let p := parts true records coverage
  obtain ⟨index, hindex⟩ := List.mem_iff_getElem?.mp hmask
  obtain ⟨_, hsome⟩ := List.exists_mem_of_ne_nil _ (hdivides.inhabited mask hmask)
  obtain ⟨base, _, hbase, -⟩ :=
    (CpuNumbering.mem_cpusOf_iff_baseOf? (n := numbering true records) rfl hfamily).mp hsome
  have hmem : base + bit ∈ p.layout.cpusOf mask :=
    (CpuNumbering.mem_cpusOf_iff_baseOf? (n := numbering true records) rfl hfamily).mpr
      ⟨base, bit, hbase, hbit, rfl⟩
  obtain ⟨slot, hslot, howner⟩ :=
    Parts.ownerOf?_eq_some_iff.mp ((hdivides.mem_cpusOf_iff hindex _).mp hmem)
  -- the mask of the CPU at that position lies both in the mask and in the group
  have hinMask := hkind hslot howner hindex
  obtain ⟨g, id, groupBase, hplaced, hcpuMask, honly⟩ :=
    h.respectsGroups_iff_holds.mpr hholds _ (h.tiled.lt_cpus hslot)
  have hinGroup :
      g ∈ p.layout.groups.filter fun e => p.layout.maskContains e.mask (base + bit) := by
    rw [honly]
    exact List.mem_singleton_self g
  have hsingle := Layout.cpuMask_eq_ok_iff.mp hcpuMask
  have hlt : base + bit - groupBase < 64 := by
    have hwidth := Mask.lt_width_of_test hplaced.test
    have hnamed := hplaced.groupId
    cases hg : g.mask with
    | bitset length bits => rw [hg] at hnamed; cases hnamed
    | group other bits => rwa [hg] at hwidth
  obtain ⟨hid, htest⟩ := (Layout.maskContains_group hlt hsingle).mp hinMask
  have hsame : groupBase = base := by
    obtain ⟨other, hother, hlookup⟩ := Option.bind_eq_some_iff.mp hbase
    cases Option.some.inj (hother.symm.trans hid)
    exact Option.some.inj (hplaced.groupBase.symm.trans hlookup)
  refine ⟨g, (List.mem_filter.mp hinGroup).1, hplaced.groupId.trans hid.symm, ?_⟩
  have htest := hplaced.test
  rwa [hsame, Nat.add_sub_cancel_left] at htest

/-- Where the masks of a kind and of the groups contain their CPUs, the masks of that kind lie
inside groups. -/
theorem hasGroupAround_of_holds (h : Accepted records true coverage)
    (hholds : (parts true records coverage).Holds (·.group) (groupMasks true records))
    {owner? : Slot → Option Nat} {masks : List Mask}
    (hdivides : (parts true records coverage).Divides owner? masks)
    (hkind : (parts true records coverage).Holds owner? masks) {mask : Mask} (hmask : mask ∈ masks)
    (hfamily : mask.isGroup = true) :
    (parts true records coverage).layout.HasGroupAround mask := by
  have hinside : ∀ bit, mask.test bit = true →
      ∃ g ∈ (parts true records coverage).layout.groups,
        g.mask.groupId? = mask.groupId? ∧ g.mask.test bit = true :=
    fun bit hbit => h.exists_group_of_test hholds hdivides hkind hmask hfamily hbit
  obtain ⟨cpu, hcpu⟩ := List.exists_mem_of_ne_nil _ (hdivides.inhabited mask hmask)
  obtain ⟨_, bit, -, hbit, -⟩ :=
    (CpuNumbering.mem_cpusOf_iff_baseOf? (n := numbering true records) rfl hfamily).mp hcpu
  obtain ⟨g, hg, hid, -⟩ := hinside bit hbit
  refine ⟨g, hg, (Mask.subset_iff ?_).mpr fun other hother => ?_⟩
  · cases mask with
    | bitset => cases hfamily
    | group named bits =>
      cases hmask : g.mask with
      | bitset => rw [hmask] at hid; cases hid
      | group id others =>
        rw [hmask] at hid
        exact beq_iff_eq.mpr (Option.some.inj hid).symm
  · obtain ⟨e, he, heid, htest⟩ := hinside other hother
    exact h.eq_of_groupId? he hg (heid.trans hid.symm) ▸ htest

/-- Where every core lies inside a group, the mask of every CPU lies in the group of its slot. -/
theorem holds_of_hasGroupAround (h : Accepted records true coverage)
    (hcores : ∀ core ∈ masksOf records .core,
      (parts true records coverage).layout.HasGroupAround core) :
    (parts true records coverage).Holds (·.group) (groupMasks true records) := by
  intro cpu index slot mask hslot hindex hmask
  obtain ⟨core, hcore⟩ := h.tiled.exists_core hslot
  obtain ⟨g, hg, hsub⟩ := hcores core (List.mem_of_getElem? hcore)
  have hcontains := Layout.maskContains_of_subset (h.tiled.cores_hold hslot rfl hcore) hsub
  have hgroups : groupMasks true records ≠ [] := List.ne_nil_of_mem (List.mem_of_getElem? hmask)
  have hgmask := (Parts.mem_groups.mp hg).1
  have howner := (h.divides_groups hgroups).owner_of_maskContains h.tiled hgmask hslot hcontains
  cases Option.some.inj (hindex.symm.trans howner)
  exact Option.some.inj (hgmask.symm.trans hmask) ▸ hcontains

/-- Where the masks of the groups contain their CPUs, the masks of all records but those of caches
and of groups lie inside groups. -/
theorem hasGroupAround_of_mem (h : Accepted records true coverage)
    (hfits : (parts true records coverage).layout.misplacement? = none)
    (hholds : (parts true records coverage).Holds (·.group) (groupMasks true records)) {r : Record}
    (hr : r ∈ records) (hrel : r.relationship ∈ [Relationship.core, .package, .node]) :
    (parts true records coverage).layout.HasGroupAround r.mask := by
  have tiled := h.tiled
  have hmask := h.mem_masksOf hr
  have hfamily := h.family r hr
  simp only [List.mem_cons, List.not_mem_nil, or_false] at hrel
  rcases hrel with hrel | hrel | hrel
  · rw [hrel] at hmask
    exact h.hasGroupAround_of_holds hholds tiled.cores tiled.cores_hold hmask hfamily
  · rw [hrel] at hmask
    exact h.hasGroupAround_of_holds hholds tiled.sockets (tiled.sockets_hold hfits) hmask hfamily
  · rw [hrel] at hmask
    have hnodes : masksOf records .node ≠ [] := List.ne_nil_of_mem hmask
    exact h.hasGroupAround_of_holds hholds (tiled.nodes hnodes) (tiled.nodes_hold hfits hnodes)
      hmask hfamily

/-- The CPUs lie in their groups exactly when the recorded cores do. -/
theorem holds_iff_cores_inside (h : Accepted records true coverage)
    (hfits : (parts true records coverage).layout.misplacement? = none) :
    (parts true records coverage).Holds (·.group) (groupMasks true records) ↔
      ∀ r ∈ records, r.relationship = .core →
        (parts true records coverage).layout.HasGroupAround r.mask := by
  constructor
  · exact fun hholds r hr hrel =>
      h.hasGroupAround_of_mem hfits hholds hr (hrel ▸ List.mem_cons_self)
  · intro hcores
    refine h.holds_of_hasGroupAround fun core hcore => ?_
    obtain ⟨r, hr, hrel, rfl⟩ := exists_record_of_mem_masksOf hcore
    exact hcores r hr hrel

end Record.Accepted

/-- On a machine of groups the CPUs are the positions of the groups, counted from the bases, and no
group contains the mask of a CPU that is not one of its own. Masks and numbers agree on the groups
exactly when every core lies inside the group that it names, and then every package and every node
does too. -/
theorem respectsGroups_iff_cores_inside {records : List Record} {l : Layout}
    (hgrouped : ∀ r ∈ records, r.mask.isGroup = true) (h : Layout.ofRecords records = .ok l) :
    (∀ cpu < l.cpus, ∃ g id base, l.PlacedIn g id base cpu ∧
      ∀ e ∈ l.groups, l.maskContains e.mask cpu = true → e = g) ∧
    (∀ g ∈ l.groups, ∀ bit, g.mask.test bit = true →
      ∃ id base, base + bit < l.cpus ∧ l.PlacedIn g id base (base + bit)) ∧
    (l.RespectsGroups ↔
      ∀ r ∈ records, r.relationship = .core → l.HasGroupAround r.mask) ∧
    (l.RespectsGroups ↔
      ∀ r ∈ records, r.relationship ∈ [.core, .package, .node] → l.HasGroupAround r.mask) := by
  obtain ⟨grouped, coverage, haccepted, hassemble⟩ := Record.exists_accepted_of_ofRecords h
  obtain ⟨-, hfits, rfl⟩ := Parts.assemble_eq_ok_iff.mp hassemble
  obtain rfl : grouped = true := by
    cases records with
    | nil => cases h
    | cons first rest =>
      exact (haccepted.family first List.mem_cons_self).symm.trans
        (hgrouped first List.mem_cons_self)
  have hcores := haccepted.holds_iff_cores_inside hfits
  refine ⟨fun cpu hcpu => ?_, fun g hg bit hbit => haccepted.exists_placedIn_of_test hg hbit,
    haccepted.respectsGroups_iff_holds.trans hcores, haccepted.respectsGroups_iff_holds.trans ?_⟩
  · obtain ⟨g, id, base, hplaced⟩ := haccepted.exists_placedIn hcpu
    exact ⟨g, id, base, hplaced, fun e he => haccepted.eq_of_maskContains hplaced he⟩
  · constructor
    · exact fun hholds r hr hrel => haccepted.hasGroupAround_of_mem hfits hholds hr hrel
    · exact fun hall => hcores.mpr fun r hr hrel => hall r hr (hrel ▸ List.mem_cons_self)

/-- Two groups of two CPUs each, with a core and a package for each group. -/
def Record.twoGroups : List Record :=
  [⟨.group, .group 0 3⟩, ⟨.group, .group 1 3⟩, ⟨.core, .group 0 3⟩, ⟨.core, .group 1 3⟩,
    ⟨.package, .group 0 3⟩, ⟨.package, .group 1 3⟩]

/-- Each of the two cores lies inside its group, and the CPUs are the positions of their groups. -/
theorem respectsGroups_two_groups : ∃ l, Layout.ofRecords Record.twoGroups = .ok l ∧
    (∀ r ∈ Record.twoGroups, r.relationship = .core → l.HasGroupAround r.mask) ∧
    l.RespectsGroups := by
  obtain ⟨l, hl, hinside⟩ : ∃ l, Layout.ofRecords Record.twoGroups = .ok l ∧
      Record.twoGroups.all (fun r => l.groups.any fun g => r.mask.subset g.mask) = true :=
    exists_ok_of_any (by cbv)
  have hcores : ∀ r ∈ Record.twoGroups, r.relationship = .core → l.HasGroupAround r.mask := by
    intro r hr _
    exact List.any_eq_true.mp (List.all_eq_true.mp hinside r hr)
  have hgrouped : ∀ r ∈ Record.twoGroups, r.mask.isGroup = true := by decide
  exact ⟨l, hl, hcores, (respectsGroups_iff_cores_inside hgrouped hl).2.2.1.mpr hcores⟩

/-! ## Nothing checks it -/

/-- Two groups of two CPUs each, and one core and package of group 0 with four positions. -/
def Record.pastGroup : List Record :=
  [⟨.group, .group 0 3⟩, ⟨.group, .group 1 3⟩, ⟨.core, .group 0 15⟩, ⟨.package, .group 0 15⟩]

/-- The core then takes the CPUs of group 1, and CPU 2 is in group 1 with the mask of a position
that group 0 does not have. -/
theorem not_respectsGroups_core_past_group :
    (∀ r ∈ Record.pastGroup, r.mask.isGroup = true) ∧
    ∃ l, Layout.ofRecords Record.pastGroup = .ok l ∧ ¬ l.RespectsGroups := by
  obtain ⟨l, hl, hcheck⟩ : ∃ l, Layout.ofRecords Record.pastGroup = .ok l ∧
      (decide (2 < l.cpus) && ((l.groupOf? 2).bind (·.mask.groupId?) == some 1) &&
        (l.cpuMask 2).toOption == some (.groupSingle 0 2)) = true :=
    exists_ok_of_any (by cbv)
  simp only [Bool.and_eq_true, decide_eq_true_eq, beq_iff_eq] at hcheck
  obtain ⟨⟨hcpu, hgroup⟩, hmask⟩ := hcheck
  refine ⟨by decide, l, hl, fun hrespects => ?_⟩
  obtain ⟨g, id, base, hplaced, hsingle, -⟩ := hrespects 2 hcpu
  rw [hplaced.groupOf, Option.bind_some, hplaced.groupId] at hgroup
  rw [hsingle] at hmask
  cases Option.some.inj hgroup
  cases Option.some.inj hmask

end CpuPlacement
