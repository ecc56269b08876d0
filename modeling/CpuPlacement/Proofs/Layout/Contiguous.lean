import CpuPlacement.Proofs.Layout.Rebuilt

/-!
# Groups without holes

The CPUs of a machine of groups are numbered through the groups, by ascending number, and a group
counts for as many CPUs as it has. No check looks for a position that a group leaves out, and none
is needed: a group that reached further than it counts would reach into the CPUs of the next one, or
past the last CPU of the machine (`Record.Accepted.filled`). What remains is that the group in each
place has its first positions, begins where the groups before it end, and has the CPUs from there
on. Records in which a group leaves a position out or is recorded with two masks are refused.
-/

set_option autoImplicit false

namespace CpuPlacement

/-- A group mask that has its first positions and no others. -/
theorem Mask.eq_group_of_filled {m : Mask} (hgroup : m.isGroup = true)
    (hfilled : ∀ bit, m.test bit = true ↔ bit < m.cardinality) :
    ∃ id, m = .group id (BitVec.ofNat 64 (2 ^ m.cardinality - 1)) := by
  cases m with
  | bitset => cases hgroup
  | group id bits =>
    refine ⟨id, congrArg (Mask.group id) (BitVec.eq_of_getLsbD_eq fun bit hbit => ?_)⟩
    rw [BitVec.getLsbD_ofNat, Nat.testBit_two_pow_sub_one, decide_eq_true hbit, Bool.true_and]
    exact Bool.eq_iff_iff.mpr ((hfilled bit).trans decide_eq_true_iff.symm)

namespace Layout

/-- The number of CPUs in the groups before a place. -/
def cpusBefore (l : Layout) (index : Nat) : Nat :=
  ((l.groups.take index).map (·.cardinality)).sum

/-- The groups are listed by ascending number, each has its first positions and no others, and the
CPUs are numbered through them without a gap. -/
structure Contiguous (l : Layout) : Prop where
  ascends : l.groups.Pairwise fun a b => ∃ id other,
    a.mask.groupId? = some id ∧ b.mask.groupId? = some other ∧ id < other
  mask_eq : ∀ g ∈ l.groups, ∃ id, g.mask = .group id (BitVec.ofNat 64 (2 ^ g.cardinality - 1))
  base : ∀ {index id : Nat} {g : Entity}, l.groups[index]? = some g → g.mask.groupId? = some id →
    l.groupBase? id = some (l.cpusBefore index)
  cpus : l.cpus = (l.groups.map (·.cardinality)).sum
  groupOf_iff : ∀ {index : Nat} {g : Entity}, l.groups[index]? = some g → ∀ cpu,
    l.groupOf? cpu = some g ↔
      l.cpusBefore index ≤ cpu ∧ cpu < l.cpusBefore index + g.cardinality

end Layout

/-! ## Where the groups begin -/

namespace CpuNumbering

/-- The machine has the CPUs of all groups. -/
theorem total_ofGroups (next : Nat) (masks : List Mask) :
    (ofGroups next masks).total = next + (masks.map (·.cardinality)).sum := by
  induction masks generalizing next with
  | nil => rfl
  | cons first rest ih =>
    have hrest := ih (next + first.cardinality)
    rw [List.map_cons, List.sum_cons, ← Nat.add_assoc, ← hrest]
    cases first <;> rfl

/-- A group begins where the groups before it end. -/
theorem baseOf?_ofGroups {masks : List Mask} (hgroups : ∀ m ∈ masks, m.isGroup = true)
    (hdistinct : masks.Pairwise fun a b => a.groupId? ≠ b.groupId?) {index : Nat} {mask : Mask}
    (hmask : masks[index]? = some mask) (next : Nat) :
    (ofGroups next masks).baseOf? mask =
      some (next + ((masks.take index).map (·.cardinality)).sum) := by
  induction masks generalizing next index with
  | nil => cases hmask
  | cons first rest ih =>
    obtain ⟨hfirst, hrest⟩ := List.pairwise_cons.mp hdistinct
    cases first with
    | bitset => cases hgroups _ List.mem_cons_self
    | group id bits =>
      cases index with
      | zero =>
        cases hmask
        exact baseOf?_ofGroups_self next id bits rest
      | succ index =>
        rw [baseOf?_ofGroups_other (hfirst mask (List.mem_of_getElem? hmask)),
          ih (fun m hm => hgroups m (List.mem_cons_of_mem _ hm)) hrest hmask, List.take_succ_cons,
          List.map_cons, List.sum_cons, Nat.add_assoc]

end CpuNumbering

namespace Record

/-! ## What a span is made of -/

/-- A position of a span is one that was added, or was there before. -/
theorem test_addSpan {id other bit : Nat} {bits span : BitVec 64}
    {spans : List (Nat × BitVec 64)} (hspan : (other, span) ∈ addSpan id bits spans)
    (hbit : (Mask.group other span).test bit = true) :
    (other = id ∧ (Mask.group id bits).test bit = true) ∨
      ∃ old, (other, old) ∈ spans ∧ (Mask.group other old).test bit = true := by
  -- the bits come in before the first span of a higher group or are added to that of their own
  induction spans with
  | nil =>
    cases List.mem_singleton.mp hspan
    exact .inl ⟨rfl, hbit⟩
  | cons first rest ih =>
    rw [addSpan] at hspan
    split at hspan
    · rcases List.mem_cons.mp hspan with hnew | hold
      · cases hnew
        exact .inl ⟨rfl, hbit⟩
      · exact .inr ⟨span, hold, hbit⟩
    · split at hspan
      · next hsame =>
        rcases List.mem_cons.mp hspan with hgrown | hold
        · cases hgrown
          simp only [Mask.test, Mask.number, BitVec.toNat_or, Nat.testBit_or,
            Bool.or_eq_true] at hbit
          rcases hbit with hbit | hbit
          · exact .inr ⟨_, List.mem_cons_self, hbit⟩
          · exact .inl ⟨hsame.symm, hbit⟩
        · exact .inr ⟨span, List.mem_cons_of_mem _ hold, hbit⟩
      · rcases List.mem_cons.mp hspan with hold | hspan
        · exact .inr ⟨span, hold ▸ List.mem_cons_self, hbit⟩
        · rcases ih hspan with hnew | ⟨old, hold, htest⟩
          · exact .inl hnew
          · exact .inr ⟨old, List.mem_cons_of_mem _ hold, htest⟩

/-- Each position of a span is reported by a record. -/
theorem exists_record_of_test {records : List Record} {span : Mask}
    (hspan : span ∈ groupSpans records) {bit : Nat} (hbit : span.test bit = true) :
    ∃ r ∈ records, r.mask.groupId? = span.groupId? ∧ r.mask.test bit = true := by
  obtain ⟨⟨id, bits⟩, hlisted, rfl⟩ := List.mem_map.mp (groupSpans_eq records ▸ hspan)
  refine List.foldlRecOn records addRecord
    (motive := fun spans => ∀ id bits, (id, bits) ∈ spans → (Mask.group id bits).test bit = true →
      ∃ r ∈ records, r.mask.groupId? = some id ∧ r.mask.test bit = true)
    (fun _ _ hnil => absurd hnil List.not_mem_nil)
    (fun spans hspans r hr id bits hlisted hbit => ?_) id bits hlisted hbit
  rw [addRecord] at hlisted
  cases hmask : r.mask with
  | bitset => exact hspans id bits (by simpa only [hmask] using hlisted) hbit
  | group added reported =>
    rw [hmask] at hlisted
    rcases test_addSpan hlisted hbit with ⟨rfl, htest⟩ | ⟨old, hold, htest⟩
    · exact ⟨r, hr, by rw [hmask, Mask.groupId?], by rw [hmask, htest]⟩
    · exact hspans id old hold htest

/-! ## The groups of accepted records -/

/-- The records leave a position of a group out, or give one group two masks. -/
inductive Irregular (records : List Record) : Prop where
  /-- A group is recorded without a position below one that it has. -/
  | hole {r : Record} {below above : Nat} (hr : r ∈ records) (hgroup : r.relationship = .group)
    (hlt : below < above) (hout : r.mask.test below = false) (hin : r.mask.test above = true)
  /-- Groups are not recorded, and nothing is reported at a position of one below one where
  something is. -/
  | gap {r : Record} {below above : Nat} (hnone : ∀ r ∈ records, r.relationship ≠ .group)
    (hr : r ∈ records) (hlt : below < above) (hin : r.mask.test above = true)
    (hout : ∀ other ∈ records, other.mask.groupId? = r.mask.groupId? →
      other.mask.test below = false)
  /-- A group is recorded with two masks. -/
  | twice {a b : Record} (ha : a ∈ records) (hb : b ∈ records) (hagroup : a.relationship = .group)
    (hbgroup : b.relationship = .group) (hsame : a.mask.groupId? = b.mask.groupId?)
    (hdiffer : a.mask ≠ b.mask)

namespace Accepted

variable {records : List Record} {coverage : Coverage}

/-- The group in a place begins behind the CPUs of the groups before it. -/
theorem baseOf?_group (h : Accepted records true coverage) {index : Nat} {mask : Mask}
    (hmask : (groupMasks true records)[index]? = some mask) :
    (numbering true records).baseOf? mask =
      some ((parts true records coverage).layout.cpusBefore index) := by
  have hsizes : ((parts true records coverage).layout.groups.take index).map (·.cardinality) =
      ((groupMasks true records).take index).map (·.cardinality) := by
    have hmasks := Parts.map_mask_number (groupMasks true records) fun _ => .group
    rw [← hmasks, ← List.map_take, List.map_map]
    rfl
  rw [numbering_grouped, CpuNumbering.baseOf?_ofGroups (fun _ hm => h.isGroup_groupMasks hm)
    h.distinct_groupMasks hmask, Nat.zero_add, Layout.cpusBefore, hsizes]

/-- The groups are in the order of their ids. -/
theorem ascends_groupId? (h : Accepted records true coverage) :
    (groupMasks true records).Pairwise fun a b => ∃ id other,
      a.groupId? = some id ∧ b.groupId? = some other ∧ id < other := by
  refine ((ascends_groupMasks true records).and h.distinct_groupMasks).imp_of_mem ?_
  intro a b ha hb hab
  obtain ⟨id, hid, other, hother, hle⟩ :=
    Mask.groupId?_le_of_cmp (h.isGroup_groupMasks ha) (h.isGroup_groupMasks hb) hab.1
  have hne : id ≠ other := by
    rintro rfl
    exact hab.2 (hid.trans hother.symm)
  exact ⟨id, other, hid, hother, by omega⟩

/-- A CPU is in the group in whose stretch its number lies. -/
theorem groupOf?_eq_some_iff (h : Accepted records true coverage) {index : Nat} {g : Entity}
    (hg : (parts true records coverage).layout.groups[index]? = some g) (cpu : Nat) :
    (parts true records coverage).layout.groupOf? cpu = some g ↔
      (parts true records coverage).layout.cpusBefore index ≤ cpu ∧
        cpu < (parts true records coverage).layout.cpusBefore index + g.cardinality := by
  let p := parts true records coverage
  have hnumber : (Parts.number (groupMasks true records) fun _ => .group)[index]? = some g := hg
  rw [Parts.getElem?_number] at hnumber
  obtain ⟨mask, hmask, rfl⟩ := Option.map_eq_some_iff.mp hnumber
  have hmem := List.mem_of_getElem? hmask
  have hentity : (⟨index, mask, .group⟩ : Entity) ∈
      Parts.number (groupMasks true records) fun _ => .group := List.mem_of_getElem? hg
  have hown : p.layout.groupOf? cpu = some ⟨index, mask, .group⟩ ↔ cpu ∈ p.layout.cpusOf mask := by
    rw [← (h.divides_groups (List.ne_nil_of_mem hmem)).own_iff_mem_cpusOf hentity, Parts.ownerOf?,
      Option.bind_assoc]
    rfl
  -- the mask is filled from position 0, so its CPUs are a stretch from the base on
  have hfilled := h.filled mask hmem
  rw [hown, mem_cpusOf_parts (h.isGroup_groupMasks hmem), h.baseOf?_group hmask]
  generalize (parts true records coverage).layout.cpusBefore index = first
  show _ ↔ first ≤ cpu ∧ cpu < first + mask.cardinality
  constructor
  · rintro ⟨base, bit, hbase, hbit, rfl⟩
    have hlt := (hfilled bit).mp hbit
    cases Option.some.inj hbase
    omega
  · rintro ⟨hle, hlt⟩
    exact ⟨first, cpu - first, rfl, (hfilled _).mpr (by omega), by omega⟩

/-- Groups that are accepted number the CPUs one group after the other. -/
theorem contiguous (h : Accepted records true coverage) :
    (parts true records coverage).layout.Contiguous := by
  have hmasks : (parts true records coverage).layout.groups.map (·.mask) =
      groupMasks true records := Parts.map_mask_number (groupMasks true records) fun _ => .group
  have hmem : ∀ g ∈ (parts true records coverage).layout.groups,
      g.mask ∈ groupMasks true records := by
    intro g hg
    rw [← hmasks]
    exact List.mem_map_of_mem hg
  refine ⟨?_, fun g hg => ?_, fun {index id g} hg hid => ?_, ?_,
    fun hg => h.groupOf?_eq_some_iff hg⟩
  · have hascends := h.ascends_groupId?
    rw [← hmasks] at hascends
    exact List.pairwise_map.mp hascends
  · exact Mask.eq_group_of_filled (h.isGroup_groupMasks (hmem g hg)) (h.filled _ (hmem g hg))
  · have hmask : (groupMasks true records)[index]? = some g.mask := by
      rw [← hmasks, List.getElem?_map, hg, Option.map_some]
    have hbase := h.baseOf?_group hmask
    rwa [CpuNumbering.baseOf?, hid, Option.bind_some] at hbase
  · have htotal : (parts true records coverage).layout.cpus = (numbering true records).total := by
      rw [← length_slots_parts true records coverage, h.tiled.slots_length]
      rfl
    rw [htotal, numbering_grouped, CpuNumbering.total_ofGroups, Nat.zero_add, ← hmasks,
      List.map_map]
    rfl

/-- The mask of a recorded group is that of a group of the machine. -/
theorem mem_groupMasks (h : Accepted records true coverage) {r : Record} (hr : r ∈ records)
    (hgroup : r.relationship = .group) : r.mask ∈ groupMasks true records := by
  have hmask := h.mem_masksOf hr
  rw [hgroup] at hmask
  simpa [groupMasks, List.ne_nil_of_mem hmask] using hmask

/-- No group has two masks. -/
theorem groupMask_eq (h : Accepted records true coverage) {a b : Mask}
    (ha : a ∈ groupMasks true records) (hb : b ∈ groupMasks true records)
    (hsame : a.groupId? = b.groupId?) : a = b := by
  have : Std.Symm fun a b : Mask => a.groupId? ≠ b.groupId? := ⟨fun _ _ hne => hne.symm⟩
  by_contra hne
  exact h.distinct_groupMasks.forall ha hb hne hsame

/-- Records that are accepted have neither holes in a group nor a group twice. -/
theorem not_irregular (h : Accepted records true coverage) : ¬ Irregular records := by
  intro hirregular
  cases hirregular with
  | @hole r below above hr hgroup hlt hout hin =>
    have hfilled := h.filled r.mask (h.mem_groupMasks hr hgroup)
    have habove := (hfilled above).mp hin
    have hbelow := (hfilled below).mpr (by omega)
    simp [hout] at hbelow
  | @gap r below above hnone hr hlt hin hout =>
    obtain ⟨span, hspan, hsub⟩ := exists_span hr (h.family r hr)
    have hmem : span ∈ groupMasks true records := by rwa [groupMasks_eq_groupSpans hnone]
    have habove := (h.filled span hmem above).mp (Mask.test_of_subset hsub hin)
    have hbelow := (h.filled span hmem below).mpr (by omega)
    obtain ⟨other, hother, hid, htest⟩ := exists_record_of_test hspan hbelow
    have hmissing := hout other hother (hid.trans (Mask.groupId?_eq_of_subset hsub).symm)
    simp [hmissing] at htest
  | @twice a b ha hb hagroup hbgroup hsame hdiffer =>
    exact hdiffer
      (h.groupMask_eq (h.mem_groupMasks ha hagroup) (h.mem_groupMasks hb hbgroup) hsame)

end Accepted

end Record

/-- On a machine of groups that is accepted, every group has its first positions and no others, and
its CPUs come right behind those of the groups with smaller numbers. Records in which a group leaves
a position out or has two masks are refused. -/
theorem groups_contiguous {records : List Record}
    (hgrouped : ∀ r ∈ records, r.mask.isGroup = true) :
    (∀ l, Layout.ofRecords records = .ok l → l.Contiguous) ∧
      (Record.Irregular records → ∃ e, Layout.ofRecords records = .error e) := by
  constructor
  · intro l h
    obtain ⟨coverage, haccepted, hassemble⟩ := Record.exists_accepted_of_family hgrouped h
    obtain ⟨-, -, rfl⟩ := Parts.assemble_eq_ok_iff.mp hassemble
    exact haccepted.contiguous
  · intro hirregular
    cases hresult : Layout.ofRecords records with
    | error e => exact ⟨e, rfl⟩
    | ok l =>
      obtain ⟨coverage, haccepted, -⟩ := Record.exists_accepted_of_family hgrouped hresult
      exact absurd hirregular haccepted.not_irregular

/-- Group 5 with two CPUs and group 2 with the given positions, each with a core and a package. -/
def Record.groupsOf (bits : BitVec 64) : List Record :=
  [⟨.group, .group 5 3⟩, ⟨.group, .group 2 bits⟩, ⟨.core, .group 2 bits⟩, ⟨.core, .group 5 3⟩,
    ⟨.package, .group 2 bits⟩, ⟨.package, .group 5 3⟩]

/-- Two groups of two CPUs, and two groups that have a hole. -/
theorem groups_contiguous_two_and_two :
    (∃ l, Layout.ofRecords (Record.groupsOf 3) = .ok l ∧ l.Contiguous) ∧
      Record.Irregular (Record.groupsOf 5) ∧
        ∃ e, Layout.ofRecords (Record.groupsOf 5) = .error e := by
  have hgrouped : ∀ bits, ∀ r ∈ Record.groupsOf bits, r.mask.isGroup = true := by
    simp [Record.groupsOf, Mask.isGroup]
  have hirregular : Record.Irregular (Record.groupsOf 5) :=
    have hout : (Mask.group 2 5).test 1 = false := by decide
    have hin : (Mask.group 2 5).test 2 = true := by decide
    .hole (r := ⟨.group, .group 2 5⟩) (by simp [Record.groupsOf]) rfl (by decide) hout hin
  obtain ⟨l, hl, -⟩ : ∃ l, Layout.ofRecords (Record.groupsOf 3) = .ok l ∧
      decide (l.cpus = 4) = true := exists_ok_of_any (by cbv)
  exact ⟨⟨l, hl, (groups_contiguous (hgrouped 3)).1 l hl⟩, hirregular,
    (groups_contiguous (hgrouped 5)).2 hirregular⟩

end CpuPlacement
