import CpuPlacement.Proofs.Layout.GroupNumbering
import CpuPlacement.Proofs.Mask.Same
import Mathlib

/-!
# Bit-sets as sets of CPUs

A bit-set is, but for its length, the set of the CPUs that it selects (`Mask.cpuSet`). The masks
that are recorded of a kind are then a set of sets of CPUs (`Record.cpuSets`), in which a mask that
is recorded twice, or with another length, counts once. Masks get their claims when their CPUs are
CPUs of the machine and no two of them share one (`CpuNumbering.exists_assign`).
-/

set_option autoImplicit false

namespace CpuPlacement

namespace Mask

/-! ## The set of a mask -/

/-- The selected positions as a set. -/
def cpuSet (m : Mask) : Finset Nat :=
  m.indices.toFinset

theorem mem_cpuSet {m : Mask} {cpu : Nat} : cpu ∈ m.cpuSet ↔ m.test cpu = true := by
  rw [cpuSet, List.mem_toFinset, mem_indices]

theorem card_cpuSet (m : Mask) : m.cpuSet.card = m.indices.length :=
  List.toFinset_card_of_nodup (pairwise_indices m).nodup

/-- A mask that is not empty has a CPU in its set. -/
theorem cpuSet_nonempty_iff {m : Mask} : m.cpuSet.Nonempty ↔ m.isEmpty = false := by
  rw [← not_iff_not, Finset.not_nonempty_iff_eq_empty, Bool.not_eq_false, isEmpty_iff,
    Finset.eq_empty_iff_forall_notMem]
  simp only [mem_cpuSet, Bool.not_eq_true]

section Bitsets

variable {a b : Mask} (ha : a.isGroup = false) (hb : b.isGroup = false)

include ha hb

theorem subset_iff_cpuSet : a.subset b = true ↔ a.cpuSet ⊆ b.cpuSet := by
  rw [subset_iff (sameSpace_of_bitsets ha hb), Finset.subset_iff]
  simp only [mem_cpuSet]

/-- Bit-sets are the same if their sets of CPUs are equal. -/
theorem same_iff_cpuSet : a.same b = true ↔ a.cpuSet = b.cpuSet := by
  have hgroup : a.groupId? = b.groupId? := by
    cases a with
    | group => cases ha
    | bitset =>
      cases b with
      | group => cases hb
      | bitset => rfl
  rw [same_iff_test, and_iff_right hgroup, Finset.ext_iff]
  simp only [mem_cpuSet]

end Bitsets

/-- Bit-sets that ascend select different sets. -/
theorem Ascends.nodup_cpuSet {masks : List Mask} (h : Ascends masks)
    (hbitsets : ∀ m ∈ masks, m.isGroup = false) : (masks.map cpuSet).Nodup := by
  refine List.pairwise_map.mpr (h.imp_of_mem fun {a b} ha hb hlt hsame => ?_)
  have heq := (same_iff_cpuSet (hbitsets a ha) (hbitsets b hb)).mpr hsame
  simp [same, hlt] at heq

end Mask

/-! ## Masks that get their claims -/

namespace CpuNumbering

variable {n : CpuNumbering} {masks : List Mask}

/-- With bit-sets a machine reaches up to the highest CPU of a mask. -/
theorem lt_total_ofBitsets {cpu : Nat} :
    cpu < (ofBitsets masks).total ↔ ∃ m ∈ masks, ∃ other ∈ m.cpuSet, cpu ≤ other := by
  -- each mask reaches one past its last position, and the machine as far as the farthest
  let reached := masks.filterMap fun m => m.indices.getLast?.map (· + 1)
  have htotal : (ofBitsets masks).total = reached.max?.getD 0 := rfl
  have hreached : ∀ top, top ∈ reached ↔ ∃ m ∈ masks, ∃ last, m.indices.getLast? = some last ∧
      last + 1 = top := by
    intro top
    simp only [reached, List.mem_filterMap, Option.map_eq_some_iff]
  rw [htotal]
  constructor
  · intro hlt
    cases hmax : reached.max? with
    | none => simp [hmax] at hlt
    | some top =>
      obtain ⟨m, hm, last, hlast, rfl⟩ := (hreached top).mp (List.max?_mem hmax)
      rw [hmax, Option.getD_some] at hlt
      exact ⟨m, hm, last, List.mem_toFinset.mpr (List.mem_of_getLast? hlast), by omega⟩
  · rintro ⟨m, hm, other, hother, hle⟩
    have hindex : other ∈ m.indices := List.mem_toFinset.mp hother
    have hne : m.indices ≠ [] := List.ne_nil_of_mem hindex
    have hlast : other ≤ m.indices.getLast hne :=
      ((Mask.pairwise_indices m).imp Nat.le_of_lt).rel_getLast hindex
    have htop : m.indices.getLast hne + 1 ∈ reached :=
      (hreached _).mpr ⟨m, hm, _, List.getLast?_eq_some_getLast hne, rfl⟩
    have hmax := List.le_max?_getD_of_mem (k := 0) htop
    omega

/-- The CPUs of a bit-set are numbered by themselves. -/
theorem cpusOf_bitset {m : Mask} (hbitset : m.isGroup = false)
    (hwithin : ∀ cpu ∈ m.cpuSet, cpu < n.total) : n.cpusOf m = .ok m.indices := by
  have hat : n.cpuAt m = .ok id := by
    cases m with
    | group => cases hbitset
    | bitset => rfl
  have hfound : m.indices.find? (n.total ≤ ·) = none := by
    refine List.find?_eq_none.mpr fun cpu hcpu => ?_
    simpa using hwithin cpu (List.mem_toFinset.mpr hcpu)
  refine bind_eq_ok_iff.mpr ⟨id, hat, ?_⟩
  simp only [List.map_id, hfound]
  rfl

/-- Masks that keep apart and within the machine can all claim their CPUs. -/
theorem exists_claims (kind : RecordKind) {taken : List Nat}
    (hbitsets : ∀ m ∈ masks, m.isGroup = false)
    (hwithin : ∀ m ∈ masks, ∀ cpu ∈ m.cpuSet, cpu < n.total)
    (hapart : masks.Pairwise fun a b => Disjoint a.cpuSet b.cpuSet)
    (hfree : ∀ m ∈ masks, ∀ cpu ∈ m.cpuSet, cpu ∉ taken) :
    ∃ claimed, n.claims kind taken masks = .ok claimed := by
  induction masks generalizing taken with
  | nil => exact ⟨[], rfl⟩
  | cons first rest ih =>
    obtain ⟨hfirst, hrest⟩ := List.pairwise_cons.mp hapart
    rw [List.forall_mem_cons] at hbitsets hwithin hfree
    obtain ⟨others, hothers⟩ := @ih (first.indices ++ taken) hbitsets.2 hwithin.2 hrest
      fun m hm cpu hcpu htaken => by
        rcases List.mem_append.mp htaken with hcpu' | htaken
        · exact Finset.disjoint_left.mp (hfirst m hm) (List.mem_toFinset.mpr hcpu') hcpu
        · exact hfree.2 m hm cpu hcpu htaken
    have hfound : first.indices.find? (taken.contains ·) = none := by
      refine List.find?_eq_none.mpr fun cpu hcpu htaken => ?_
      exact hfree.1 cpu (List.mem_toFinset.mpr hcpu) (List.contains_iff_mem.mp htaken)
    refine ⟨first.indices :: others,
      bind_eq_ok_iff.mpr ⟨first.indices, cpusOf_bitset hbitsets.1 hwithin.1, ?_⟩⟩
    simp only [hfound, hothers]
    rfl

/-- Bit-sets with CPUs of the machine of which no two share one have owners. -/
theorem exists_assign (kind : RecordKind) (hbitsets : ∀ m ∈ masks, m.isGroup = false)
    (hwithin : ∀ m ∈ masks, ∀ cpu ∈ m.cpuSet, cpu < n.total)
    (hapart : masks.Pairwise fun a b => Disjoint a.cpuSet b.cpuSet) :
    ∃ owners, n.assign kind masks = .ok owners := by
  obtain ⟨claimed, hclaimed⟩ := exists_claims kind hbitsets hwithin hapart
    fun _ _ _ _ => List.not_mem_nil
  exact ⟨n.owners claimed, by rw [assign, hclaimed]⟩

end CpuNumbering

/-- Where every CPU has an owner of each kind that there is, none is left out. -/
theorem Coverage.gap?_eq_none {c : Coverage} {total : Nat} {hasNodes hasGroups : Bool}
    (hcores : ∀ cpu < total, ∃ id, CpuNumbering.ownerAt c.cores cpu = some id)
    (hpackages : ∀ cpu < total, ∃ id, CpuNumbering.ownerAt c.packages cpu = some id)
    (hnodes : hasNodes = true → ∀ cpu < total, ∃ id, CpuNumbering.ownerAt c.nodes cpu = some id)
    (hgroups : hasGroups = true → ∀ cpu < total, ∃ id,
      CpuNumbering.ownerAt c.groups cpu = some id) : c.gap? total hasNodes hasGroups = none := by
  refine List.findSome?_eq_none_iff.mpr fun cpu hcpu => ?_
  rw [List.mem_range] at hcpu
  have hpresent {owners : List (Option Nat)}
      (h : ∃ id, CpuNumbering.ownerAt owners cpu = some id) :
      (owners[cpu]?.bind id).isNone = false := by
    obtain ⟨id, hid⟩ := h
    exact Option.isNone_eq_false_iff.mpr (Option.isSome_of_eq_some hid)
  have hnode : (hasNodes && (c.nodes[cpu]?.bind id).isNone) = false := by
    cases hasNodes with
    | false => rfl
    | true => exact hpresent (hnodes rfl cpu hcpu)
  have hgroup : (hasGroups && (c.groups[cpu]?.bind id).isNone) = false := by
    cases hasGroups with
    | false => rfl
    | true => exact hpresent (hgroups rfl cpu hcpu)
  simp only [hpresent (hcores cpu hcpu), hpresent (hpackages cpu hcpu), hnode, hgroup,
    Bool.false_eq_true, if_false]

namespace Record

variable {records : List Record} {kind : Relationship}

/-! ## The masks of a kind -/

/-- The sets of CPUs that are recorded of a kind. -/
def cpuSets (records : List Record) (kind : Relationship) : Finset (Finset Nat) :=
  ((records.filter (·.relationship = kind)).map (·.mask.cpuSet)).toFinset

/-- The sets of a kind are those of its records. -/
theorem mem_cpuSets {cpus : Finset Nat} :
    cpus ∈ cpuSets records kind ↔ ∃ r ∈ records, r.relationship = kind ∧ r.mask.cpuSet = cpus := by
  simp only [cpuSets, List.mem_toFinset, List.mem_map, List.mem_filter, decide_eq_true_eq,
    and_assoc]

section Bitsets

variable (hbitsets : ∀ r ∈ records, r.mask.isGroup = false)

include hbitsets

theorem isGroup_of_mem_masksOf {m : Mask} (hm : m ∈ masksOf records kind) : m.isGroup = false := by
  obtain ⟨r, hr, -, rfl⟩ := exists_record_of_mem_masksOf hm
  exact hbitsets r hr

/-- The recorded sets are those of the masks of the kind. -/
theorem toFinset_masksOf :
    ((masksOf records kind).map (·.cpuSet)).toFinset = cpuSets records kind := by
  ext cpus
  rw [List.mem_toFinset, List.mem_map, mem_cpuSets]
  constructor
  · rintro ⟨m, hm, rfl⟩
    obtain ⟨r, hr, hkind, rfl⟩ := exists_record_of_mem_masksOf hm
    exact ⟨r, hr, hkind, rfl⟩
  · rintro ⟨r, hr, hkind, rfl⟩
    have hlisted : r.mask ∈ (records.filter (·.relationship = kind)).map (·.mask) :=
      List.mem_map_of_mem (List.mem_filter.mpr ⟨hr, decide_eq_true hkind⟩)
    obtain ⟨m, hm, hsame⟩ := Mask.exists_same_orderedSet hlisted
    exact ⟨m, hm, ((Mask.same_iff_cpuSet (hbitsets r hr)
      (isGroup_of_mem_masksOf hbitsets hm)).mp hsame).symm⟩

theorem mem_cpuSets_iff {cpus : Finset Nat} :
    cpus ∈ cpuSets records kind ↔ ∃ m ∈ masksOf records kind, m.cpuSet = cpus := by
  rw [← toFinset_masksOf hbitsets, List.mem_toFinset, List.mem_map]

theorem nodup_cpuSet_masksOf : ((masksOf records kind).map (·.cpuSet)).Nodup :=
  (ascends_masksOf records kind).nodup_cpuSet fun _ hm => isGroup_of_mem_masksOf hbitsets hm

/-- The masks of the kind are as many as the recorded sets. -/
theorem length_masksOf : (masksOf records kind).length = (cpuSets records kind).card := by
  rw [← toFinset_masksOf hbitsets, List.toFinset_card_of_nodup (nodup_cpuSet_masksOf hbitsets),
    List.length_map]

theorem masksOf_eq_nil_iff : masksOf records kind = [] ↔ cpuSets records kind = ∅ := by
  rw [← List.length_eq_zero_iff, length_masksOf hbitsets, Finset.card_eq_zero]

end Bitsets

/-! ## The machine -/

/-- One more than the highest CPU of a package or a core. -/
def reach (records : List Record) : Nat :=
  (cpuSets records .package ∪ cpuSets records .core).sup fun cpus => cpus.sup (· + 1)

/-- The reach of records is one more than the highest CPU in a package or a core. -/
theorem lt_reach_iff {cpu : Nat} : cpu < reach records ↔
    ∃ cpus ∈ cpuSets records .package ∪ cpuSets records .core, ∃ other ∈ cpus, cpu ≤ other := by
  simp only [reach, Finset.lt_sup_iff, Nat.lt_succ_iff]

/-- The CPUs are numbered up to the reach of the records. -/
theorem total_numbering (hbitsets : ∀ r ∈ records, r.mask.isGroup = false) :
    (numbering false records).total = reach records := by
  refine eq_of_forall_lt_iff fun cpu => ?_
  rw [lt_reach_iff, numbering, if_neg Bool.false_ne_true, CpuNumbering.lt_total_ofBitsets]
  simp only [List.mem_append, Finset.mem_union, mem_cpuSets_iff hbitsets]
  constructor
  · rintro ⟨m, hm, hother⟩
    exact ⟨m.cpuSet, hm.imp (fun hm => ⟨m, hm, rfl⟩) fun hm => ⟨m, hm, rfl⟩, hother⟩
  · rintro ⟨_, ⟨m, hm, rfl⟩ | ⟨m, hm, rfl⟩, hother⟩
    · exact ⟨m, .inl hm, hother⟩
    · exact ⟨m, .inr hm, hother⟩

end Record

end CpuPlacement
