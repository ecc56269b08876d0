import CpuPlacement.Proofs.Layout.Claims
import CpuPlacement.Proofs.Sorted
import Mathlib.Data.List.Sort

/-!
# Recorded machines are tiled

Records that make a layout have passed a row of checks (`Record.Accepted`). From them it follows
that the masks of each kind divide the CPUs. On a machine of groups a CPU has no number of its own
in its core's mask; its mask is made from its rank among the core's CPUs. Since the positions of a
mask and the CPUs that they stand for ascend together, the position of that rank is the one that
stands for the CPU (`Record.Accepted.exists_bit`).
-/

set_option autoImplicit false

namespace CpuPlacement

/-! ## Ranks -/

/-- How often a key occurs before a CPU is how many CPUs below it have the key. -/
theorem count_take (keys : List Nat) (key n : Nat) :
    (keys.take n).count key =
      ((List.range n).filter fun cpu => keys[cpu]? == some key).length := by
  induction n with
  | zero => rfl
  | succ n ih =>
    rw [List.take_add_one, List.count_append, ih, List.range_succ, List.filter_append,
      List.length_append]
    congr 1
    cases hkey : keys[n]? with
    | none => simp [hkey]
    | some other => by_cases hsame : other = key <;> simp [hkey, hsame]

/-- In an ascending list of the CPUs with one key, a CPU stands where its rank among them says. -/
theorem getElem?_rank {keys members : List Nat} {key cpu : Nat}
    (hascending : members.Pairwise (· < ·))
    (hmembers : ∀ other, other ∈ members ↔ keys[other]? = some key)
    (hcpu : keys[cpu]? = some key) : members[(keys.take cpu).count key]? = some cpu := by
  have hlt : cpu < keys.length := (List.getElem?_eq_some_iff.mp hcpu).1
  let has (other : Nat) : Bool := keys[other]? == some key
  have hhas : has cpu = true := beq_iff_eq.mpr hcpu
  have hfilter : members = (List.range keys.length).filter has := by
    refine hascending.eq_of_mem_iff (List.pairwise_lt_range.filter _) fun other => ?_
    rw [hmembers, List.mem_filter, List.mem_range, beq_iff_eq]
    exact (and_iff_right_of_imp fun hother => (List.getElem?_eq_some_iff.mp hother).1).symm
  have hrank : (keys.take cpu).count key = ((List.range cpu).filter has).length :=
    count_take keys key cpu
  obtain ⟨more, hmore⟩ : ∃ more, keys.length = cpu + (more + 1) := ⟨keys.length - cpu - 1, by omega⟩
  rw [hrank, hfilter, hmore, List.range_add, List.filter_append, List.range_succ_eq_map,
    List.map_cons, Nat.add_zero, List.filter_cons_of_pos hhas,
    List.getElem?_append_right (Nat.le_refl _), Nat.sub_self, List.getElem?_cons_zero]

/-- A CPU is the next thread of its core after those before it. -/
theorem getElem?_threadRanks (cores : List Nat) (cpu : Nat) :
    (Layout.threadRanks cores)[cpu]? = cores[cpu]?.map fun core => (cores.take cpu).count core := by
  rw [Layout.threadRanks, List.getElem?_map, List.getElem?_zipIdx]
  cases cores[cpu]? with
  | none => rfl
  | some core => simp

/-- Every slot is listed with the rank of its CPU in the core. -/
theorem getElem?_zip_threadRanks {slots : List Slot} {cpu : Nat} {slot : Slot}
    (hslot : slots[cpu]? = some slot) :
    (slots.zip (Layout.threadRanks (slots.map (·.core))))[cpu]? =
      some (slot, ((slots.map (·.core)).take cpu).count slot.core) := by
  refine List.getElem?_zip_eq_some.mpr ⟨hslot, ?_⟩
  rw [getElem?_threadRanks, List.getElem?_map, hslot, Option.map_some, Option.map_some]

/-! ## The slots of covered CPUs -/

namespace Coverage

open CpuNumbering (ownerAt)

/-- The slot of a CPU, whether or not the machine has it. -/
def slotAt (c : Coverage) (cpu : Nat) : Slot where
  socket := (ownerAt c.packages cpu).getD 0
  core := (ownerAt c.cores cpu).getD 0
  node := ownerAt c.nodes cpu
  group := ownerAt c.groups cpu

theorem length_slots (c : Coverage) (total : Nat) : (c.slots total).length = total := by
  rw [slots, List.length_map, List.length_range]

/-- The slot of a CPU names what covers it. -/
theorem getElem?_slots {c : Coverage} {total cpu : Nat} {slot : Slot} :
    (c.slots total)[cpu]? = some slot ↔ cpu < total ∧ c.slotAt cpu = slot := by
  rw [slots, List.getElem?_map]
  by_cases hcpu : cpu < total
  · rw [List.getElem?_range hcpu, Option.map_some, Option.some.injEq]
    exact (and_iff_right hcpu).symm
  · simp [hcpu]

theorem exists_owner {owners : List (Option Nat)} {cpu : Nat}
    (h : ¬ (ownerAt owners cpu).isNone = true) : ∃ id, ownerAt owners cpu = some id :=
  Option.ne_none_iff_exists'.mp fun hnone => h (hnone ▸ rfl)

/-- Where no CPU is left out, every CPU has an owner of each kind that there is. -/
theorem covered_of_gap? {c : Coverage} {total : Nat} {hasNodes hasGroups : Bool}
    (h : c.gap? total hasNodes hasGroups = none) {cpu : Nat} (hcpu : cpu < total) :
    (∃ id, ownerAt c.cores cpu = some id) ∧ (∃ id, ownerAt c.packages cpu = some id) ∧
      (hasNodes = true → ∃ id, ownerAt c.nodes cpu = some id) ∧
      (hasGroups = true → ∃ id, ownerAt c.groups cpu = some id) := by
  have hnone := List.findSome?_eq_none_iff.mp h cpu (List.mem_range.mpr hcpu)
  split at hnone
  · cases hnone
  · next hcore =>
    split at hnone
    · cases hnone
    · next hpackage =>
      split at hnone
      · cases hnone
      · next hnode =>
        split at hnone
        · cases hnone
        · next hgroup =>
          refine ⟨?_, ?_, fun hnodes => ?_, fun hgroups => ?_⟩
          · exact exists_owner hcore
          · exact exists_owner hpackage
          · exact exists_owner fun hmissing => hnode (Bool.and_eq_true_iff.mpr ⟨hnodes, hmissing⟩)
          · exact exists_owner fun hmissing => hgroup (Bool.and_eq_true_iff.mpr ⟨hgroups, hmissing⟩)

end Coverage

namespace Record

/-- The numbering that the masks of the records give. -/
def numbering (grouped : Bool) (records : List Record) : CpuNumbering :=
  if grouped then CpuNumbering.ofGroups 0 (groupMasks grouped records)
  else CpuNumbering.ofBitsets (masksOf records .package ++ masksOf records .core)

/-- The parts of a recorded machine, given the owners of its CPUs. -/
def parts (grouped : Bool) (records : List Record) (coverage : Coverage) : Parts :=
  let n := numbering grouped records
  let slots := coverage.slots n.total
  let threads := Layout.threadRanks (slots.map (·.core))
  let cores := masksOf records .core
  { descriptors := (slots.zip threads).map fun (slot, thread) => Layout.describe slot thread
    slots
    cpuMasks :=
      if grouped then
        (slots.zip threads).map fun (slot, thread) =>
          Layout.threadMask (cores[slot.core]?.getD (Mask.empty 0)) thread
      else (List.range n.total).map (Mask.single n.total)
    groupMasks := groupMasks grouped records
    nodeMasks := masksOf records .node
    socketMasks := masksOf records .package
    coreMasks := cores
    caches := cachesOf records
    groupBases := n.bases }

/-- The checks that the records have passed when their parts are assembled. -/
structure Accepted (records : List Record) (grouped : Bool) (coverage : Coverage) : Prop where
  family : ∀ r ∈ records, r.mask.isGroup = grouped
  nonempty : ∀ r ∈ records, r.mask.isEmpty = false
  distinct : grouped = true → CpuNumbering.repeatedGroup? (groupMasks grouped records) = none
  populated : (numbering grouped records).total ≠ 0
  groups : (numbering grouped records).assign .group (groupMasks grouped records) =
    .ok coverage.groups
  nodes : (numbering grouped records).assign .node (masksOf records .node) = .ok coverage.nodes
  packages : (numbering grouped records).assign .package (masksOf records .package) =
    .ok coverage.packages
  cores : (numbering grouped records).assign .core (masksOf records .core) = .ok coverage.cores
  covered : coverage.gap? (numbering grouped records).total (!(masksOf records .node).isEmpty)
    (!(groupMasks grouped records).isEmpty) = none

/-- The layout of masks that are all of one family, none empty and no group named twice. -/
def build (grouped : Bool) (records : List Record) : Except LayoutError Layout := do
  let n := numbering grouped records
  if n.total = 0 then throw .empty
  let coverage : Coverage :=
    { groups := ← n.assign .group (groupMasks grouped records)
      nodes := ← n.assign .node (masksOf records .node)
      packages := ← n.assign .package (masksOf records .package)
      cores := ← n.assign .core (masksOf records .core) }
  if let some (cpu, kind) := coverage.gap? n.total (!(masksOf records .node).isEmpty)
      (!(groupMasks grouped records).isEmpty) then
    throw (.uncovered cpu kind)
  (parts grouped records coverage).assemble

/-- The masks are of one family, none is empty, and no group is named twice: the checks that come
before CPUs are numbered. -/
structure Screened (grouped : Bool) (records : List Record) : Prop where
  family : ∀ r ∈ records, r.mask.isGroup = grouped
  nonempty : ∀ r ∈ records, r.mask.isEmpty = false
  distinct : grouped = true → CpuNumbering.repeatedGroup? (groupMasks grouped records) = none

namespace Screened

variable {grouped : Bool} {records : List Record}

/-- Records that are let through are of one family. -/
theorem not_mixed (h : Screened grouped records) {first : Record} (hfirst : first ∈ records) :
    records.any (·.mask.isGroup != first.mask.isGroup) = false := by
  refine List.any_eq_false.mpr fun r hr => ?_
  rw [h.family r hr, h.family first hfirst, bne_self_eq_false]
  exact Bool.false_ne_true

/-- Records that are let through all have CPUs. -/
theorem not_hollow (h : Screened grouped records) :
    records.find? (·.mask.isEmpty) = none := by
  refine List.find?_eq_none.mpr fun r hr => ?_
  rw [h.nonempty r hr]
  exact Bool.false_ne_true

/-- Records that are let through have no group twice. -/
theorem not_repeated (h : Screened grouped records) {first : Record} (hfirst : first ∈ records)
    (hgroup : first.mask.isGroup = true) :
    CpuNumbering.repeatedGroup? (groupMasks true records) = none := by
  obtain rfl : grouped = true := (h.family first hfirst).symm.trans hgroup
  exact h.distinct rfl

end Screened

/-- Records that fail a check are refused, and others are built. -/
theorem ofRecords_cases {records : List Record} (hrecords : records ≠ []) :
    (∃ grouped, Screened grouped records ∧ Layout.ofRecords records = build grouped records) ∨
      (∀ grouped, ¬ Screened grouped records) ∧
        ∃ cause, Layout.ofRecords records = .error (.misplaced cause) := by
  generalize hresult : Layout.ofRecords records = result
  unfold Layout.ofRecords at hresult
  split at hresult
  · next first rest =>
    have hfirst : first ∈ first :: rest := List.mem_cons_self
    rcases check_cases hresult with ⟨hmixed, rfl⟩ | ⟨hnotMixed, hresult⟩
    · refine Or.inr ⟨fun _ h => ?_, _, rfl⟩
      cases hmixed.symm.trans (h.not_mixed hfirst)
    have hfamily : ∀ r ∈ first :: rest, r.mask.isGroup = first.mask.isGroup := by
      simpa using hnotMixed
    generalize hgrouped : first.mask.isGroup = grouped at hfamily hresult
    dsimp only at hresult
    split at hresult
    · next hollow hfound =>
      refine Or.inr ⟨fun _ h => ?_, _, hresult.symm⟩
      cases hfound.symm.trans h.not_hollow
    · next hnotHollow =>
      have hnone := Option.eq_none_iff_forall_ne_some.mpr hnotHollow
      have hnonempty : ∀ r ∈ first :: rest, r.mask.isEmpty = false := by
        simpa using hnone
      -- only groups can be named twice, so the two branches go on in the same way
      cases grouped with
      | false => exact Or.inl ⟨false, ⟨hfamily, hnonempty, nofun⟩, hresult.symm⟩
      | true =>
        rw [if_pos rfl] at hresult
        split at hresult
        · next id hagain =>
          refine Or.inr ⟨fun _ h => ?_, _, hresult.symm⟩
          cases hagain.symm.trans (h.not_repeated hfirst hgrouped)
        · next hagain =>
          have hdistinct := Option.eq_none_iff_forall_ne_some.mpr hagain
          exact Or.inl ⟨true, ⟨hfamily, hnonempty, fun _ => hdistinct⟩, hresult.symm⟩
  · next hnil =>
    obtain ⟨first, rest, rfl⟩ := List.exists_cons_of_ne_nil hrecords
    exact absurd rfl (hnil first rest)

/-- Records make a layout when they have passed every check and their parts fit together. -/
theorem exists_accepted_of_ofRecords {records : List Record} {l : Layout}
    (h : Layout.ofRecords records = .ok l) :
    ∃ grouped coverage, Accepted records grouped coverage ∧
      (parts grouped records coverage).assemble = .ok l := by
  have hrecords : records ≠ [] := by
    rintro rfl
    cases h
  rcases ofRecords_cases hrecords with
    ⟨grouped, ⟨hfamily, hnonempty, hdistinct⟩, hbuild⟩ | ⟨-, cause, herror⟩
  case inr => cases herror.symm.trans h
  rw [hbuild] at h
  unfold build at h
  -- each check that has let the records through is peeled off, in the order of the checks
  obtain ⟨hpopulated, h⟩ := check_eq_ok_iff.mp h
  obtain ⟨groups, hgroups, h⟩ := bind_eq_ok_iff.mp h
  obtain ⟨nodes, hnodes, h⟩ := bind_eq_ok_iff.mp h
  obtain ⟨packages, hpackages, h⟩ := bind_eq_ok_iff.mp h
  obtain ⟨cores, hcores, h⟩ := bind_eq_ok_iff.mp h
  dsimp only at h
  split at h
  · cases h
  · next hgap =>
    have hcovered := Option.eq_none_iff_forall_ne_some.mpr
      fun flaw : Nat × RecordKind => hgap flaw.1 flaw.2
    exact ⟨grouped, ⟨groups, nodes, packages, cores⟩,
      ⟨hfamily, hnonempty, hdistinct, hpopulated, hgroups, hnodes, hpackages, hcores, hcovered⟩, h⟩

/-- Masks that are all of a known family have been accepted as masks of that family. -/
theorem exists_accepted_of_family {records : List Record} {grouped : Bool}
    (hfamily : ∀ r ∈ records, r.mask.isGroup = grouped) {l : Layout}
    (h : Layout.ofRecords records = .ok l) :
    ∃ coverage, Accepted records grouped coverage ∧
      (parts grouped records coverage).assemble = .ok l := by
  obtain ⟨grouped', coverage, haccepted, hassemble⟩ := exists_accepted_of_ofRecords h
  have hrecords : records ≠ [] := by
    rintro rfl
    cases h
  obtain ⟨first, hfirst⟩ := List.exists_mem_of_ne_nil records hrecords
  obtain rfl : grouped' = grouped :=
    (haccepted.family first hfirst).symm.trans (hfamily first hfirst)
  exact ⟨coverage, haccepted, hassemble⟩

namespace Accepted

variable {records : List Record} {grouped : Bool} {coverage : Coverage}

/-- Records that are accepted are assembled. -/
theorem build_eq (h : Accepted records grouped coverage) :
    build grouped records = (parts grouped records coverage).assemble := by
  rw [build, if_neg h.populated, h.groups, h.nodes, h.packages, h.cores]
  have hcovered := h.covered
  simp only [bind, Except.bind]
  split
  · next hgap => simp [hcovered] at hgap
  · rfl

/-- Records that have passed every check are assembled. -/
theorem ofRecords_eq (h : Accepted records grouped coverage) :
    Layout.ofRecords records = (parts grouped records coverage).assemble := by
  have hrecords : records ≠ [] := by
    rintro rfl
    exact h.populated (by cases grouped <;> rfl)
  rcases ofRecords_cases hrecords with ⟨grouped', hscreened, hbuild⟩ | ⟨hnot, -⟩
  · obtain ⟨first, hfirst⟩ := List.exists_mem_of_ne_nil records hrecords
    obtain rfl : grouped' = grouped :=
      (hscreened.family first hfirst).symm.trans (h.family first hfirst)
    rw [hbuild, h.build_eq]
  · exact absurd ⟨h.family, h.nonempty, h.distinct⟩ (hnot grouped)

end Accepted

/-! ## The masks of a kind -/

theorem ascends_masksOf (records : List Record) (relationship : Relationship) :
    Mask.Ascends (masksOf records relationship) :=
  Mask.ascends_orderedSet _

/-- A mask of a kind is that of a record of the kind. -/
theorem exists_record_of_mem_masksOf {records : List Record} {relationship : Relationship}
    {mask : Mask} (hmask : mask ∈ masksOf records relationship) :
    ∃ r ∈ records, r.relationship = relationship ∧ r.mask = mask := by
  obtain ⟨r, hr, rfl⟩ := List.mem_map.mp (Mask.mem_of_mem_orderedSet hmask)
  obtain ⟨hr, hrel⟩ := List.mem_filter.mp hr
  exact ⟨r, hr, of_decide_eq_true hrel, rfl⟩

/-- A record says something of a cache if it is one of a cache. -/
theorem cache?_eq_some_iff {r : Record} {cache : Mask × Cache} :
    r.cache? = some cache ↔ r.relationship = .cache cache.2 ∧ r.mask = cache.1 := by
  obtain ⟨relationship, mask⟩ := r
  obtain ⟨other, info⟩ := cache
  cases relationship <;> simp [cache?, and_comm]

/-- A cache of the layout is recorded. -/
theorem exists_cache_of_mem_cachesOf {records : List Record} {cache : Mask × Cache}
    (h : cache ∈ cachesOf records) : ∃ r ∈ records, r.cache? = some cache :=
  List.mem_filterMap.mp (List.mem_mergeSort.mp ((withoutRepeats_sublist _).subset h))

/-- A span that is added is of the record's group, and others stay in their groups. -/
theorem mem_addSpan {id : Nat} {bits : BitVec 64} {spans : List (Nat × BitVec 64)}
    {span : Nat × BitVec 64} (hspan : span ∈ addSpan id bits spans) :
    span.1 = id ∨ ∃ other ∈ spans, other.1 = span.1 := by
  induction spans with
  | nil =>
    cases List.mem_singleton.mp hspan
    exact .inl rfl
  | cons first rest ih =>
    rw [addSpan] at hspan
    split at hspan
    · rcases List.mem_cons.mp hspan with rfl | hspan
      · exact .inl rfl
      · exact .inr ⟨span, hspan, rfl⟩
    · split at hspan
      · rcases List.mem_cons.mp hspan with rfl | hspan
        · exact .inr ⟨first, List.mem_cons_self, rfl⟩
        · exact .inr ⟨span, List.mem_cons_of_mem first hspan, rfl⟩
      · rcases List.mem_cons.mp hspan with rfl | hspan
        · exact .inr ⟨first, List.mem_cons_self, rfl⟩
        · rcases ih hspan with hid | ⟨other, hother, hsame⟩
          · exact .inl hid
          · exact .inr ⟨other, List.mem_cons_of_mem first hother, hsame⟩

/-- Adding to the span of a group keeps the groups in ascending order. -/
theorem pairwise_addSpan (id : Nat) (bits : BitVec 64) {spans : List (Nat × BitVec 64)}
    (h : spans.Pairwise fun a b => a.1 < b.1) :
    (addSpan id bits spans).Pairwise fun a b => a.1 < b.1 := by
  induction spans with
  | nil => exact List.pairwise_singleton _ _
  | cons first rest ih =>
    obtain ⟨hfirst, hrest⟩ := List.pairwise_cons.mp h
    rw [addSpan]
    split
    · next hlt =>
      refine List.pairwise_cons.mpr ⟨fun span hspan => ?_, h⟩
      rcases List.mem_cons.mp hspan with rfl | hspan
      · exact hlt
      · exact Nat.lt_trans hlt (hfirst span hspan)
    · split
      · exact List.pairwise_cons.mpr ⟨hfirst, hrest⟩
      · next hnlt hne =>
        refine List.pairwise_cons.mpr ⟨fun span hspan => ?_, ih hrest⟩
        rcases mem_addSpan hspan with hid | ⟨other, hother, hsame⟩
        · exact hid ▸ Nat.lt_of_le_of_ne (Nat.le_of_not_lt hnlt) (Ne.symm hne)
        · exact hsame ▸ hfirst other hother

/-- The spans of the groups ascend. -/
theorem ascends_groupSpans (records : List Record) : Mask.Ascends (groupSpans records) := by
  refine List.pairwise_map.mpr (List.Pairwise.imp (R := fun a b => a.1 < b.1)
    (fun {a b} hlt => ?_) (List.foldlRecOn records _ List.Pairwise.nil fun spans h r _ => ?_))
  · simp [Nat.compare_eq_lt.mpr hlt]
  · obtain ⟨relationship, mask⟩ := r
    cases mask with
    | bitset length bits => exact h
    | group id bits => exact pairwise_addSpan id bits h

/-- The masks of the groups ascend. -/
theorem ascends_groupMasks (grouped : Bool) (records : List Record) :
    Mask.Ascends (groupMasks grouped records) := by
  rw [groupMasks]
  split
  · exact ascends_groupSpans records
  · exact ascends_masksOf records .group

/-! ## The parts of accepted records -/

theorem length_slots_parts (grouped : Bool) (records : List Record) (coverage : Coverage) :
    (parts grouped records coverage).slots.length = (numbering grouped records).total :=
  coverage.length_slots _

namespace Accepted

open CpuNumbering (ownerAt)

variable {records : List Record} {grouped : Bool} {coverage : Coverage}

/-- No mask in accepted records is empty. -/
theorem nonempty_masksOf (h : Accepted records grouped coverage) {relationship : Relationship}
    {mask : Mask} (hmask : mask ∈ masksOf records relationship) : mask.isEmpty = false := by
  obtain ⟨r, hr, -, rfl⟩ := exists_record_of_mem_masksOf hmask
  exact h.nonempty r hr

/-- The masks in accepted records are all of one family. -/
theorem isGroup_masksOf (h : Accepted records grouped coverage) {relationship : Relationship}
    {mask : Mask} (hmask : mask ∈ masksOf records relationship) : mask.isGroup = grouped := by
  obtain ⟨r, hr, -, rfl⟩ := exists_record_of_mem_masksOf hmask
  exact h.family r hr

/-- A kind that covers every CPU divides the parts. -/
theorem divides_of_settles {masks : List Mask} {owners : List (Option Nat)}
    {owner? : Slot → Option Nat}
    (settles : (numbering grouped records).Settles masks owners) (hascends : Mask.Ascends masks)
    (hnonempty : ∀ mask ∈ masks, mask.isEmpty = false)
    (hcovered : ∀ cpu < (numbering grouped records).total, ∃ id, ownerAt owners cpu = some id)
    (hslot : ∀ cpu id, ownerAt owners cpu = some id → owner? (coverage.slotAt cpu) = some id) :
    (parts grouped records coverage).Divides owner? masks := by
  refine settles.divides rfl hascends hnonempty (fun cpu => ?_) (fun cpu hcpu => ?_)
  · by_cases hcpu : cpu < (numbering grouped records).total
    · obtain ⟨id, hid⟩ := hcovered cpu hcpu
      rw [hid, Parts.ownerOf?_eq_some_iff]
      exact ⟨_, Coverage.getElem?_slots.mpr ⟨hcpu, rfl⟩, hslot cpu id hid⟩
    · have hslots : (parts grouped records coverage).slots[cpu]? = none :=
        List.getElem?_eq_none (by rw [length_slots_parts]; omega)
      rw [Parts.ownerOf?, hslots, Option.bind_none]
      cases hid : ownerAt owners cpu with
      | none => rfl
      | some id => exact absurd (settles.exists_mask hid).1 hcpu
  · exact hcovered cpu (length_slots_parts grouped records coverage ▸ hcpu)

/-- Where a kind has no masks, no slot names any. -/
theorem owner_eq_none {masks : List Mask} {owners : List (Option Nat)}
    {owner? : Slot → Option Nat} (settles : (numbering grouped records).Settles masks owners)
    (hslots : ∀ cpu, owner? (coverage.slotAt cpu) = ownerAt owners cpu) (hnil : masks = []) :
    ∀ slot ∈ (parts grouped records coverage).slots, owner? slot = none := by
  intro slot hslot
  obtain ⟨cpu, hcpu⟩ := List.mem_iff_getElem?.mp hslot
  obtain ⟨-, rfl⟩ := Coverage.getElem?_slots.mp hcpu
  refine Option.eq_none_iff_forall_ne_some.mpr fun id hid => ?_
  obtain ⟨-, mask, hmask⟩ := settles.exists_mask ((hslots cpu).symm.trans hid)
  simp [hnil] at hmask

/-- The CPUs are divided among the cores. -/
theorem divides_cores (h : Accepted records grouped coverage) :
    (parts grouped records coverage).Divides (some ·.core) (masksOf records .core) :=
  divides_of_settles (CpuNumbering.assign_settles h.cores) (ascends_masksOf records .core)
    (fun _ hmask => h.nonempty_masksOf hmask)
    (fun _ hcpu => (Coverage.covered_of_gap? h.covered hcpu).1)
    (fun cpu id hid => by rw [Coverage.slotAt, hid, Option.getD_some])

/-- The CPUs are divided among the sockets. -/
theorem divides_sockets (h : Accepted records grouped coverage) :
    (parts grouped records coverage).Divides (some ·.socket) (masksOf records .package) :=
  divides_of_settles (CpuNumbering.assign_settles h.packages) (ascends_masksOf records .package)
    (fun _ hmask => h.nonempty_masksOf hmask)
    (fun _ hcpu => (Coverage.covered_of_gap? h.covered hcpu).2.1)
    (fun cpu id hid => by rw [Coverage.slotAt, hid, Option.getD_some])

/-- The CPUs are divided among the nodes, if there are any. -/
theorem divides_nodes (h : Accepted records grouped coverage)
    (hnodes : masksOf records .node ≠ []) :
    (parts grouped records coverage).Divides (·.node) (masksOf records .node) :=
  divides_of_settles (CpuNumbering.assign_settles h.nodes) (ascends_masksOf records .node)
    (fun _ hmask => h.nonempty_masksOf hmask)
    (fun _ hcpu => (Coverage.covered_of_gap? h.covered hcpu).2.2.1 (by simpa using hnodes))
    (fun _ _ hid => hid)

/-- A CPU stands among the CPUs of its core where its rank says. -/
theorem getElem?_cpusOf_core (h : Accepted records grouped coverage) {cpu : Nat} {slot : Slot}
    {core : Mask} (hslot : (parts grouped records coverage).slots[cpu]? = some slot)
    (hcore : (masksOf records .core)[slot.core]? = some core) :
    ((parts grouped records coverage).layout.cpusOf core)[
      (((parts grouped records coverage).slots.map (·.core)).take cpu).count slot.core]? =
      some cpu := by
  refine getElem?_rank (Layout.pairwise_cpusOf _ _) (fun other => ?_) ?_
  · rw [h.divides_cores.mem_cpusOf_iff hcore, Parts.ownerOf?, List.getElem?_map,
      Option.map_eq_bind]
    rfl
  · rw [List.getElem?_map, hslot, Option.map_some]

/-- The descriptor of a CPU names its socket and its core and counts it among the CPUs of the
core. -/
theorem getElem?_descriptors {cpu : Nat} {slot : Slot}
    (hslot : (parts grouped records coverage).slots[cpu]? = some slot) :
    (parts grouped records coverage).descriptors[cpu]? = some (Layout.describe slot
      ((((parts grouped records coverage).slots.map (·.core)).take cpu).count slot.core)) :=
  (List.getElem?_map ..).trans
    (Option.map_eq_some_iff.mpr ⟨_, getElem?_zip_threadRanks hslot, rfl⟩)

/-- What the descriptors say of entities is read off the slots. -/
theorem map_descriptors {α : Type} {named : Descriptor → α} {entity : Slot → α}
    (h : ∀ slot thread, named (Layout.describe slot thread) = entity slot) :
    (parts grouped records coverage).descriptors.map named =
      (parts grouped records coverage).slots.map entity := by
  let p := parts grouped records coverage
  have hlength : p.slots.length ≤ (Layout.threadRanks (p.slots.map (·.core))).length := by
    simp [Layout.threadRanks]
  have hfst := congrArg (List.map entity) (List.map_fst_zip hlength)
  rw [List.map_map] at hfst
  refine Eq.trans ?_ hfst
  exact (List.map_map ..).trans (List.map_congr_left fun pair _ => h pair.1 pair.2)

/-- On a grouped machine a CPU's own mask is one position of its core's mask, and the CPU is the one
at that position of the group. -/
theorem exists_bit (h : Accepted records true coverage) {cpu : Nat} {slot : Slot}
    (hslot : (parts true records coverage).slots[cpu]? = some slot) :
    ∃ id bits base bit, (masksOf records .core)[slot.core]? = some (.group id bits) ∧
      (numbering true records).bases.lookup id = some base ∧ base + bit = cpu ∧
      (Mask.group id bits).test bit = true ∧
      (parts true records coverage).cpuMasks[cpu]? = some (Mask.groupSingle id bit) := by
  obtain ⟨core, mask, hcore, hmask, hmem⟩ := h.divides_cores.owner hslot
  cases Option.some.inj hcore
  cases mask with
  -- a mask of a grouped machine has a group
  | bitset length bits => cases h.isGroup_masksOf (List.mem_of_getElem? hmask)
  | group id bits =>
    -- the rank of the CPU in its core is the rank of its position in the mask of the core
    obtain ⟨base, hbase⟩ := Layout.exists_base_of_mem_cpusOf hmem
    have hrank := h.getElem?_cpusOf_core hslot hmask
    rw [Layout.cpusOf_group hbase, List.getElem?_map] at hrank
    obtain ⟨bit, hbit, hsum⟩ := Option.map_eq_some_iff.mp hrank
    refine ⟨id, bits, base, bit, hmask, hbase, hsum, ?_, ?_⟩
    · exact Mask.mem_indices.mp (List.mem_of_getElem? hbit)
    · have hmade : Layout.threadMask ((masksOf records .core)[slot.core]?.getD (Mask.empty 0))
          ((((parts true records coverage).slots.map (·.core)).take cpu).count slot.core) =
          Mask.groupSingle id bit := by
        rw [hmask, Option.getD_some, Layout.threadMask, hbit]
        rfl
      exact (List.getElem?_map ..).trans
        (Option.map_eq_some_iff.mpr ⟨_, getElem?_zip_threadRanks hslot, hmade⟩)

/-- The parts of accepted records are tiled. -/
theorem tiled (h : Accepted records grouped coverage) :
    (parts grouped records coverage).Tiled := by
  have hzip : ∀ slots : List Slot,
      (slots.zip (Layout.threadRanks (slots.map (·.core)))).length = slots.length := by
    intro slots
    simp [Layout.threadRanks]
  have hlength : (parts grouped records coverage).slots.length =
      (parts grouped records coverage).descriptors.length :=
    ((List.length_map _).trans (hzip _)).symm
  cases grouped with
  | false =>
    refine .of_bitsets hlength ?_ (fun core hcore => h.isGroup_masksOf hcore)
      (ascends_groupMasks false records) h.divides_nodes h.divides_sockets h.divides_cores
    rw [length_slots_parts]
    rfl
  | true =>
    -- with groups the mask of a CPU is cut out of the mask of its core
    refine ⟨hlength, ascends_groupMasks true records, h.divides_nodes, h.divides_sockets,
      h.divides_cores, fun {cpu id slot mask} hslot hid hmask => ?_, fun {mask cpu} hcontains => ?_⟩
    · cases Option.some.inj hid
      obtain ⟨id, bits, base, bit, hcore, -, -, htest, hsingle⟩ := h.exists_bit hslot
      cases Option.some.inj (hmask.symm.trans hcore)
      exact (Layout.maskContains_group (Mask.lt_width_of_test htest) hsingle).mpr ⟨rfl, htest⟩
    · have hcpu : cpu < (parts true records coverage).slots.length := by
        obtain ⟨single, hsingle, -⟩ := Layout.maskContains_iff.mp hcontains
        have hlt := (List.getElem?_eq_some_iff.mp hsingle).1
        exact ((List.length_map _).trans (hzip _)) ▸ hlt
      obtain ⟨id, bits, base, bit, -, hbase, hsum, htest, hsingle⟩ :=
        h.exists_bit (List.getElem?_eq_getElem hcpu)
      obtain ⟨hid, hbit⟩ :=
        (Layout.maskContains_group (Mask.lt_width_of_test htest) hsingle).mp hcontains
      cases mask with
      | bitset length bits => cases hid
      | group other bits =>
        cases Option.some.inj hid
        rw [Layout.cpusOf_group hbase]
        exact List.mem_map.mpr ⟨bit, Mask.mem_indices.mpr hbit, hsum⟩

end Accepted

/-- A layout of records is assembled from tiled parts. -/
theorem exists_tiled_of_ofRecords {records : List Record} {l : Layout}
    (h : Layout.ofRecords records = .ok l) : ∃ p : Parts, p.Tiled ∧ p.assemble = .ok l := by
  obtain ⟨grouped, coverage, haccepted, hassemble⟩ := exists_accepted_of_ofRecords h
  exact ⟨_, haccepted.tiled, hassemble⟩

end Record

end CpuPlacement
