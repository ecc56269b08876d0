import CpuPlacement.Proofs.Layout.CpuSets
import CpuPlacement.Proofs.Layout.Hierarchy
import CpuPlacement.Proofs.Layout.Numbering

/-!
# Which records of bit-sets are consistent

Records of bit-sets make a layout exactly if the recorded cores and the recorded packages each
divide the CPUs up to the highest one, the nodes and the groups too if there are any, every core is
inside a package, every package inside a node if there are any, and the counts fit
(`Record.Consistent`). Groups are only divided: nothing has to lie inside a group here. The thread
id of a CPU is the number of CPUs below it in its core.
-/

set_option autoImplicit false

namespace CpuPlacement

namespace Record

/-! ## Consistent records -/

/-- No two of the sets share a CPU, and together they have the CPUs below the total. -/
structure Partition (sets : Finset (Finset Nat)) (total : Nat) : Prop where
  disjoint : (sets : Set (Finset Nat)).PairwiseDisjoint id
  union : sets.sup id = Finset.range total

/-- The CPUs of the largest core. -/
def largestCore (records : List Record) : Nat :=
  (cpuSets records .core).sup Finset.card

/-- There is a machine, and the masks of each kind divide its CPUs. -/
structure Divided (records : List Record) : Prop where
  machine : ∃ r ∈ records, r.relationship = .package ∨ r.relationship = .core
  nonempty : ∀ r ∈ records, r.mask.cpuSet.Nonempty
  cores : Partition (cpuSets records .core) (reach records)
  packages : Partition (cpuSets records .package) (reach records)
  nodes : cpuSets records .node = ∅ ∨ Partition (cpuSets records .node) (reach records)
  groups : cpuSets records .group = ∅ ∨ Partition (cpuSets records .group) (reach records)

/-- Every core is inside a package, and every package inside a node if there are any. -/
structure Nested (records : List Record) : Prop where
  core_inside : ∀ core ∈ cpuSets records .core, ∃ package ∈ cpuSets records .package, core ⊆ package
  package_inside : cpuSets records .node ≠ ∅ →
    ∀ package ∈ cpuSets records .package, ∃ node ∈ cpuSets records .node, package ⊆ node

/-- The CPUs fill a grid, if all packages have as many cores as they have on average and all cores
as many CPUs as the largest. -/
def FillsGrid (records : List Record) : Prop :=
  reach records = (cpuSets records .package).card *
    ((cpuSets records .core).card / (cpuSets records .package).card) * largestCore records

/-- The records describe a machine. -/
structure Consistent (records : List Record) : Prop extends Divided records, Nested records where
  fillsGrid : FillsGrid records

/-! ## Kinds that divide the CPUs -/

variable {records : List Record} {kind : Relationship}

namespace Partition

variable {sets : Finset (Finset Nat)} {total : Nat}

/-- What is partitioned are the CPUs below the total, no more and no fewer. -/
theorem lt_iff (h : Partition sets total) {cpu : Nat} :
    cpu < total ↔ ∃ cpus ∈ sets, cpu ∈ cpus := by
  rw [← Finset.mem_range, ← h.union, Finset.mem_sup]
  rfl

end Partition

/-- Records that divide a machine are about a CPU at least. -/
theorem Divided.reach_pos (h : Divided records) : 0 < reach records := by
  obtain ⟨r, hr, hkind⟩ := h.machine
  obtain ⟨cpu, hcpu⟩ := h.nonempty r hr
  refine lt_reach_iff.mpr ⟨r.mask.cpuSet, Finset.mem_union.mpr ?_, cpu, hcpu, Nat.zero_le cpu⟩
  exact hkind.imp (fun hkind => mem_cpuSets.mpr ⟨r, hr, hkind, rfl⟩)
    fun hkind => mem_cpuSets.mpr ⟨r, hr, hkind, rfl⟩

section Bitsets

variable (hbitsets : ∀ r ∈ records, r.mask.isGroup = false)

include hbitsets

theorem mem_of_mem_masksOf {m : Mask} (hm : m ∈ masksOf records kind) :
    m.cpuSet ∈ cpuSets records kind :=
  (mem_cpuSets_iff hbitsets).mpr ⟨m, hm, rfl⟩

/-- A kind that divides the CPUs, or that there is not, has owners. -/
theorem exists_owners (name : RecordKind)
    (h : cpuSets records kind = ∅ ∨ Partition (cpuSets records kind) (reach records)) :
    ∃ owners, (numbering false records).assign name (masksOf records kind) = .ok owners := by
  rcases h with hnone | hpartition
  · rw [(masksOf_eq_nil_iff hbitsets).mpr hnone]
    exact ⟨_, rfl⟩
  · refine CpuNumbering.exists_assign name (fun _ hm => isGroup_of_mem_masksOf hbitsets hm)
      (fun m hm cpu hcpu => ?_) ?_
    · rw [total_numbering hbitsets, hpartition.lt_iff]
      exact ⟨m.cpuSet, mem_of_mem_masksOf hbitsets hm, hcpu⟩
    · refine (List.pairwise_map.mp (nodup_cpuSet_masksOf hbitsets)).imp_of_mem ?_
      intro a b ha hb hne
      exact hpartition.disjoint (mem_of_mem_masksOf hbitsets ha)
        (mem_of_mem_masksOf hbitsets hb) hne

/-- Where a kind divides the CPUs, every CPU has an owner. -/
theorem exists_owner {name : RecordKind} {owners : List (Option Nat)}
    (howners : (numbering false records).assign name (masksOf records kind) = .ok owners)
    (h : Partition (cpuSets records kind) (reach records)) :
    ∀ cpu < (numbering false records).total, ∃ id, CpuNumbering.ownerAt owners cpu = some id := by
  intro cpu hcpu
  rw [total_numbering hbitsets, h.lt_iff] at hcpu
  obtain ⟨cpus, hcpus, hcpu⟩ := hcpu
  obtain ⟨m, hm, rfl⟩ := (mem_cpuSets_iff hbitsets).mp hcpus
  obtain ⟨id, hid⟩ := List.mem_iff_getElem?.mp hm
  let l := (parts false records ⟨owners, owners, owners, owners⟩).layout
  have hmem : cpu ∈ l.cpusOf m :=
    (Layout.mem_cpusOf_bitset (isGroup_of_mem_masksOf hbitsets hm)).mpr (Mask.mem_cpuSet.mp hcpu)
  exact ⟨id, ((CpuNumbering.assign_settles howners).mem_cpusOf_iff rfl hid cpu).mp hmem⟩

/-- Records that divide the CPUs of a machine pass every check before their parts are assembled. -/
theorem Divided.exists_accepted (h : Divided records) :
    ∃ coverage, Accepted records false coverage := by
  obtain ⟨groups, hgroups⟩ := exists_owners hbitsets .group h.groups
  obtain ⟨nodes, hnodes⟩ := exists_owners hbitsets .node h.nodes
  obtain ⟨packages, hpackages⟩ := exists_owners hbitsets .package (.inr h.packages)
  obtain ⟨cores, hcores⟩ := exists_owners hbitsets .core (.inr h.cores)
  refine ⟨⟨groups, nodes, packages, cores⟩, hbitsets, ?_, nofun, ?_, hgroups, hnodes, hpackages,
    hcores, ?_⟩
  · exact fun r hr => Mask.cpuSet_nonempty_iff.mp (h.nonempty r hr)
  · rw [total_numbering hbitsets]
    exact h.reach_pos.ne'
  · refine Coverage.gap?_eq_none (exists_owner hbitsets hcores h.cores)
      (exists_owner hbitsets hpackages h.packages) (fun hsome => ?_) (fun hsome => ?_)
    · refine exists_owner hbitsets hnodes (h.nodes.resolve_left fun hnone => ?_)
      simp [(masksOf_eq_nil_iff hbitsets).mpr hnone] at hsome
    · refine exists_owner hbitsets hgroups (h.groups.resolve_left fun hnone => ?_)
      simp [groupMasks, (masksOf_eq_nil_iff hbitsets).mpr hnone] at hsome

end Bitsets

namespace Accepted

variable {coverage : Coverage}

/-- The sets of a kind that divides the parts are a partition of the CPUs. -/
theorem partition (h : Accepted records false coverage) {owner? : Slot → Option Nat}
    (hdivides : (parts false records coverage).Divides owner? (masksOf records kind)) :
    Partition (cpuSets records kind) (reach records) := by
  have howned : ∀ {id : Nat} {m : Mask}, (masksOf records kind)[id]? = some m → ∀ cpu,
      cpu ∈ m.cpuSet ↔ (parts false records coverage).ownerOf? owner? cpu = some id := by
    intro id m hm cpu
    have hbitset := isGroup_of_mem_masksOf h.family (List.mem_of_getElem? hm)
    rw [← hdivides.mem_cpusOf_iff hm, Mask.mem_cpuSet, Layout.mem_cpusOf_bitset hbitset]
  refine ⟨fun a ha b hb hne => Finset.disjoint_left.mpr fun cpu hcpu hcpu' => hne ?_,
    Finset.ext fun cpu => ?_⟩
  · obtain ⟨m, hm, rfl⟩ := (mem_cpuSets_iff h.family).mp ha
    obtain ⟨m', hm', rfl⟩ := (mem_cpuSets_iff h.family).mp hb
    obtain ⟨id, hid⟩ := List.mem_iff_getElem?.mp hm
    obtain ⟨id', hid'⟩ := List.mem_iff_getElem?.mp hm'
    cases ((howned hid cpu).mp hcpu).symm.trans ((howned hid' cpu).mp hcpu')
    cases Option.some.inj (hid.symm.trans hid')
    rfl
  · rw [Finset.mem_sup, Finset.mem_range, ← total_numbering h.family,
      ← length_slots_parts false records coverage]
    constructor
    · rintro ⟨cpus, hcpus, hcpu⟩
      obtain ⟨m, hm, rfl⟩ := (mem_cpuSets_iff h.family).mp hcpus
      obtain ⟨id, hid⟩ := List.mem_iff_getElem?.mp hm
      obtain ⟨slot, hslot, -⟩ := Parts.ownerOf?_eq_some_iff.mp ((howned hid cpu).mp hcpu)
      exact (List.getElem?_eq_some_iff.mp hslot).1
    · intro hlt
      have hslot := List.getElem?_eq_getElem hlt
      obtain ⟨id, m, hid, hm, -⟩ := hdivides.owner hslot
      exact ⟨m.cpuSet, mem_of_mem_masksOf h.family (List.mem_of_getElem? hm),
        (howned hm cpu).mpr (Parts.ownerOf?_eq_some_iff.mpr ⟨_, hslot, hid⟩)⟩

/-- Records that have passed every check divide the CPUs of a machine. -/
theorem divided (h : Accepted records false coverage) : Divided records where
  machine := by
    have hpos : 0 < reach records := by
      rw [← total_numbering h.family]
      exact Nat.pos_of_ne_zero h.populated
    obtain ⟨cpus, hcpus, -⟩ := lt_reach_iff.mp hpos
    rcases Finset.mem_union.mp hcpus with hcpus | hcpus
    · obtain ⟨r, hr, hkind, -⟩ := mem_cpuSets.mp hcpus
      exact ⟨r, hr, .inl hkind⟩
    · obtain ⟨r, hr, hkind, -⟩ := mem_cpuSets.mp hcpus
      exact ⟨r, hr, .inr hkind⟩
  nonempty := fun r hr => Mask.cpuSet_nonempty_iff.mpr (h.nonempty r hr)
  cores := h.partition h.divides_cores
  packages := h.partition h.divides_sockets
  nodes := by
    by_cases hnodes : masksOf records .node = []
    · exact .inl ((masksOf_eq_nil_iff h.family).mp hnodes)
    · exact .inr (h.partition (h.divides_nodes hnodes))
  groups := by
    by_cases hgroups : masksOf records .group = []
    · exact .inl ((masksOf_eq_nil_iff h.family).mp hgroups)
    · exact .inr (h.partition (h.divides_groups hgroups))

/-! ## The checks of the assembly -/

theorem length_descriptors (h : Accepted records false coverage) :
    (parts false records coverage).descriptors.length = reach records := by
  rw [← h.tiled.slots_length, length_slots_parts, total_numbering h.family]

/-- The thread id of a CPU is its place in its core, which is how many CPUs of the core are below
it. -/
theorem exists_thread (h : Accepted records false coverage) {core : Mask}
    (hcore : core ∈ masksOf records .core) {cpu : Nat} (hcpu : cpu ∈ core.cpuSet) :
    ∃ d, (parts false records coverage).descriptors[cpu]? = some d ∧
      core.indices[d.threadId]? = some cpu ∧
      d.threadId = (core.cpuSet.filter (· < cpu)).card := by
  let p := parts false records coverage
  have hbitset := isGroup_of_mem_masksOf h.family hcore
  have hcpus : p.layout.cpusOf core = core.indices := by
    cases core with
    | group => cases hbitset
    | bitset => rfl
  obtain ⟨id, hid⟩ := List.mem_iff_getElem?.mp hcore
  have howned : ∀ other, other ∈ core.cpuSet ↔ (p.slots.map (·.core))[other]? = some id := by
    intro other
    rw [Mask.mem_cpuSet, ← Layout.mem_cpusOf_bitset hbitset, h.divides_cores.mem_cpusOf_iff hid,
      Parts.ownerOf?, List.getElem?_map, Option.map_eq_bind]
    rfl
  have hkey := (howned cpu).mp hcpu
  rw [List.getElem?_map] at hkey
  obtain ⟨slot, hslot, rfl⟩ := Option.map_eq_some_iff.mp hkey
  refine ⟨_, getElem?_descriptors hslot, hcpus ▸ h.getElem?_cpusOf_core hslot hid, ?_⟩
  -- the CPUs of the core below this one are those with its core in the slots before
  have hbelow : core.cpuSet.filter (· < cpu) = ((List.range cpu).filter fun other =>
      (p.slots.map (·.core))[other]? == some slot.core).toFinset := by
    ext other
    rw [Finset.mem_filter, howned, List.mem_toFinset, List.mem_filter, List.mem_range, beq_iff_eq,
      and_comm]
  rw [hbelow, List.toFinset_card_of_nodup (List.nodup_range.filter _)]
  exact count_take (p.slots.map (·.core)) slot.core cpu

/-- A CPU is in a core. -/
theorem exists_core (h : Accepted records false coverage) {cpu : Nat}
    (hcpu : cpu < reach records) : ∃ core ∈ masksOf records .core, cpu ∈ core.cpuSet := by
  obtain ⟨cpus, hcpus, hcpu⟩ := h.divided.cores.lt_iff.mp hcpu
  obtain ⟨core, hcore, rfl⟩ := (mem_cpuSets_iff h.family).mp hcpus
  exact ⟨core, hcore, hcpu⟩

/-- The thread ids are those below the number of CPUs of the largest core. -/
theorem mem_threadIds (h : Accepted records false coverage) (thread : Nat) :
    thread ∈ (parts false records coverage).descriptors.map (·.threadId) ↔
      thread < largestCore records := by
  rw [largestCore, Finset.lt_sup_iff]
  constructor
  · intro hthread
    obtain ⟨d, hd, rfl⟩ := List.mem_map.mp hthread
    obtain ⟨cpu, hd⟩ := List.mem_iff_getElem?.mp hd
    have hlt := (List.getElem?_eq_some_iff.mp hd).1
    rw [h.length_descriptors] at hlt
    obtain ⟨core, hcore, hcpu⟩ := h.exists_core hlt
    obtain ⟨_, hd', hplace, -⟩ := h.exists_thread hcore hcpu
    cases Option.some.inj (hd.symm.trans hd')
    refine ⟨core.cpuSet, mem_of_mem_masksOf h.family hcore, ?_⟩
    rw [Mask.card_cpuSet]
    exact (List.getElem?_eq_some_iff.mp hplace).1
  -- a core with more CPUs than the id has one at that place
  · rintro ⟨cpus, hcpus, hlt⟩
    obtain ⟨core, hcore, rfl⟩ := (mem_cpuSets_iff h.family).mp hcpus
    rw [Mask.card_cpuSet] at hlt
    obtain ⟨d, hd, hplace, -⟩ :=
      h.exists_thread hcore (List.mem_toFinset.mpr (List.getElem_mem hlt))
    have hsame : thread = d.threadId :=
      (List.getElem?_inj hlt (Mask.pairwise_indices core).nodup).mp
        ((List.getElem?_eq_getElem hlt).trans hplace.symm)
    exact List.mem_map.mpr ⟨d, List.mem_of_getElem? hd, hsame.symm⟩

/-- The check of the counts is the equation of the counts of sets. -/
theorem fillsGrid_iff (h : Accepted records false coverage) :
    (parts false records coverage).fillsGrid = true ↔ FillsGrid records := by
  have hsockets : (parts false records coverage).socketCount = (cpuSets records .package).card :=
    length_masksOf h.family
  have hcores : (parts false records coverage).coreMasks.length = (cpuSets records .core).card :=
    length_masksOf h.family
  have hthreads : (parts false records coverage).threadsPerCore = largestCore records := by
    have hids : ((parts false records coverage).descriptors.map (·.threadId)).toFinset =
        Finset.range (largestCore records) := by
      ext thread
      rw [List.mem_toFinset, h.mem_threadIds, Finset.mem_range]
    rw [Parts.threadsPerCore, Numbering.length_classes, hids, Finset.card_range]
  have hpos : 0 < (cpuSets records .package).card := by
    obtain ⟨package, hpackage, -⟩ := h.divided.packages.lt_iff.mp h.divided.reach_pos
    exact Finset.card_pos.mpr ⟨package, hpackage⟩
  rw [Parts.fillsGrid, beq_iff_eq, h.length_descriptors, Parts.coresPerSocket, hsockets, hcores,
    hthreads, Nat.max_eq_left hpos]
  rfl

/-- Where the masks of a kind lie in those of another, CPUs that share a mask of the one share a
mask of the other. -/
theorem outer_eq_of_inner_eq (h : Accepted records false coverage) {inner outer : Relationship}
    {inner? outer? : Slot → Option Nat}
    (hinner : (parts false records coverage).Divides inner? (masksOf records inner))
    (houter : (parts false records coverage).Divides outer? (masksOf records outer))
    (hinside : ∀ cpus ∈ cpuSets records inner, ∃ around ∈ cpuSets records outer, cpus ⊆ around) :
    ∀ a ∈ (parts false records coverage).slots, ∀ b ∈ (parts false records coverage).slots,
      inner? a = inner? b → outer? a = outer? b := by
  let p := parts false records coverage
  have hmem : ∀ {kind : Relationship} {m : Mask}, m ∈ masksOf records kind → ∀ cpu,
      cpu ∈ p.layout.cpusOf m ↔ cpu ∈ m.cpuSet := fun hm cpu => by
    rw [Mask.mem_cpuSet, Layout.mem_cpusOf_bitset (isGroup_of_mem_masksOf h.family hm)]
  intro a ha b hb hsame
  obtain ⟨cpu, hslot⟩ := List.mem_iff_getElem?.mp ha
  obtain ⟨other, hother⟩ := List.mem_iff_getElem?.mp hb
  obtain ⟨id, m, hid, hm, hcpu⟩ := hinner.owner hslot
  have hmask := List.mem_of_getElem? hm
  have hcpu' : other ∈ p.layout.cpusOf m :=
    (hinner.mem_cpusOf_iff hm other).mpr
      (Parts.ownerOf?_eq_some_iff.mpr ⟨b, hother, hsame.symm.trans hid⟩)
  -- both CPUs lie in one set of the inner kind, hence in one of the outer kind
  obtain ⟨around, haround, hsub⟩ := hinside m.cpuSet (mem_of_mem_masksOf h.family hmask)
  obtain ⟨m', hm', rfl⟩ := (mem_cpuSets_iff h.family).mp haround
  obtain ⟨id', hid'⟩ := List.mem_iff_getElem?.mp hm'
  have howner : ∀ {cpu : Nat} {slot : Slot}, p.slots[cpu]? = some slot →
      cpu ∈ p.layout.cpusOf m → outer? slot = some id' := by
    intro cpu slot hslot hcpu
    have hin := (hmem hm' cpu).mpr (hsub ((hmem hmask cpu).mp hcpu))
    obtain ⟨slot', hslot', hnamed⟩ :=
      Parts.ownerOf?_eq_some_iff.mp ((houter.mem_cpusOf_iff hid' cpu).mp hin)
    cases Option.some.inj (hslot.symm.trans hslot')
    exact hnamed
  rw [howner hslot hcpu, howner hother hcpu']

/-- A mask of one kind that lies inside a mask of another is a set inside a set. -/
theorem exists_around (h : Accepted records false coverage) {inner outer : Relationship}
    (hinside : ∀ m ∈ masksOf records inner, ∃ around ∈ masksOf records outer,
      m.subset around = true) :
    ∀ cpus ∈ cpuSets records inner, ∃ around ∈ cpuSets records outer, cpus ⊆ around := by
  intro cpus hcpus
  obtain ⟨m, hm, rfl⟩ := (mem_cpuSets_iff h.family).mp hcpus
  obtain ⟨around, haround, hsub⟩ := hinside m hm
  exact ⟨around.cpuSet, mem_of_mem_masksOf h.family haround,
    (Mask.subset_iff_cpuSet (isGroup_of_mem_masksOf h.family hm)
      (isGroup_of_mem_masksOf h.family haround)).mp hsub⟩

/-- The checks of containment pass if the sets are nested. -/
theorem misplacement?_eq_none_iff (h : Accepted records false coverage) :
    (parts false records coverage).layout.misplacement? = none ↔ Nested records := by
  constructor
  · intro hfits
    refine ⟨h.exists_around fun core hcore => ?_,
      fun hnodes => h.exists_around fun package hpackage => ?_⟩
    · obtain ⟨id, hid⟩ := List.mem_iff_getElem?.mp hcore
      obtain ⟨_, package, -, hpackage, hsub, -⟩ := h.tiled.core_in_socket hfits hid
      exact ⟨package, List.mem_of_getElem? hpackage, hsub⟩
    · have hsome : masksOf records .node ≠ [] :=
        fun hnil => hnodes ((masksOf_eq_nil_iff h.family).mp hnil)
      obtain ⟨id, hid⟩ := List.mem_iff_getElem?.mp hpackage
      obtain ⟨_, node, -, hnode, hsub, -⟩ := h.tiled.socket_in_node hfits hsome hid
      exact ⟨node, List.mem_of_getElem? hnode, hsub⟩
  · intro hnested
    refine h.tiled.misplacement?_eq_none ?_ ?_ (fun a ha b hb hsame => ?_) fun a ha b hb hsame => ?_
    · rw [length_slots_parts]
      rfl
    · intro m hm
      simp only [List.mem_append, or_assoc] at hm
      rcases hm with hm | hm | hm <;> exact isGroup_of_mem_masksOf h.family hm
    · exact Option.some.inj (h.outer_eq_of_inner_eq h.divides_cores h.divides_sockets
        hnested.core_inside a ha b hb (congrArg some hsame))
    · by_cases hnodes : masksOf records .node = []
      · have hnone : ∀ slot ∈ (parts false records coverage).slots, slot.node = none :=
          owner_eq_none (CpuNumbering.assign_settles h.nodes) (fun _ => rfl) hnodes
        rw [hnone a ha, hnone b hb]
      · have hsome : cpuSets records .node ≠ ∅ :=
          fun hnone => hnodes ((masksOf_eq_nil_iff h.family).mpr hnone)
        exact h.outer_eq_of_inner_eq h.divides_sockets (h.divides_nodes hnodes)
          (hnested.package_inside hsome) a ha b hb (congrArg some hsame)

end Accepted

end Record

/-- Records of bit-sets make a layout exactly if they are consistent. The layout has the CPUs up to
the highest one of a package or a core, and the thread id of each is how many CPUs of its core are
below it. -/
theorem ofRecords_consistent {records : List Record}
    (hbitsets : ∀ r ∈ records, r.mask.isGroup = false) :
    ((∃ l, Layout.ofRecords records = .ok l) ↔ Record.Consistent records) ∧
      ∀ l, Layout.ofRecords records = .ok l → l.cpus = Record.reach records ∧
        ∀ cpu < l.cpus, ∃ core ∈ Record.cpuSets records .core, cpu ∈ core ∧
          ∃ d, l.descriptor cpu = .ok d ∧ d.threadId = (core.filter (· < cpu)).card := by
  refine ⟨⟨?_, fun hconsistent => ?_⟩, fun l h => ?_⟩
  · rintro ⟨l, h⟩
    obtain ⟨coverage, haccepted, hassemble⟩ := Record.exists_accepted_of_family hbitsets h
    obtain ⟨hgrid, hfits, -⟩ := Parts.assemble_eq_ok_iff.mp hassemble
    exact ⟨haccepted.divided, haccepted.misplacement?_eq_none_iff.mp hfits,
      haccepted.fillsGrid_iff.mp hgrid⟩
  · obtain ⟨coverage, haccepted⟩ := hconsistent.toDivided.exists_accepted hbitsets
    refine ⟨_, haccepted.ofRecords_eq.trans (Parts.assemble_eq_ok_iff.mpr ⟨?_, ?_, rfl⟩)⟩
    · exact haccepted.fillsGrid_iff.mpr hconsistent.fillsGrid
    · exact haccepted.misplacement?_eq_none_iff.mpr hconsistent.toNested
  · obtain ⟨coverage, haccepted, hassemble⟩ := Record.exists_accepted_of_family hbitsets h
    obtain ⟨-, -, rfl⟩ := Parts.assemble_eq_ok_iff.mp hassemble
    refine ⟨haccepted.length_descriptors, fun cpu hcpu => ?_⟩
    obtain ⟨core, hcore, hmem⟩ := haccepted.exists_core (hcpu.trans_eq haccepted.length_descriptors)
    obtain ⟨d, hd, -, hthread⟩ := haccepted.exists_thread hcore hmem
    exact ⟨core.cpuSet, Record.mem_of_mem_masksOf hbitsets hcore, hmem, d,
      Layout.descriptor_eq_ok_iff.mpr hd, hthread⟩

/-- A node of two packages with a core each, one of the cores twice and in masks of two lengths. -/
def Record.nodeOfTwo : List Record :=
  [⟨.core, Mask.ofIndices 4 [2, 3]⟩, ⟨.core, Mask.ofIndices 2 [0, 1]⟩,
    ⟨.core, Mask.ofIndices 8 [2, 3]⟩, ⟨.package, Mask.ofIndices 4 [2, 3]⟩,
    ⟨.package, Mask.ofIndices 4 [0, 1]⟩, ⟨.node, Mask.ofIndices 4 [0, 1, 2, 3]⟩]

/-- A node with a package of two cores in it. -/
theorem ofRecords_consistent_node_of_two :
    (∀ r ∈ Record.nodeOfTwo, r.mask.isGroup = false) ∧ Record.Consistent Record.nodeOfTwo ∧
      ∃ l, Layout.ofRecords Record.nodeOfTwo = .ok l ∧ l.cpus = Record.reach Record.nodeOfTwo := by
  have hbitsets : ∀ r ∈ Record.nodeOfTwo, r.mask.isGroup = false := by decide
  obtain ⟨l, hl, -⟩ : ∃ l, Layout.ofRecords Record.nodeOfTwo = .ok l ∧
      decide (l.cpus = 4) = true := exists_ok_of_any (by cbv)
  obtain ⟨hiff, hthreads⟩ := ofRecords_consistent hbitsets
  exact ⟨hbitsets, hiff.mp ⟨l, hl⟩, l, hl, (hthreads l hl).1⟩

end CpuPlacement
