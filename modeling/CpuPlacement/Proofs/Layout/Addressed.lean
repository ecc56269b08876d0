import CpuPlacement.Proofs.Layout.Constructed
import CpuPlacement.Proofs.Layout.GroupMembership

/-!
# The mask of a CPU stands for that CPU

A CPU is known by its number on the machine and by a mask of its own. The number counts through all
groups; the mask names a group and a position in it, which was found by counting through the CPUs of
a core. Read back through the bases of the groups, the mask of a CPU gives the number of that CPU
and nothing else (`Layout.Constructed.cpusOf_cpuMask`).

The same holds of the entities that divide the CPUs. Groups are among them: a CPU that a group's
mask selects has the group in its slot (`Layout.Constructed.mem_cpusOf_iff_own`), though its own
mask may be one of another group.
-/

set_option autoImplicit false

namespace CpuPlacement

namespace Mask

/-- A CPU is the only position of its own bit-set. -/
theorem indices_single (length cpu : Nat) : (single length cpu).indices = [cpu] := by
  refine (pairwise_indices _).eq_of_mem_iff (List.pairwise_singleton _ _) ?_
  intro other
  rw [mem_indices, test_single, decide_eq_true_iff, List.mem_singleton]

/-- A position of a group is the only one of its own mask. -/
theorem indices_groupSingle {id bit : Nat} (h : bit < 64) :
    (groupSingle id bit).indices = [bit] := by
  refine (pairwise_indices _).eq_of_mem_iff (List.pairwise_singleton _ _) ?_
  intro other
  rw [mem_indices, test_groupSingle h, decide_eq_true_iff, List.mem_singleton, eq_comm]

end Mask

namespace Layout

variable {l : Layout}

/-- Masks that index the same CPUs as one that has CPUs are read by the same numbering of their
positions. -/
theorem exists_cpuAt {mask : Mask} {cpu : Nat} (hcpu : cpu ∈ l.cpusOf mask) :
    ∃ cpuAt : Nat → Nat, Function.Injective cpuAt ∧
      ∀ other : Mask, other.sameSpace mask = true → l.cpusOf other = other.indices.map cpuAt := by
  cases mask with
  | bitset length bits =>
    refine ⟨id, Function.injective_id, fun other hspace => ?_⟩
    cases other with
    | group id bits => cases hspace
    | bitset length bits => exact (List.map_id _).symm
  | group id bits =>
    obtain ⟨base, hbase⟩ := exists_base_of_mem_cpusOf hcpu
    refine ⟨(base + ·), fun a b hab => Nat.add_left_cancel hab, fun other hspace => ?_⟩
    cases other with
    | bitset length bits => cases hspace
    | group named bits =>
      obtain rfl : named = id := beq_iff_eq.mp hspace
      exact cpusOf_group hbase

/-- Every position that the mask selects is a position of some CPU's own mask. -/
def populates (l : Layout) (mask : Mask) : Bool :=
  mask.indices.all fun bit => l.cpuMasks.any fun single => single.sameSpace mask && single.test bit

/-- A mask is populated if each of its positions is that of a CPU in the same space. -/
theorem populates_iff {mask : Mask} : l.populates mask = true ↔ ∀ bit, mask.test bit = true →
    ∃ cpu single, l.cpuMask cpu = .ok single ∧ single.sameSpace mask = true ∧
      single.test bit = true := by
  unfold populates
  simp only [List.all_eq_true, List.any_eq_true, Mask.mem_indices, Bool.and_eq_true,
    cpuMask_eq_ok_iff]
  constructor
  · intro h bit hbit
    obtain ⟨single, hmem, hin⟩ := h bit hbit
    obtain ⟨cpu, hsingle⟩ := List.mem_iff_getElem?.mp hmem
    exact ⟨cpu, single, hsingle, hin⟩
  · intro h bit hbit
    obtain ⟨cpu, single, hsingle, hin⟩ := h bit hbit
    exact ⟨single, List.mem_of_getElem? hsingle, hin⟩

end Layout

/-! ## Addressed parts -/

namespace Parts

variable {p : Parts}

/-- Tiled parts whose groups divide the CPUs too, if there are any. Each CPU has a mask of its own,
which stands for that CPU alone, and no cache is without positions. -/
structure Addressed (p : Parts) : Prop extends Tiled p where
  groups : p.groupMasks ≠ [] → p.Divides (·.group) p.groupMasks
  cpuMasks_length : p.cpuMasks.length = p.slots.length
  cpusOf_single : ∀ {cpu : Nat} {single : Mask}, p.cpuMasks[cpu]? = some single →
    p.layout.cpusOf single = [cpu]
  caches_nonempty : ∀ cache ∈ p.caches, cache.1.isEmpty = false

/-- With bit-sets the CPUs' own masks stand for them by how they are made. -/
theorem Tiled.addressed_of_bitsets (tiled : p.Tiled)
    (hsingles : p.cpuMasks = (List.range p.slots.length).map (Mask.single p.slots.length))
    (hgroups : p.groupMasks ≠ [] → p.Divides (·.group) p.groupMasks)
    (hcaches : ∀ cache ∈ p.caches, cache.1.isEmpty = false) : p.Addressed where
  toTiled := tiled
  groups := hgroups
  cpuMasks_length := by rw [hsingles, List.length_map, List.length_range]
  cpusOf_single := by
    intro cpu single hsingle
    rw [hsingles, List.getElem?_map] at hsingle
    obtain ⟨index, hindex, rfl⟩ := Option.map_eq_some_iff.mp hsingle
    obtain ⟨hlt, rfl⟩ := List.getElem?_eq_some_iff.mp hindex
    rw [List.getElem_range]
    exact Mask.indices_single _ _
  caches_nonempty := hcaches

/-- What divides the CPUs, for an entity of any kind but caches: the owner that the slots name. -/
theorem Addressed.exists_divides (h : p.Addressed) {kind : EntityKind} (hkind : kind ≠ .cache)
    {e : Entity} (he : e ∈ p.layout.entitiesOf kind) :
    ∃ (owner? : Slot → Option Nat) (masks : List Mask) (role : Mask → EntityRole),
      p.Divides owner? masks ∧ e ∈ number masks role ∧ ∀ cpu, p.layout.entityForCpu? kind cpu =
        (p.ownerOf? owner? cpu).bind fun id => (number masks role)[id]? := by
  have hsome : ∀ {masks : List Mask} {role : Mask → EntityRole}, e ∈ number masks role →
      masks ≠ [] := by
    intro masks role hmem
    exact List.ne_nil_of_mem (List.mem_of_getElem? (mem_number.mp hmem).1)
  cases kind with
  | cache => exact absurd rfl hkind
  | group =>
    replace he : e ∈ number p.groupMasks fun _ => .group := he
    refine ⟨(·.group), p.groupMasks, fun _ => .group, h.groups (hsome he), he, fun cpu => ?_⟩
    rw [ownerOf?, Option.bind_assoc]
    rfl
  | node =>
    replace he : e ∈ number p.nodeMasks fun _ => .node := he
    refine ⟨(·.node), p.nodeMasks, fun _ => .node, h.nodes (hsome he), he, fun cpu => ?_⟩
    rw [ownerOf?, Option.bind_assoc]
    rfl
  | socket =>
    refine ⟨(some ·.socket), p.socketMasks, p.socketRole, h.sockets, he, fun cpu => ?_⟩
    rw [ownerOf?, Option.bind_assoc]
    rfl
  | core =>
    refine ⟨(some ·.core), p.coreMasks, p.coreRole, h.cores, he, fun cpu => ?_⟩
    rw [ownerOf?, Option.bind_assoc]
    rfl

end Parts

/-! ## All sources make addressed parts -/

/-- In a layout of descriptors each CPU has its own number for a position. -/
theorem Layout.addressed_partsOfDescriptors {cpus : List Descriptor}
    {nodes groups : Option (List Nat)} (hnodes : Keyed cpus.length nodes)
    (hgroups : Keyed cpus.length groups) : (partsOfDescriptors cpus nodes groups).Addressed := by
  have htiled := tiled_partsOfDescriptors hnodes hgroups
  obtain ⟨-, -, -, hgroup⟩ := slots_partsOfDescriptors hnodes hgroups
  have hlength : (partsOfDescriptors cpus nodes groups).slots.length = cpus.length :=
    htiled.slots_length
  refine htiled.addressed_of_bitsets (hlength.symm ▸ rfl) ?_ ?_
  · intro hmasks
    cases groups with
    | none => exact absurd rfl hmasks
    | some keys => exact Parts.divides_of_numbers hgroup
  · intro cache hcache
    cases hcache

/-- In the flat layout each CPU has its own number for a position. -/
theorem Layout.addressed_flatParts {count : Nat} (hcount : 0 < count) :
    (flatParts count).Addressed := by
  have hlength : (flatParts count).slots.length = count := by simp [flatParts]
  refine (tiled_flatParts hcount).addressed_of_bitsets (hlength.symm ▸ rfl) ?_ ?_
  · intro hmasks
    exact absurd rfl hmasks
  · intro cache hcache
    cases hcache

namespace Record

/-- The mask of a CPU names a position of its core, and the base of that group leads back to the
CPU. -/
theorem Accepted.addressed {records : List Record} {grouped : Bool} {coverage : Coverage}
    (h : Accepted records grouped coverage) : (parts grouped records coverage).Addressed := by
  have hcaches : ∀ cache ∈ (parts grouped records coverage).caches, cache.1.isEmpty = false := by
    intro cache hcache
    obtain ⟨r, hr, hread⟩ := exists_cache_of_mem_cachesOf hcache
    exact (cache?_eq_some_iff.mp hread).2 ▸ h.nonempty r hr
  cases grouped with
  | false =>
    refine h.tiled.addressed_of_bitsets ?_ h.divides_groups hcaches
    rw [length_slots_parts]
    rfl
  | true =>
    let p := parts true records coverage
    have hlength : p.cpuMasks.length = p.slots.length := by
      have hzip : (p.slots.zip (Layout.threadRanks (p.slots.map (·.core)))).length =
          p.slots.length := by simp [Layout.threadRanks]
      exact (List.length_map _).trans hzip
    refine ⟨h.tiled, h.divides_groups, hlength, fun {cpu single} hsingle => ?_, hcaches⟩
    have hcpu : cpu < p.slots.length := hlength ▸ (List.getElem?_eq_some_iff.mp hsingle).1
    -- the mask of the CPU is a position of its core, and the base of the group is added back
    obtain ⟨id, bits, base, bit, -, hbase, rfl, htest, hmade⟩ :=
      h.exists_bit (List.getElem?_eq_getElem hcpu)
    cases Option.some.inj (hsingle.symm.trans hmade)
    refine (Layout.cpusOf_group hbase).trans ?_
    have hindices : (Mask.group id (BitVec.twoPow 64 bit)).indices = [bit] :=
      Mask.indices_groupSingle (Mask.lt_width_of_test htest)
    rw [hindices, List.map_singleton]

end Record

/-! ## What holds of every layout -/

namespace Layout.Constructed

variable {l : Layout}

/-- Every layout is made of addressed parts. -/
theorem exists_addressed (h : l.Constructed) : ∃ p : Parts, p.Addressed ∧ p.layout = l := by
  have described : ∀ {cpus : List Descriptor}, ofDescriptors cpus = .ok l →
      ∃ p : Parts, p.Addressed ∧ p.layout = l := by
    intro cpus hcpus
    obtain ⟨-, nodes, groups, hnodes, hgroups, hassemble⟩ := ofDescriptors_eq_ok_iff.mp hcpus
    exact ⟨_, addressed_partsOfDescriptors (keyed_of_uniform? hnodes) (keyed_of_uniform? hgroups),
      (Parts.assemble_eq_ok_iff.mp hassemble).2.2⟩
  cases h with
  | descriptors h => exact described h
  | records h =>
    obtain ⟨grouped, coverage, haccepted, hassemble⟩ := Record.exists_accepted_of_ofRecords h
    exact ⟨_, haccepted.addressed, (Parts.assemble_eq_ok_iff.mp hassemble).2.2⟩
  | description h =>
    obtain ⟨cpus, hcpus⟩ := exists_descriptors_of_ofDescription h
    exact described hcpus
  | flat cpus =>
    exact ⟨_, addressed_flatParts (Nat.lt_of_lt_of_le Nat.one_pos (Nat.le_max_right cpus 1)),
      (flat_eq_layout cpus).symm⟩

/-- There is a CPU. -/
theorem cpus_pos (h : l.Constructed) : 0 < l.cpus := by
  have described : ∀ {cpus : List Descriptor}, ofDescriptors cpus = .ok l → 0 < l.cpus := by
    intro cpus hcpus
    obtain ⟨hsome, nodes, groups, -, -, hassemble⟩ := ofDescriptors_eq_ok_iff.mp hcpus
    obtain ⟨-, -, rfl⟩ := Parts.assemble_eq_ok_iff.mp hassemble
    exact List.length_pos_iff.mpr hsome
  cases h with
  | descriptors h => exact described h
  | @records listed _ h =>
    obtain ⟨grouped, coverage, haccepted, hassemble⟩ := Record.exists_accepted_of_ofRecords h
    obtain ⟨-, -, rfl⟩ := Parts.assemble_eq_ok_iff.mp hassemble
    refine Nat.pos_of_ne_zero fun hzero => haccepted.populated ?_
    rw [← Record.length_slots_parts grouped listed coverage, haccepted.tiled.slots_length]
    exact hzero
  | description h =>
    obtain ⟨cpus, hcpus⟩ := exists_descriptors_of_ofDescription h
    exact described hcpus
  | flat cpus =>
    have hlength : (Layout.flat cpus).cpus = max cpus 1 := by
      rw [flat_eq_layout, Layout.cpus]
      exact (List.length_map _).trans List.length_range
    rw [hlength]
    exact Nat.lt_of_lt_of_le Nat.one_pos (Nat.le_max_right cpus 1)

/-! ### The CPUs' own masks -/

theorem length_cpuMasks (h : l.Constructed) : l.cpuMasks.length = l.cpus := by
  obtain ⟨p, haddressed, rfl⟩ := h.exists_addressed
  exact haddressed.cpuMasks_length.trans haddressed.slots_length

theorem length_slots (h : l.Constructed) : l.slots.length = l.cpus := by
  obtain ⟨p, haddressed, rfl⟩ := h.exists_addressed
  exact haddressed.slots_length

/-- Exactly the CPUs have masks of their own. -/
theorem exists_cpuMask_iff (h : l.Constructed) {cpu : Nat} :
    (∃ single, l.cpuMask cpu = .ok single) ↔ cpu < l.cpus := by
  rw [← h.length_cpuMasks]
  constructor
  · rintro ⟨single, hsingle⟩
    exact (List.getElem?_eq_some_iff.mp (cpuMask_eq_ok_iff.mp hsingle)).1
  · intro hcpu
    exact ⟨_, cpuMask_eq_ok_iff.mpr (List.getElem?_eq_getElem hcpu)⟩

/-- The mask of a CPU stands for that CPU and for no other. -/
theorem cpusOf_cpuMask (h : l.Constructed) {cpu : Nat} {single : Mask}
    (hsingle : l.cpuMask cpu = .ok single) : l.cpusOf single = [cpu] := by
  obtain ⟨p, haddressed, rfl⟩ := h.exists_addressed
  exact haddressed.cpusOf_single (cpuMask_eq_ok_iff.mp hsingle)

/-! ### Masks whose positions the CPUs have -/

/-- A position of such a mask is a position of some CPU's own mask, which stands for that CPU. -/
theorem exists_cpuMask_of_populates (h : l.Constructed) {mask : Mask}
    (hpopulates : l.populates mask = true) {bit : Nat} (hbit : mask.test bit = true) :
    ∃ cpu single, l.cpuMask cpu = .ok single ∧ single.sameSpace mask = true ∧
      single.test bit = true ∧ l.cpusOf single = [cpu] := by
  obtain ⟨cpu, single, hsingle, hspace, htest⟩ := populates_iff.mp hpopulates bit hbit
  exact ⟨cpu, single, hsingle, hspace, htest, h.cpusOf_cpuMask hsingle⟩

/-- A mask all of whose positions some CPU has selects a CPU, unless it is empty. -/
theorem cpusOf_ne_nil_of_populates (h : l.Constructed) {mask : Mask}
    (hpopulates : l.populates mask = true) (hsome : mask.isEmpty = false) :
    l.cpusOf mask ≠ [] := by
  obtain ⟨bit, hbit⟩ : ∃ bit, mask.test bit = true := by
    apply Classical.byContradiction
    intro hnone
    have hempty := Mask.isEmpty_iff.mpr fun bit =>
      Bool.eq_false_iff.mpr fun htest => hnone ⟨bit, htest⟩
    rw [hsome] at hempty
    cases hempty
  obtain ⟨cpu, single, -, hspace, -, hcpus⟩ := h.exists_cpuMask_of_populates hpopulates hbit
  have hcpu : cpu ∈ l.cpusOf single := by
    rw [hcpus]
    exact List.mem_singleton_self cpu
  obtain ⟨cpuAt, -, hread⟩ := exists_cpuAt hcpu
  rw [hread mask (Mask.sameSpace_symm hspace)]
  exact List.ne_nil_of_mem (List.mem_map_of_mem (Mask.mem_indices.mpr hbit))

/-- What such a mask selects are CPUs, and their own masks lie in it. -/
theorem contains_of_populates (h : l.Constructed) {mask : Mask}
    (hpopulates : l.populates mask = true) {cpu : Nat} (hcpu : cpu ∈ l.cpusOf mask) :
    cpu < l.cpus ∧ l.maskContains mask cpu = true := by
  obtain ⟨cpuAt, hinjective, hread⟩ := exists_cpuAt hcpu
  rw [hread mask (Mask.sameSpace_refl mask)] at hcpu
  obtain ⟨bit, hbit, rfl⟩ := List.mem_map.mp hcpu
  replace hbit := Mask.mem_indices.mp hbit
  obtain ⟨owner, single, hsingle, hspace, htest, hcpus⟩ :=
    h.exists_cpuMask_of_populates hpopulates hbit
  -- the positions of the CPU's own mask all stand for it, so there is only one
  have hplaces : ∀ other, single.test other = true → cpuAt other = owner := by
    intro other hother
    have hmem : cpuAt other ∈ l.cpusOf single := by
      rw [hread single hspace]
      exact List.mem_map_of_mem (Mask.mem_indices.mpr hother)
    rw [hcpus] at hmem
    exact List.mem_singleton.mp hmem
  have howner : cpuAt bit = owner := hplaces bit htest
  have hsubset : single.subset mask = true := by
    refine (Mask.subset_iff hspace).mpr ?_
    intro other hother
    have hsame : other = bit := hinjective ((hplaces other hother).trans howner.symm)
    rwa [hsame]
  refine ⟨howner ▸ h.exists_cpuMask_iff.mp ⟨single, hsingle⟩, ?_⟩
  exact maskContains_iff.mpr ⟨single, howner ▸ cpuMask_eq_ok_iff.mp hsingle, hsubset⟩

/-! ### Entities -/

/-- The entities that are listed for a kind are of that kind. -/
theorem kind_of_mem (h : l.Constructed) {kind : EntityKind} {e : Entity}
    (he : e ∈ l.entitiesOf kind) : e.kind = kind := by
  obtain ⟨p, -, rfl⟩ := h.exists_addressed
  exact Parts.kind_of_mem_entitiesOf he

theorem kind_of_entity? (h : l.Constructed) {kind : EntityKind} {id : Nat} {e : Entity}
    (he : l.entity? kind id = some e) : e.kind = kind :=
  h.kind_of_mem (List.mem_of_getElem? he)

/-- A mask of any kind but caches selects the CPUs whose entity it is, and no others. -/
theorem mem_cpusOf_iff_own (h : l.Constructed) {kind : EntityKind} (hkind : kind ≠ .cache)
    {e : Entity} (he : e ∈ l.entitiesOf kind) (cpu : Nat) :
    cpu ∈ l.cpusOf e.mask ↔ l.entityForCpu? kind cpu = some e := by
  obtain ⟨p, haddressed, rfl⟩ := h.exists_addressed
  obtain ⟨owner?, masks, role, hdivides, hmem, hown⟩ := haddressed.exists_divides hkind he
  rw [hown]
  exact (hdivides.own_iff_mem_cpusOf hmem cpu).symm

/-- It selects some, and they are CPUs of the layout. -/
theorem cpusOf_entity (h : l.Constructed) {kind : EntityKind} (hkind : kind ≠ .cache)
    {e : Entity} (he : e ∈ l.entitiesOf kind) :
    l.cpusOf e.mask ≠ [] ∧ ∀ cpu ∈ l.cpusOf e.mask, cpu < l.cpus := by
  obtain ⟨p, haddressed, rfl⟩ := h.exists_addressed
  obtain ⟨owner?, masks, role, hdivides, hmem, -⟩ := haddressed.exists_divides hkind he
  have hmask := (Parts.mem_number.mp hmem).1
  refine ⟨hdivides.inhabited _ (List.mem_of_getElem? hmask), fun cpu hcpu => ?_⟩
  obtain ⟨slot, hslot, -⟩ :=
    Parts.ownerOf?_eq_some_iff.mp ((hdivides.mem_cpusOf_iff hmask cpu).mp hcpu)
  exact haddressed.lt_cpus hslot

/-- No cache is without CPUs. -/
theorem nonempty_cache (h : l.Constructed) {e : Entity} (he : e ∈ l.caches) :
    e.mask.isEmpty = false := by
  obtain ⟨p, haddressed, rfl⟩ := h.exists_addressed
  obtain ⟨⟨⟨mask, info⟩, id⟩, hpair, rfl⟩ := List.mem_map.mp he
  exact haddressed.caches_nonempty _ (List.mem_of_getElem? (List.mem_zipIdx_iff_getElem?.mp hpair))

end Layout.Constructed

end CpuPlacement
