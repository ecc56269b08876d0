import CpuPlacement.Proofs.Layout.Addressed
import CpuPlacement.Proofs.Layout.Rebuilt
import CpuPlacement.Proofs.Mask.Same
import Mathlib

/-!
# What the descriptors determine

Two layouts are taken for one machine if they have the same descriptors. Where the masks are
bit-sets that is justified: the descriptors determine the core and the mask of every CPU, whatever
the layouts were constructed from (`Constructed.sameCpus`). Group masks come from records, which
write the core of a CPU into its descriptor but not its mask.
-/

set_option autoImplicit false

namespace CpuPlacement

namespace Layout

/-- The layouts have the same CPUs: every CPU has the same core and the same mask in both. -/
structure SameCpus (l m : Layout) : Prop where
  cpus : m.cpus = l.cpus
  physicalCore : ∀ cpu, m.physicalCore cpu = l.physicalCore cpu
  cpuMask : ∀ cpu, m.cpuMask cpu = l.cpuMask cpu

theorem SameCpus.refl (l : Layout) : l.SameCpus l :=
  ⟨rfl, fun _ => rfl, fun _ => rfl⟩

/-- The core of a CPU is read off the list of cores. -/
theorem physicalCore_eq_atCpu (l : Layout) (cpu : Nat) :
    l.physicalCore cpu = atCpu (l.slots.map (·.core)) cpu := by
  unfold physicalCore atCpu
  rw [List.getElem?_map, List.length_map]
  cases l.slots[cpu]? <;> rfl

/-! ## The two families of layouts -/

/-- The masks are bit-sets, and cores are numbered by their last CPUs. -/
structure ByNumber (l : Layout) : Prop where
  isGrouped : l.isGrouped = false
  physicalCore : ∀ cpu, l.physicalCore cpu =
    atCpu (Numbering.numbers (l.descriptors.map fun d => (d.socketId, d.coreId))) cpu
  cpuMasks : l.cpuMasks = (List.range l.cpus).map (Mask.single l.cpus)

/-- The masks are group masks, and the descriptors name the cores. -/
structure ByGroup (l : Layout) : Prop where
  isGrouped : l.isGrouped = true
  physicalCore : ∀ cpu, l.physicalCore cpu = atCpu (l.descriptors.map (·.coreId)) cpu
  isGroup : ∀ mask ∈ l.cpuMasks, mask.isGroup = true

/-- A layout of descriptors keeps them as they are. -/
theorem descriptors_of_ofDescriptors {cpus : List Descriptor} {l : Layout}
    (h : ofDescriptors cpus = .ok l) : l.descriptors = cpus := by
  obtain ⟨-, nodes, groups, -, -, hassemble⟩ := ofDescriptors_eq_ok_iff.mp h
  obtain ⟨-, -, rfl⟩ := Parts.assemble_eq_ok_iff.mp hassemble
  rfl

/-- In a layout of descriptors masks hold the numbers of the CPUs. -/
theorem byNumber_of_ofDescriptors {cpus : List Descriptor} {l : Layout}
    (h : ofDescriptors cpus = .ok l) : l.ByNumber := by
  obtain ⟨-, nodes, groups, hnodes, hgroups, hassemble⟩ := ofDescriptors_eq_ok_iff.mp h
  obtain ⟨-, -, rfl⟩ := Parts.assemble_eq_ok_iff.mp hassemble
  obtain ⟨-, hcores, -, -⟩ :=
    slots_partsOfDescriptors (keyed_of_uniform? hnodes) (keyed_of_uniform? hgroups)
  refine ⟨rfl, fun cpu => ?_, rfl⟩
  rw [physicalCore_eq_atCpu]
  exact congrArg (atCpu · cpu) hcores

/-- In the flat layout masks hold the numbers of the CPUs. -/
theorem byNumber_flat (cpus : Nat) : (flat cpus).ByNumber := by
  have hcount : (flat cpus).cpus = max cpus 1 := by simp [Layout.cpus, flat]
  refine ⟨rfl, fun cpu => ?_, by rw [hcount]; rfl⟩
  have hkeys : (flat cpus).descriptors.map (fun d => (d.socketId, d.coreId)) =
      (List.range (max cpus 1)).map fun core => (0, core) := List.map_map
  have hcores : (flat cpus).slots.map (·.core) = List.range (max cpus 1) := by
    simp [flat, Function.comp_def]
  have hinjective : Function.Injective fun core : Nat => (0, core) :=
    fun _ _ hsame => congrArg Prod.snd hsame
  rw [physicalCore_eq_atCpu, hcores, hkeys, Numbering.numbers_map hinjective,
    Numbering.numbers_eq_self (Numbering.classes_of_nodup List.nodup_range)]

end Layout

namespace Record.Accepted

variable {records : List Record} {coverage : Coverage}

/-- In a layout of bit-set records masks hold the numbers of the CPUs. -/
theorem byNumber (h : Accepted records false coverage)
    (hgrid : (parts false records coverage).fillsGrid = true)
    (hfits : (parts false records coverage).layout.misplacement? = none) :
    (parts false records coverage).layout.ByNumber := by
  obtain ⟨m, hm, hsame⟩ := h.exists_rebuilt hfits hgrid fun hgrouped => Bool.noConfusion hgrouped
  have htotal : (numbering false records).total = (parts false records coverage).layout.cpus :=
    (length_slots_parts false records coverage).symm.trans h.tiled.slots_length
  refine ⟨rfl, fun cpu => ?_, by rw [← htotal]; rfl⟩
  rw [← hsame.physicalCore, (Layout.byNumber_of_ofDescriptors hm).physicalCore,
    Layout.descriptors_of_ofDescriptors hm]
  rfl

/-- In a layout of group records masks hold the positions within the groups. -/
theorem byGroup (h : Accepted records true coverage) :
    (parts true records coverage).layout.ByGroup := by
  have hlength : (parts true records coverage).slots.length =
      (parts true records coverage).cpuMasks.length :=
    h.addressed.cpuMasks_length.symm
  refine ⟨?_, fun cpu => ?_, fun mask hmask => ?_⟩
  · have hpos : 0 < (parts true records coverage).slots.length := by
      rw [length_slots_parts]
      exact Nat.pos_of_ne_zero h.populated
    obtain ⟨id, _, base, _, -, hbase, -⟩ := h.exists_bit (List.getElem?_eq_getElem hpos)
    have hbases : (numbering true records).bases ≠ [] := by
      intro hnil
      rw [hnil] at hbase
      cases hbase
    exact (Bool.not_eq_true' _).mpr (Bool.eq_false_iff.mpr (mt List.isEmpty_iff.mp hbases))
  · rw [Layout.physicalCore_eq_atCpu]
    exact congrArg (Layout.atCpu · cpu) namesSlots.cores.symm
  · obtain ⟨cpu, hcpu⟩ := List.mem_iff_getElem?.mp hmask
    have hlt := hlength ▸ (List.getElem?_eq_some_iff.mp hcpu).1
    obtain ⟨_, _, _, _, -, -, -, -, hmade⟩ := h.exists_bit (List.getElem?_eq_getElem hlt)
    obtain rfl := Option.some.inj (hcpu.symm.trans hmade)
    rfl

end Record.Accepted

namespace Layout

/-- Every layout belongs to one of the families. -/
theorem Constructed.byNumber_or_byGroup {l : Layout} (h : l.Constructed) :
    l.ByNumber ∨ l.ByGroup := by
  cases h with
  | descriptors h => exact Or.inl (byNumber_of_ofDescriptors h)
  | records h =>
    obtain ⟨grouped, coverage, haccepted, hassemble⟩ := Record.exists_accepted_of_ofRecords h
    obtain ⟨hgrid, hfits, rfl⟩ := Parts.assemble_eq_ok_iff.mp hassemble
    cases grouped with
    | false => exact Or.inl (haccepted.byNumber hgrid hfits)
    | true => exact Or.inr haccepted.byGroup
  | description h =>
    obtain ⟨cpus, hcpus⟩ := exists_descriptors_of_ofDescription h
    exact Or.inl (byNumber_of_ofDescriptors hcpus)
  | flat cpus => exact Or.inl (byNumber_flat cpus)

/-- In every layout without groups masks hold the numbers of the CPUs. -/
theorem Constructed.byNumber {l : Layout} (h : l.Constructed) (hplain : l.isGrouped = false) :
    l.ByNumber := by
  rcases h.byNumber_or_byGroup with hnumber | hgroup
  · exact hnumber
  · exact Bool.noConfusion (hplain.symm.trans hgroup.isGrouped)

/-- In every layout with groups masks hold the positions within the groups. -/
theorem Constructed.byGroup {l : Layout} (h : l.Constructed) (hgrouped : l.isGrouped = true) :
    l.ByGroup := by
  rcases h.byNumber_or_byGroup with hnumber | hgroup
  · exact Bool.noConfusion (hgrouped.symm.trans hnumber.isGrouped)
  · exact hgroup

/-- The masks of the CPUs are group masks, or none of them is. -/
theorem Constructed.isGroup_cpuMask {l : Layout} (h : l.Constructed) {cpu : Nat} {mask : Mask}
    (hmask : l.cpuMask cpu = .ok mask) : mask.isGroup = l.isGrouped := by
  have hmem : mask ∈ l.cpuMasks := List.mem_of_getElem? (cpuMask_eq_ok_iff.mp hmask)
  rcases h.byNumber_or_byGroup with hnumber | hgroup
  · rw [hnumber.cpuMasks] at hmem
    obtain ⟨cpu, -, rfl⟩ := List.mem_map.mp hmem
    rw [Mask.isGroup_single, hnumber.isGrouped]
  · rw [hgroup.isGroup mask hmem, hgroup.isGrouped]

/-! ## Layouts with the same descriptors -/

section Same

variable {l m : Layout} (hl : l.Constructed) (hm : m.Constructed)

include hl hm

/-- Without group masks the descriptors determine the CPUs. -/
theorem Constructed.sameCpus (hsame : m.descriptors = l.descriptors)
    (hplain : l.isGrouped = false) (hplain' : m.isGrouped = false) : l.SameCpus m := by
  have hcpus : m.cpus = l.cpus := congrArg List.length hsame
  have hnumber := hl.byNumber hplain
  have hnumber' := hm.byNumber hplain'
  refine ⟨hcpus, fun cpu => ?_, fun cpu => ?_⟩
  · rw [hnumber.physicalCore, hnumber'.physicalCore, hsame]
  · rw [cpuMask, cpuMask, hnumber.cpuMasks, hnumber'.cpuMasks, hcpus]

/-- With group masks in both they determine the cores. -/
theorem Constructed.physicalCore_eq (hsame : m.descriptors = l.descriptors)
    (hgrouped : l.isGrouped = true) (hgrouped' : m.isGrouped = true) (cpu : Nat) :
    m.physicalCore cpu = l.physicalCore cpu := by
  rw [(hl.byGroup hgrouped).physicalCore, (hm.byGroup hgrouped').physicalCore, hsame]

/-- With group masks in one of them, no CPU has the same mask in both. -/
theorem Constructed.not_same_cpuMask (hdiffer : m.isGrouped ≠ l.isGrouped) {cpu : Nat}
    {mask other : Mask} (hmask : l.cpuMask cpu = .ok mask) (hother : m.cpuMask cpu = .ok other) :
    other.same mask = false := by
  refine Bool.eq_false_iff.mpr fun hsame => hdiffer ?_
  rw [← hm.isGroup_cpuMask hother, ← hl.isGroup_cpuMask hmask, Mask.isGroup_eq_of_same hsame]

end Same

end Layout

end CpuPlacement
