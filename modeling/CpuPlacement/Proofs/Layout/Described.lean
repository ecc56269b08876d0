import CpuPlacement.Layout.Grid
import CpuPlacement.Proofs.Layout.Numbering
import CpuPlacement.Proofs.Layout.Tiling

/-!
# Described machines are tiled

Descriptors name the socket, the core and perhaps the node of every CPU by keys. The masks of a kind
and the slots are both made from the numbers of these keys, so they agree. A description of a
regular machine is a list of descriptors, and the flat layout is made of tiled parts too, though
nothing assembles it (`flat_eq_layout`).
-/

set_option autoImplicit false

namespace CpuPlacement

namespace Parts

variable {p : Parts}

/-- The owners of the CPUs are listed in the order of the slots. -/
theorem ownerOf?_of_map {owner? : Slot → Option Nat} {numbers : List Nat}
    (hnumbers : p.slots.map owner? = numbers.map some) (cpu : Nat) :
    p.ownerOf? owner? cpu = numbers[cpu]? := by
  have hcpu : (p.slots.map owner?)[cpu]? = (numbers.map some)[cpu]? := by rw [hnumbers]
  rw [List.getElem?_map, List.getElem?_map] at hcpu
  rw [ownerOf?]
  cases hslot : p.slots[cpu]? with
  | none =>
    cases hnumber : numbers[cpu]? with
    | none => rfl
    | some number => simp [hslot, hnumber] at hcpu
  | some slot =>
    cases hnumber : numbers[cpu]? with
    | none => simp [hslot, hnumber] at hcpu
    | some number => simpa [hslot, hnumber] using hcpu

/-- Slots and masks that are both made from one numbering agree. -/
theorem divides_of_numbers {κ : Type} [DecidableEq κ] {keys : List κ} {owner? : Slot → Option Nat}
    (hnumbers : p.slots.map owner? = (Numbering.numbers keys).map some) :
    p.Divides owner? (Numbering.masks keys) where
  ascends := Numbering.ascends_masks keys
  inhabited := by
    intro mask hmask
    obtain ⟨cpu, hcpu⟩ := Numbering.exists_cpu_of_mask hmask
    have hbitset := Numbering.isGroup_of_mem_masks hmask
    exact List.ne_nil_of_mem ((Layout.mem_cpusOf_bitset hbitset).mpr hcpu)
  covers := by
    intro slot hslot
    have hlength : p.slots.length = keys.length := by
      simpa [Numbering.length_numbers] using congrArg List.length hnumbers
    obtain ⟨cpu, hcpu⟩ := List.mem_iff_getElem?.mp hslot
    have hlt : cpu < keys.length := hlength ▸ (List.getElem?_eq_some_iff.mp hcpu).1
    obtain ⟨id, mask, hid, hmask⟩ := Numbering.exists_mask_of_number hlt
    refine ⟨id, mask, ?_, hmask⟩
    rwa [← ownerOf?_of_map hnumbers, ownerOf?, hcpu, Option.bind_some] at hid
  mem_cpusOf_iff := by
    intro id mask hmask cpu
    have hbitset := Numbering.isGroup_of_mem_masks (List.mem_of_getElem? hmask)
    rw [Layout.mem_cpusOf_bitset hbitset, Numbering.test_getElem?_masks hmask,
      ownerOf?_of_map hnumbers]

end Parts

namespace Layout

/-! ## Descriptors -/

/-- An attribute that has keys is reported by every CPU. -/
theorem map_eq_of_uniform? {attribute? : Descriptor → Option Nat} {kind : RecordKind}
    {cpus : List Descriptor} {keys : List Nat}
    (h : uniform? attribute? kind cpus = .ok (some keys)) :
    cpus.map attribute? = keys.map some := by
  simp only [uniform?] at h
  split at h
  · cases h
  · split at h
    · cases h
    · next hfound =>
      cases h
      refine (map_some_filterMap_id fun reported hreported => ?_).symm
      simpa using List.findIdx?_eq_none_iff.mp hfound reported hreported

/-- An attribute that no CPU reports has no keys. -/
theorem uniform?_of_none {attribute? : Descriptor → Option Nat} (kind : RecordKind)
    {cpus : List Descriptor} (h : ∀ reported ∈ cpus.map attribute?, reported = none) :
    uniform? attribute? kind cpus = .ok none := by
  have hall : (cpus.map attribute?).all (·.isNone) = true :=
    List.all_eq_true.mpr fun reported hmem => by rw [h reported hmem]; rfl
  rw [uniform?, if_pos hall]

/-- An attribute that every CPU reports has what they report as keys. -/
theorem uniform?_of_some {attribute? : Descriptor → Option Nat} (kind : RecordKind)
    {cpus : List Descriptor} {keys : List Nat} (hsome : cpus ≠ [])
    (h : cpus.map attribute? = keys.map some) :
    uniform? attribute? kind cpus = .ok (some keys) := by
  have hkeys : keys ≠ [] := by
    rintro rfl
    exact hsome (List.map_eq_nil_iff.mp h)
  have hreported : (keys.map some).all (·.isNone) = false := by
    obtain ⟨first, rest, rfl⟩ := List.exists_cons_of_ne_nil hkeys
    rfl
  have hfound : (keys.map some).findIdx? (·.isNone) = none :=
    List.findIdx?_eq_none_iff.mpr fun reported hmem => by
      obtain ⟨key, -, rfl⟩ := List.mem_map.mp hmem
      rfl
  simp only [uniform?, h, hreported, hfound, Bool.false_eq_true, if_false]
  simp

/-- Keys that a CPU may have are those of as many CPUs as there are. -/
def Keyed (count : Nat) (keys : Option (List Nat)) : Prop :=
  ∀ list, keys = some list → list.length = count

/-- Keys that are reported at all are reported for every CPU. -/
theorem keyed_of_uniform? {attribute? : Descriptor → Option Nat} {kind : RecordKind}
    {cpus : List Descriptor} {keys : Option (List Nat)}
    (h : uniform? attribute? kind cpus = .ok keys) : Keyed cpus.length keys := by
  rintro list rfl
  simpa using (congrArg List.length (map_eq_of_uniform? h)).symm

/-- There is an answer for each CPU, also where nothing is reported. -/
theorem length_optionalNumbers {count : Nat} {keys : Option (List Nat)} (h : Keyed count keys) :
    (optionalNumbers count keys).length = count := by
  cases keys with
  | none => exact List.length_replicate
  | some list => rw [optionalNumbers, List.length_map, Numbering.length_numbers, h list rfl]

/-- The slots hold the numbers of each kind, CPU by CPU. -/
theorem slots_partsOfDescriptors {cpus : List Descriptor} {nodes groups : Option (List Nat)}
    (hnodes : Keyed cpus.length nodes) (hgroups : Keyed cpus.length groups) :
    let slots := (partsOfDescriptors cpus nodes groups).slots
    slots.map (·.socket) = Numbering.numbers (cpus.map (·.socketId)) ∧
      slots.map (·.core) = Numbering.numbers (cpus.map fun d => (d.socketId, d.coreId)) ∧
      slots.map (·.node) = optionalNumbers cpus.length nodes ∧
      slots.map (·.group) = optionalNumbers cpus.length groups := by
  intro slots
  let sockets := Numbering.numbers (cpus.map (·.socketId))
  let cores := Numbering.numbers (cpus.map fun d => (d.socketId, d.coreId))
  let places := sockets.zip cores
  let regions := (optionalNumbers cpus.length nodes).zip (optionalNumbers cpus.length groups)
  have hsockets : sockets.length = cpus.length := by simp [sockets, Numbering.length_numbers]
  have hcores : cores.length = cpus.length := by simp [cores, Numbering.length_numbers]
  have hplaces : places.length = cpus.length := by simp [places, hsockets, hcores]
  have hregions : regions.length = cpus.length := by
    simp [regions, length_optionalNumbers hnodes, length_optionalNumbers hgroups]
  -- slots are zipped from two pairs of lists, all of one length, and each field undoes two zips
  have hfst : (places.zip regions).map Prod.fst = places := List.map_fst_zip (by omega)
  have hsnd : (places.zip regions).map Prod.snd = regions := List.map_snd_zip (by omega)
  have hoptional : (optionalNumbers cpus.length nodes).length =
      (optionalNumbers cpus.length groups).length :=
    (length_optionalNumbers hnodes).trans (length_optionalNumbers hgroups).symm
  refine ⟨?_, ?_, ?_, ?_⟩
  · have hmap : slots.map (·.socket) = ((places.zip regions).map Prod.fst).map Prod.fst := by
      simp only [slots, partsOfDescriptors, List.map_map]
      rfl
    rw [hmap, hfst, List.map_fst_zip (by omega)]
  · have hmap : slots.map (·.core) = ((places.zip regions).map Prod.fst).map Prod.snd := by
      simp only [slots, partsOfDescriptors, List.map_map]
      rfl
    rw [hmap, hfst, List.map_snd_zip (by omega)]
  · have hmap : slots.map (·.node) = ((places.zip regions).map Prod.snd).map Prod.fst := by
      simp only [slots, partsOfDescriptors, List.map_map]
      rfl
    rw [hmap, hsnd, List.map_fst_zip (Nat.le_of_eq hoptional)]
  · have hmap : slots.map (·.group) = ((places.zip regions).map Prod.snd).map Prod.snd := by
      simp only [slots, partsOfDescriptors, List.map_map]
      rfl
    rw [hmap, hsnd, List.map_snd_zip (Nat.le_of_eq hoptional.symm)]

/-- The masks of what descriptors report are bit-sets. -/
theorem isGroup_of_mem_optionalMasks {keys : Option (List Nat)} {mask : Mask}
    (hmask : mask ∈ optionalMasks keys) : mask.isGroup = false := by
  cases keys with
  | none => cases hmask
  | some list => exact Numbering.isGroup_of_mem_masks hmask

/-- The parts of a list of descriptors are tiled. -/
theorem tiled_partsOfDescriptors {cpus : List Descriptor} {nodes groups : Option (List Nat)}
    (hnodes : Keyed cpus.length nodes) (hgroups : Keyed cpus.length groups) :
    (partsOfDescriptors cpus nodes groups).Tiled := by
  obtain ⟨hsocket, hcore, hnode, -⟩ := slots_partsOfDescriptors hnodes hgroups
  have hlength : (partsOfDescriptors cpus nodes groups).slots.length = cpus.length := by
    simpa [Numbering.length_numbers] using congrArg List.length hsocket
  refine .of_bitsets hlength ?singles ?bitsets ?groups ?nodes ?sockets ?cores
  case singles => exact hlength.symm ▸ rfl
  case bitsets => exact fun core hcore => Numbering.isGroup_of_mem_masks hcore
  case groups =>
    cases groups with
    | none => exact List.Pairwise.nil
    | some keys => exact Numbering.ascends_masks keys
  case nodes =>
    intro hmasks
    cases nodes with
    | none => exact absurd rfl hmasks
    | some keys => exact Parts.divides_of_numbers hnode
  case sockets => exact Parts.divides_of_numbers (by rw [← hsocket, List.map_map]; rfl)
  case cores => exact Parts.divides_of_numbers (by rw [← hcore, List.map_map]; rfl)

/-- Descriptors make a layout when there are any, each optional attribute is reported by all of them
or by none, and their parts fit together. -/
theorem ofDescriptors_eq_ok_iff {cpus : List Descriptor} {l : Layout} :
    ofDescriptors cpus = .ok l ↔ cpus ≠ [] ∧ ∃ nodes groups,
      uniform? (·.nodeId) .node cpus = .ok nodes ∧ uniform? (·.groupId) .group cpus = .ok groups ∧
        (partsOfDescriptors cpus nodes groups).assemble = .ok l := by
  unfold ofDescriptors
  rw [check_eq_ok_iff, List.isEmpty_iff, bind_eq_ok_iff]
  simp only [bind_eq_ok_iff, exists_and_left]

/-- A layout of descriptors is assembled from tiled parts. -/
theorem exists_tiled_of_ofDescriptors {cpus : List Descriptor} {l : Layout}
    (h : ofDescriptors cpus = .ok l) : ∃ p : Parts, p.Tiled ∧ p.assemble = .ok l := by
  obtain ⟨-, nodes, groups, hnodes, hgroups, hassemble⟩ := ofDescriptors_eq_ok_iff.mp h
  exact ⟨_, tiled_partsOfDescriptors (keyed_of_uniform? hnodes) (keyed_of_uniform? hgroups),
    hassemble⟩

/-- A layout of a description is one of descriptors. -/
theorem exists_descriptors_of_ofDescription {description : String} {l : Layout}
    (h : ofDescription description = .ok l) : ∃ cpus, ofDescriptors cpus = .ok l := by
  unfold ofDescription at h
  split at h
  · exact ⟨_, h⟩
  · cases h

/-- A layout of a description comes of parts that fit together. -/
theorem exists_tiled_of_ofDescription {description : String} {l : Layout}
    (h : ofDescription description = .ok l) : ∃ p : Parts, p.Tiled ∧ p.assemble = .ok l := by
  obtain ⟨cpus, hcpus⟩ := exists_descriptors_of_ofDescription h
  exact exists_tiled_of_ofDescriptors hcpus

/-! ## The flat layout -/

/-- The parts of the flat layout. -/
def flatParts (count : Nat) : Parts where
  descriptors := (List.range count).map fun cpu => { socketId := 0, coreId := cpu, threadId := 0 }
  slots := (List.range count).map fun cpu =>
    { socket := 0, core := cpu, node := none, group := none }
  cpuMasks := (List.range count).map (Mask.single count)
  groupMasks := []
  nodeMasks := []
  socketMasks := [Mask.full count]
  coreMasks := (List.range count).map (Mask.single count)
  caches := []
  groupBases := []

/-- All cores of the flat layout are in its one socket. -/
theorem coreRole_flatParts (count : Nat) (mask : Mask) :
    (flatParts count).coreRole mask = .core 0 := by
  rw [Parts.coreRole]
  cases hfirst : (flatParts count).firstSlot? mask with
  | none => rfl
  | some slot =>
    obtain ⟨cpu, hcpu, -⟩ := Parts.exists_cpu_of_firstSlot? hfirst
    obtain ⟨_, -, rfl⟩ := List.mem_map.mp (List.mem_of_getElem? hcpu)
    rfl

/-- What is the same for every CPU. -/
theorem map_descriptors_flatParts {α : Type} {f : Descriptor → α} {a : α}
    (h : ∀ cpu, f { socketId := 0, coreId := cpu, threadId := 0 } = a) (count : Nat) :
    (flatParts count).descriptors.map f = List.replicate count a := by
  simp [flatParts, Function.comp_def, h]

theorem threadsPerCore_flatParts (count : Nat) : (flatParts (count + 1)).threadsPerCore = 1 := by
  rw [Parts.threadsPerCore, map_descriptors_flatParts fun _ => rfl, Numbering.classes_replicate,
    List.length_singleton]

/-- The flat layout is the one that its parts make. -/
theorem flat_eq_layout (cpus : Nat) : flat cpus = (flatParts (max cpus 1)).layout := by
  obtain ⟨count, hcount⟩ : ∃ count, max cpus 1 = count + 1 := ⟨max cpus 1 - 1, by omega⟩
  have hcores : (flat cpus).cores = (flatParts (max cpus 1)).layout.cores := by
    refine List.ext_getElem? fun id => ?_
    simp only [flat, Parts.layout, Parts.getElem?_number, coreRole_flatParts]
    by_cases hid : id < max cpus 1
    · simp [flatParts, hid]
    · simp [flatParts, hid]
  have hthreads : (flat cpus).threadsPerCore = (flatParts (max cpus 1)).layout.threadsPerCore :=
    (hcount ▸ threadsPerCore_flatParts count).symm
  have hper : (flat cpus).coresPerSocket = (flatParts (max cpus 1)).layout.coresPerSocket := by
    simp [flat, Parts.layout, Parts.coresPerSocket, Parts.socketCount, flatParts]
  rw [flat, Parts.layout, Layout.mk.injEq]
  exact ⟨rfl, rfl, rfl, rfl, rfl, rfl, hcores, rfl, rfl, rfl, hper, hthreads⟩

/-- In the flat layout all CPUs belong to what their slots say in one way. -/
theorem ownerOf?_flatParts {count cpu : Nat} (owner? : Slot → Option Nat) :
    (flatParts count).ownerOf? owner? cpu =
      if cpu < count then owner? { socket := 0, core := cpu, node := none, group := none }
      else none := by
  by_cases hcpu : cpu < count
  · simp [Parts.ownerOf?, flatParts, hcpu]
  · simp [Parts.ownerOf?, flatParts, hcpu]

/-- The one socket has all CPUs. -/
theorem divides_sockets_flatParts {count : Nat} (hcount : 0 < count) :
    (flatParts count).Divides (some ·.socket) (flatParts count).socketMasks where
  ascends := List.pairwise_singleton _ _
  inhabited := by
    intro mask hmask
    cases List.mem_singleton.mp hmask
    have htest : (Mask.full count).test 0 = true := by rw [Mask.test_full, decide_eq_true hcount]
    exact List.ne_nil_of_mem ((Layout.mem_cpusOf_bitset rfl).mpr htest)
  covers := by
    intro slot hslot
    obtain ⟨cpu, -, rfl⟩ := List.mem_map.mp hslot
    exact ⟨0, Mask.full count, rfl, rfl⟩
  mem_cpusOf_iff := by
    intro id mask hmask cpu
    obtain ⟨rfl, rfl⟩ : id = 0 ∧ mask = Mask.full count := by
      cases id with
      | zero => exact ⟨rfl, (Option.some.inj hmask).symm⟩
      | succ id => cases hmask
    rw [Layout.mem_cpusOf_bitset rfl, Mask.test_full, ownerOf?_flatParts]
    simp

/-- Each CPU is a core of its own. -/
theorem divides_cores_flatParts (count : Nat) :
    (flatParts count).Divides (some ·.core) (flatParts count).coreMasks where
  ascends := by
    refine List.pairwise_map.mpr (List.pairwise_lt_range.imp fun {a b} hlt => ?_)
    refine Mask.cmp_eq_lt_of_highest (Mask.isGroup_single _ _) (Mask.isGroup_single _ _)
      (fun cpu hcpu => ?_) (Mask.test_single count b b ▸ decide_eq_true rfl)
    rw [Mask.test_single, decide_eq_true_iff] at hcpu
    exact hcpu ▸ hlt
  inhabited := by
    intro mask hmask
    obtain ⟨cpu, -, rfl⟩ := List.mem_map.mp hmask
    have htest : (Mask.single count cpu).test cpu = true := by simp [Mask.test_single]
    exact List.ne_nil_of_mem ((Layout.mem_cpusOf_bitset (Mask.isGroup_single _ _)).mpr htest)
  covers := by
    intro slot hslot
    obtain ⟨cpu, hcpu, rfl⟩ := List.mem_map.mp hslot
    refine ⟨cpu, Mask.single count cpu, rfl, ?_⟩
    simp [flatParts, List.mem_range.mp hcpu]
  mem_cpusOf_iff := by
    intro id mask hmask cpu
    rw [flatParts, List.getElem?_map] at hmask
    obtain ⟨core, hcore, rfl⟩ := Option.map_eq_some_iff.mp hmask
    obtain ⟨hlt, rfl⟩ := List.getElem?_eq_some_iff.mp hcore
    rw [List.length_range] at hlt
    rw [Layout.mem_cpusOf_bitset (Mask.isGroup_single _ _), Mask.test_single,
      ownerOf?_flatParts, decide_eq_true_iff, List.getElem_range]
    constructor
    · rintro rfl
      exact if_pos hlt
    · intro howner
      split at howner
      · exact Option.some.inj howner
      · cases howner

/-- The parts of the flat layout fit together. -/
theorem tiled_flatParts {count : Nat} (hcount : 0 < count) : (flatParts count).Tiled := by
  have hlength : (flatParts count).slots.length = count := by simp [flatParts]
  refine .of_bitsets ?length ?singles ?bitsets ?groups ?nodes ?sockets ?cores
  case length => simp [flatParts]
  case singles => exact hlength.symm ▸ rfl
  case bitsets =>
    intro core hcore
    obtain ⟨cpu, -, rfl⟩ := List.mem_map.mp hcore
    exact Mask.isGroup_single _ _
  case groups => exact List.Pairwise.nil
  case nodes => exact fun hnodes => absurd rfl hnodes
  case sockets => exact divides_sockets_flatParts hcount
  case cores => exact divides_cores_flatParts count

/-- The flat layout would pass the check that it is spared. -/
theorem misplacement?_flat (cpus : Nat) : (flat cpus).misplacement? = none := by
  refine misplacement?_eq_none_iff.mpr ⟨fun core hcore socket hsocket => ?_,
    fun socket hsocket node hnode => ?_⟩
  · obtain ⟨cpu, hcpu, rfl⟩ := List.mem_map.mp hcore
    cases Option.some.inj hsocket
    have hspace : (Mask.single (max cpus 1) cpu).sameSpace (Mask.full (max cpus 1)) = true := rfl
    refine (Mask.subset_iff hspace).mpr fun other hother => ?_
    rw [Mask.test_single, decide_eq_true_iff] at hother
    rw [Mask.test_full, hother, decide_eq_true_iff]
    exact List.mem_range.mp hcpu
  · cases List.mem_singleton.mp hsocket
    cases hnode

end Layout

end CpuPlacement
