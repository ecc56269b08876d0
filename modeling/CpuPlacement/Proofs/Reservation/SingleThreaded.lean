import CpuPlacement.Proofs.Layout.Renumbering
import CpuPlacement.Proofs.Reservation.CoreChoice

/-!
# Reserving on machines without hyper-threading

Where every core has one CPU, a reservation of a core and one of a CPU are the same but for the kind
of the handle. In a layout of descriptors no two CPUs then have the same socket and core ids, so
that cores are numbered like CPUs (`Numbering.numbers_of_nodup`) and the two searches go through the
same numbers in the same order. What keeps them apart is CPU 0, which a search for cores does not
leave out: it must not be reservable. The lock table has to be well-formed, which it is after every
run (`Run.wellFormed`).
-/

set_option autoImplicit false

namespace CpuPlacement

variable {σ : Type}

/-- Classes of one CPU each come from keys that do not repeat. -/
theorem Numbering.nodup_of_cardinality {κ : Type} [DecidableEq κ] {keys : List κ}
    (hsingle : ∀ mask ∈ masks keys, mask.cardinality = 1) : keys.Nodup := by
  refine List.nodup_iff_getElem?_ne_getElem?.mpr fun a b hlt hb hsame => ?_
  have hkey : keys[b]? = some keys[b] := List.getElem?_eq_getElem hb
  have hmask := hsingle _ (List.mem_map_of_mem (mem_classes.mpr (List.mem_of_getElem? hkey)))
  obtain ⟨cpu, hcpu⟩ := List.length_eq_one_iff.mp ((Mask.length_indices _).trans hmask)
  -- both CPUs would be in the mask of their key
  have hfirst : a ∈ [cpu] := hcpu ▸ Mask.mem_indices.mpr (test_mask.mpr (hsame.trans hkey))
  have hsecond : b ∈ [cpu] := hcpu ▸ Mask.mem_indices.mpr (test_mask.mpr hkey)
  rw [List.mem_singleton] at hfirst hsecond
  omega

namespace Layout

/-! ## Layouts in which every core has one CPU -/

/-- The layouts that are not made of records: of descriptors, of a description, and flat ones. -/
inductive Described : Layout → Prop where
  | descriptors {cpus : List Descriptor} {l : Layout} (h : ofDescriptors cpus = .ok l) : Described l
  | description {text : String} {l : Layout} (h : ofDescription text = .ok l) : Described l
  | flat (cpus : Nat) : Described (flat cpus)

/-- Every CPU is a core of its own, and the core has the number of the CPU. -/
structure SingleThreaded (l : Layout) : Prop where
  length_cores : l.cores.length = l.cpus
  physicalCore_iff : ∀ {cpu core : Nat}, l.physicalCore cpu = .ok core ↔ core = cpu ∧ cpu < l.cpus

/-- A layout is single-threaded if its cores are numbered like its CPUs. -/
theorem singleThreaded_of_slots {l : Layout} (hcores : l.cores.length = l.cpus)
    (hslots : l.slots.map (·.core) = List.range l.cpus) : l.SingleThreaded where
  length_cores := hcores
  physicalCore_iff := by
    intro cpu core
    rw [physicalCore_eq_ok_iff, ← Option.map_eq_some_iff, ← List.getElem?_map, hslots,
      List.getElem?_eq_some_iff]
    simp only [List.length_range, List.getElem_range, exists_prop]
    omega

/-- Descriptors whose cores have one CPU each make a single-threaded layout. -/
theorem singleThreaded_of_ofDescriptors {cpus : List Descriptor} {l : Layout}
    (h : ofDescriptors cpus = .ok l) (hsingle : ∀ core ∈ l.cores, core.cardinality = 1) :
    l.SingleThreaded := by
  obtain ⟨-, nodes, groups, hnodes, hgroups, hassemble⟩ := ofDescriptors_eq_ok_iff.mp h
  obtain ⟨-, -, rfl⟩ := Parts.assemble_eq_ok_iff.mp hassemble
  let keys := cpus.map fun d => (d.socketId, d.coreId)
  have hnodup : keys.Nodup := by
    refine Numbering.nodup_of_cardinality fun mask hmask => ?_
    obtain ⟨id, hid⟩ := List.mem_iff_getElem?.mp hmask
    exact hsingle _ (List.mem_of_getElem? (Parts.getElem?_number_of _ hid))
  have hlength : keys.length = cpus.length := List.length_map _
  refine singleThreaded_of_slots ?cores ?slots
  case cores =>
    rw [Layout.length_cores]
    show (Numbering.masks keys).length = cpus.length
    rw [Numbering.masks, List.length_map, Numbering.classes_of_nodup hnodup, hlength]
  case slots =>
    have hcore := (slots_partsOfDescriptors (keyed_of_uniform? hnodes)
      (keyed_of_uniform? hgroups)).2.1
    exact hcore.trans ((Numbering.numbers_of_nodup hnodup).trans (congrArg List.range hlength))

/-- The flat layout is single-threaded. -/
theorem singleThreaded_flat (cpus : Nat) : (flat cpus).SingleThreaded := by
  refine singleThreaded_of_slots ?cores ?slots
  case cores => simp [flat, Layout.cpus]
  case slots => simp [flat, Layout.cpus, Function.comp_def]

/-- A described layout whose cores have one CPU each is single-threaded. -/
theorem Described.singleThreaded {l : Layout} (h : l.Described)
    (hsingle : ∀ core ∈ l.cores, core.cardinality = 1) : l.SingleThreaded := by
  cases h with
  | descriptors h => exact singleThreaded_of_ofDescriptors h hsingle
  | description h =>
    obtain ⟨cpus, hcpus⟩ := exists_descriptors_of_ofDescription h
    exact singleThreaded_of_ofDescriptors hcpus hsingle
  | flat cpus => exact singleThreaded_flat cpus

/-- A CPU is its only sibling. -/
theorem SingleThreaded.siblings_eq {l : Layout} (h : l.SingleThreaded) {cpu : Nat}
    (hcpu : cpu < l.cpus) : l.siblings cpu = [cpu] := by
  refine List.perm_singleton.mp
    ((List.perm_ext_iff_of_nodup (l.nodup_siblings cpu) (List.nodup_singleton cpu)).mpr ?_)
  intro other
  rw [mem_siblings, h.physicalCore_iff, List.mem_singleton]
  omega

end Layout

/-! ## What two reservations have in common -/

/-- Two reservations are for the same CPU and leave the same behind, in the locks and natively. The
kinds of their handles may differ. -/
structure Outcome.Agrees (a b : Outcome σ Handle) : Prop where
  number_eq : a.result.number = b.result.number
  inventory_eq : a.inventory = b.inventory
  native_eq : a.native = b.native
  call_eq : a.call = b.call

namespace Inventory

/-- What a handle stands for decides what taking it does, not its kind. -/
theorem take_agrees {inv : Inventory} {h h' : Handle} (hcovered : inv.covered h = inv.covered h')
    (hnumber : h.number = h'.number) (backend : Backend σ) (native : σ) (me : ThreadId)
    (bind : Bool) (cpu : Nat) :
    (inv.take backend native me bind h cpu).Agrees (inv.take backend native me bind h' cpu) := by
  unfold take
  rw [hcovered]
  dsimp only
  split
  · split
    · exact ⟨hnumber, rfl, rfl, rfl⟩
    · exact ⟨hnumber, rfl, rfl, rfl⟩
  · exact ⟨hnumber, rfl, rfl, rfl⟩

section SingleThreaded

variable {inv : Inventory} (hsingle : inv.layout.SingleThreaded) (hwf : inv.WellFormed)
  (hzero : inv.policy.isReservable 0 = false)

include hsingle in
/-- The core of a CPU stands for the CPU. -/
theorem covered_wholeCore {cpu : Nat} (hcpu : cpu < inv.layout.cpus) :
    inv.covered (.wholeCore cpu) = inv.covered (.cpu cpu) := by
  obtain ⟨slot, hslot, hcore⟩ :=
    Layout.physicalCore_eq_ok_iff.mp (hsingle.physicalCore_iff.mpr ⟨rfl, hcpu⟩)
  simp only [covered, hslot, hcore, hsingle.siblings_eq hcpu]

include hwf in
theorem WellFormed.lt_cpus_of_available {alive : ThreadId → Bool} {cpu : Nat}
    (havailable : inv.available alive cpu = true) : cpu < inv.layout.cpus :=
  hwf.length_eq ▸ (takeable_iff.mpr havailable).lt_cpus

include hwf hzero in
/-- A CPU that is not reservable is never available. -/
theorem WellFormed.available_zero (alive : ThreadId → Bool) : inv.available alive 0 = false := by
  refine Bool.eq_false_iff.mpr fun havailable => ?_
  obtain ⟨lock, hlock, hreservable, -⟩ := takeable_iff.mpr havailable
  rw [(hwf.fits 0 lock hlock).reservable_eq, hzero] at hreservable
  cases hreservable

include hsingle hwf hzero

/-- Under one strategy the search for a core is the search for a CPU. -/
theorem find?_coreSuits (alive : ThreadId → Bool) (s : Strategy) (ids : List Int) :
    (List.range inv.layout.cores.length).reverse.find? (inv.coreSuits alive s ids) =
      inv.highest? fun cpu => inv.available alive cpu && inv.suits s ids cpu := by
  have hcount : inv.layout.cores.length = inv.cpus := hsingle.length_cores.trans hwf.length_eq.symm
  rw [hcount, highest?]
  refine List.find?_congr fun cpu hcpu => ?_
  have hlt : cpu < inv.layout.cpus := by
    rw [← hwf.length_eq]
    exact List.mem_range.mp (List.mem_reverse.mp hcpu)
  have hsuits : inv.coreSuits alive s ids cpu =
      (inv.available alive cpu && inv.suits s ids cpu) := by
    simp [coreSuits, hsingle.siblings_eq hlt]
  rw [hsuits]
  cases cpu with
  | zero => simp [hwf.available_zero hzero alive]
  | succ cpu => simp

/-- Where a core is found, its CPU is what the search for a CPU finds. -/
theorem choose?_of_chooseCore? {alive : ThreadId → Bool} {strategies : List Strategy}
    {ids : List Int} {cpu : Nat} (hcore : inv.chooseCore? alive strategies ids = some cpu) :
    inv.choose? alive strategies ids = some cpu := by
  simp only [chooseCore?, find?_coreSuits hsingle hwf hzero] at hcore
  cases strategies with
  | nil =>
    -- without strategies cores are searched by `any`, and CPUs by what all reservations end with
    have hany : ∀ cpu, inv.suits .any ids cpu = true :=
      fun cpu => suited_iff.mp (suited_any ids cpu)
    simpa [choose?, hany] using hcore
  | cons first rest =>
    simp only [List.isEmpty_cons, Bool.false_eq_true, if_false] at hcore
    rw [choose?, hcore, Option.some_or]

end SingleThreaded

end Inventory

/-- Where every core has one CPU and CPU 0 cannot be reserved, a reservation of a core is for the
CPU that a reservation of a CPU would be for, changes the locks in the same way, and makes the same
native call with the same effect. -/
theorem acquireCore_agrees_acquire {inv : Inventory} (hlayout : inv.layout.Described)
    (hsingle : ∀ core ∈ inv.layout.cores, core.cardinality = 1) (hwf : inv.WellFormed)
    (hzero : inv.policy.isReservable 0 = false) (backend : Backend σ) (native : σ)
    (alive : ThreadId → Bool) (me : ThreadId) (bind : Bool) (strategies : List Strategy)
    (ids : List Int) :
    (inv.acquireCore backend native alive me bind strategies ids).Agrees
      (inv.acquire backend native alive me bind strategies ids) := by
  have hcores := hlayout.singleThreaded hsingle
  unfold Inventory.acquireCore
  cases hcore : inv.chooseCore? alive strategies ids with
  | none => exact ⟨rfl, rfl, rfl, rfl⟩
  | some cpu =>
    have hcpu := Inventory.choose?_of_chooseCore? hcores hwf hzero hcore
    have hlt : cpu < inv.layout.cpus :=
      hwf.lt_cpus_of_available (Inventory.choose?_eq_some hcpu).2
    simp only [Option.bind_some, hcores.siblings_eq hlt, List.head?_cons, Inventory.acquire, hcpu]
    exact Inventory.take_agrees (Inventory.covered_wholeCore hcores hlt) rfl ..

/-- Two sockets with two cores of one CPU each. CPU 0 is not reservable, and CPU 3 is held. -/
def Inventory.twoByTwo : Inventory :=
  let layout := (Layout.partsOfDescriptors (Layout.gridDescriptors 2 2 1) none none).layout
  (new layout ⟨Mask.full 4, Mask.ofIndices 4 [1, 2, 3]⟩).assign [3] ⟨0⟩

/-- A core or a CPU on the socket of CPU 3 is asked for. -/
theorem acquireCore_agrees_acquire_two_by_two :
    let inv := Inventory.twoByTwo
    let native := Simulated.forLayout inv.layout
    let alive : ThreadId → Bool := fun _ => true
    inv.layout.Described ∧ (∀ core ∈ inv.layout.cores, core.cardinality = 1) ∧ inv.WellFormed ∧
      inv.policy.isReservable 0 = false ∧
      (inv.acquireCore Simulated.backend native alive ⟨1⟩ true [.sameSocket] [3]).Agrees
        (inv.acquire Simulated.backend native alive ⟨1⟩ true [.sameSocket] [3]) ∧
      (inv.acquireCore Simulated.backend native alive ⟨1⟩ true [.sameSocket] [3]).result =
        .wholeCore 2 := by
  intro inv native alive
  have hlayout : Layout.ofDescription "2/2/1" = .ok Inventory.twoByTwo.layout := by cbv
  have hsingle : ∀ core ∈ Inventory.twoByTwo.layout.cores, core.cardinality = 1 := by
    have hall : (Inventory.twoByTwo.layout.cores.all fun core => core.cardinality == 1) = true := by
      cbv
    simpa using hall
  have hwf : Inventory.twoByTwo.WellFormed :=
    (Inventory.Revises.update fun _ lock hfits => hfits.give ⟨0⟩ lock.bound).wellFormed (.new ..)
  have hzero : Inventory.twoByTwo.policy.isReservable 0 = false := by cbv
  have hresult : (Inventory.twoByTwo.acquireCore Simulated.backend
      (Simulated.forLayout Inventory.twoByTwo.layout) (fun _ => true) ⟨1⟩ true [.sameSocket]
      [3]).result = .wholeCore 2 := by
    cbv
  exact ⟨.description hlayout, hsingle, hwf, hzero,
    acquireCore_agrees_acquire (.description hlayout) hsingle hwf hzero .., hresult⟩

end CpuPlacement
