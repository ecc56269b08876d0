import CpuPlacement.Proofs.Layout.Described
import CpuPlacement.Proofs.Layout.Hierarchy
import CpuPlacement.Proofs.Layout.Recorded
import Mathlib

/-!
# Uniform machines

A layout reports how many cores a socket has and how many threads a core has, one number for all of
them. The numbers are right for every socket and every core of a uniform machine. What is checked is
one equation alone: the CPUs are as many as sockets times cores times threads, where the cores of a
socket are an average that is rounded down, and the threads of a core are the thread ids that occur
anywhere.

The equation says that no core has a thread missing once the sockets are known to have equally many
cores and the threads of a core to differ in their ids: then no core has more CPUs than there are
thread ids, and together they have as many as that allows (`eq_of_sum_eq`). Neither is checked.
-/

set_option autoImplicit false

namespace CpuPlacement

/-! ## Counting -/

/-- Elements that each belong to one of several classes are as many as the classes have together. -/
theorem sum_countP_eq_length {α β : Type} [DecidableEq β] {classes : List β}
    (hnodup : classes.Nodup) (f : α → β) {xs : List α} (hclass : ∀ x ∈ xs, f x ∈ classes) :
    (classes.map fun c => xs.countP fun x => f x = c).sum = xs.length := by
  induction xs with
  | nil => simp
  | cons first rest ih =>
    obtain ⟨hfirst, hrest⟩ := List.forall_mem_cons.mp hclass
    have hone : (classes.map fun c => if f first = c then 1 else 0).sum = 1 := by
      rw [List.sum_map_eq_nsmul_single (f first) _ fun c hne _ => if_neg (Ne.symm hne),
        List.count_eq_one_of_mem hnodup hfirst, if_pos rfl, one_nsmul]
    simp only [List.countP_cons, decide_eq_true_eq, List.sum_map_add, ih hrest, hone,
      List.length_cons]

/-- Numbers that together are as large as a common bound allows are all equal to it. -/
theorem eq_of_sum_eq {α : Type} {f : α → Nat} {bound : Nat} {xs : List α}
    (hle : ∀ x ∈ xs, f x ≤ bound) (hsum : (xs.map f).sum = xs.length * bound) :
    ∀ x ∈ xs, f x = bound := by
  induction xs with
  | nil => exact nofun
  | cons first rest ih =>
    obtain ⟨hfirst, hrest⟩ := List.forall_mem_cons.mp hle
    have hothers : (rest.map f).sum ≤ rest.length * bound := by
      simpa using List.sum_le_card_nsmul (rest.map f) bound (by simpa using hrest)
    rw [List.map_cons, List.sum_cons, List.length_cons, Nat.succ_mul] at hsum
    exact List.forall_mem_cons.mpr ⟨by omega, ih hrest (by omega)⟩

/-- The places of a list where something holds are as many as its elements of which it holds. -/
theorem countP_range {α : Type} (xs : List α) (q : α → Bool) :
    (List.range xs.length).countP (fun i => xs[i]?.any q) = xs.countP q := by
  have hmap : (List.range xs.length).map (xs[·]?) = xs.map some := by
    refine List.ext_getElem? fun i => ?_
    by_cases hi : i < xs.length
    · simp [hi]
    · simp [hi]
  have hcount := congrArg (List.countP (·.any q)) hmap
  simpa only [List.countP_map, Function.comp_def, Option.any_some] using hcount

/-! ## What a uniform machine is -/

namespace Layout

/-- No two CPUs are the same thread of the same core. -/
def DistinctThreads (l : Layout) : Prop :=
  (l.descriptors.map fun d => (d.socketId, d.coreId, d.threadId)).Nodup

/-- All sockets contain equally many cores. -/
def EvenSockets (l : Layout) : Prop :=
  ∃ cores, ∀ socket ∈ l.sockets, l.cores.countP socket.contains = cores

/-- The counts that the layout reports are those of every socket and of every core. -/
structure Uniform (l : Layout) : Prop where
  cores_of_socket : ∀ socket ∈ l.sockets, l.cores.countP socket.contains = l.coresPerSocket
  cpus_of_core : ∀ core ∈ l.cores, (l.cpusOf core.mask).length = l.threadsPerCore
  core_count : l.cores.length = l.socketCount * l.coresPerSocket
  distinct : l.DistinctThreads

end Layout

namespace Parts

variable {p : Parts}

/-- CPUs of one core have the same socket id and the same core id. -/
def NamesCores (p : Parts) : Prop :=
  ∀ {a b core : Nat}, p.ownerOf? (some ·.core) a = some core →
    p.ownerOf? (some ·.core) b = some core →
    (p.descriptors.map fun d => (d.socketId, d.coreId))[a]? =
      (p.descriptors.map fun d => (d.socketId, d.coreId))[b]?

/-! ## The cores of the sockets -/

namespace Tiled

/-- A socket contains the cores that name it. -/
theorem contains_iff_socket? (tiled : p.Tiled) (hfits : p.layout.misplacement? = none)
    {socket core : Entity} (hsocket : socket ∈ p.layout.sockets) (hcore : core ∈ p.layout.cores) :
    socket.contains core = true ↔ core.socket? = some socket.id := by
  obtain ⟨hsocketMask, -⟩ := mem_number.mp hsocket
  obtain ⟨hcoreMask, hrole⟩ := mem_number.mp hcore
  obtain ⟨socketId, outer, hcoreRole, houter, hsub, hcpus⟩ := tiled.core_in_socket hfits hcoreMask
  have hnamed : core.socket? = some socketId := by rw [Entity.socket?, hrole, hcoreRole]
  rw [hnamed, Option.some.injEq]
  constructor
  · intro hcontains
    obtain ⟨cpu, slot, hslot, hid⟩ := tiled.cores.exists_cpu hcoreMask
    have hcpu := Layout.maskContains_of_subset (tiled.cores_hold hslot hid hcoreMask) hcontains
    have howner := tiled.sockets.owner_of_maskContains tiled hsocketMask hslot hcpu
    exact (hcpus hslot (Option.some.inj hid)).1.symm.trans (Option.some.inj howner)
  · rintro rfl
    cases Option.some.inj (houter.symm.trans hsocketMask)
    exact hsub

/-- The cores of all sockets together are all cores. -/
theorem sum_cores (tiled : p.Tiled) (hfits : p.layout.misplacement? = none) :
    (p.layout.sockets.map fun socket => p.layout.cores.countP socket.contains).sum =
      p.layout.cores.length := by
  let ids := p.layout.sockets.map fun socket => some socket.id
  have hnodup : ids.Nodup := by
    have hids : ids = (p.layout.sockets.map (·.id)).map some := (List.map_map ..).symm
    exact hids ▸ (nodup_id_number p.socketMasks p.socketRole).map (Option.some_injective Nat)
  have hclass : ∀ core ∈ p.layout.cores, core.socket? ∈ ids := by
    intro core hcore
    obtain ⟨socket, hbind, -⟩ := tiled.core_subset hfits hcore
    obtain ⟨id, hid, hsocket⟩ := Option.bind_eq_some_iff.mp hbind
    have hsame : socket.id = id := by
      obtain ⟨mask, -, rfl⟩ := Option.map_eq_some_iff.mp ((getElem?_number id).symm.trans hsocket)
      rfl
    exact List.mem_map.mpr ⟨socket, List.mem_of_getElem? hsocket, by rw [hid, hsame]⟩
  rw [← sum_countP_eq_length hnodup Entity.socket? hclass, List.map_map]
  refine congrArg List.sum (List.map_congr_left fun socket hsocket => ?_)
  refine List.countP_congr fun core hcore => ?_
  rw [decide_eq_true_iff]
  exact tiled.contains_iff_socket? hfits hsocket hcore

/-- Sockets with equally many cores have as many as are reported. -/
theorem cores_of_socket (tiled : p.Tiled) (hfits : p.layout.misplacement? = none)
    (heven : p.layout.EvenSockets) :
    (∀ socket ∈ p.layout.sockets, p.layout.cores.countP socket.contains = p.coresPerSocket) ∧
      p.layout.cores.length = p.socketCount * p.coresPerSocket := by
  obtain ⟨count, hcount⟩ := heven
  have hsockets : p.layout.sockets.length = p.socketCount := by simp [layout, number, socketCount]
  have hcores : p.layout.cores.length = p.coreMasks.length := by simp [layout, number]
  have htotal : p.coreMasks.length = p.socketCount * count := by
    rw [← hcores, ← tiled.sum_cores hfits, List.map_congr_left hcount, List.map_const',
      List.sum_replicate, hsockets, smul_eq_mul]
  by_cases hnone : p.socketCount = 0
  · have hnil : p.layout.sockets = [] := List.eq_nil_of_length_eq_zero (hsockets.trans hnone)
    refine ⟨fun socket hsocket => absurd (hnil ▸ hsocket) List.not_mem_nil, ?_⟩
    rw [hcores, htotal, hnone, Nat.zero_mul, Nat.zero_mul]
  · have hper : p.coresPerSocket = count := by
      rw [coresPerSocket, htotal, Nat.max_eq_left (Nat.pos_of_ne_zero hnone),
        Nat.mul_div_cancel_left _ (Nat.pos_of_ne_zero hnone)]
    exact ⟨fun socket hsocket => (hcount socket hsocket).trans hper.symm, by
      rw [hcores, htotal, hper]⟩

/-! ## The CPUs of the cores -/

/-- The CPUs of a core are as many as the slots that name it. -/
theorem length_cpusOf_core (tiled : p.Tiled) {id : Nat} {core : Mask}
    (hcore : p.coreMasks[id]? = some core) :
    (p.layout.cpusOf core).length = p.slots.countP fun slot => slot.core = id := by
  have hcpus : p.layout.cpusOf core = (List.range p.slots.length).filter
      fun cpu => p.slots[cpu]?.any fun slot => slot.core = id := by
    refine (Layout.pairwise_cpusOf _ _).eq_of_mem_iff (List.pairwise_lt_range.filter _)
      fun cpu => ?_
    rw [tiled.cores.mem_cpusOf_iff hcore, ownerOf?_eq_some_iff, List.mem_filter, List.mem_range,
      Option.any_eq_true]
    constructor
    · rintro ⟨slot, hslot, hid⟩
      exact ⟨(List.getElem?_eq_some_iff.mp hslot).1, slot, hslot,
        decide_eq_true (Option.some.inj hid)⟩
    · rintro ⟨-, slot, hslot, hid⟩
      exact ⟨slot, hslot, congrArg some (of_decide_eq_true hid)⟩
  rw [hcpus, ← List.countP_eq_length_filter, countP_range]

/-- The CPUs of all cores together are all CPUs. -/
theorem sum_cpusOf (tiled : p.Tiled) :
    (p.layout.cores.map fun core => (p.layout.cpusOf core.mask).length).sum =
      p.descriptors.length := by
  have hclass : ∀ slot ∈ p.slots, slot.core ∈ p.layout.cores.map (·.id) := by
    intro slot hslot
    obtain ⟨id, core, hid, hcore⟩ := tiled.cores.covers slot hslot
    exact List.mem_map.mpr ⟨⟨id, core, p.coreRole core⟩, mem_number.mpr ⟨hcore, rfl⟩,
      (Option.some.inj hid).symm⟩
  have hnodup : (p.layout.cores.map (·.id)).Nodup := nodup_id_number p.coreMasks p.coreRole
  rw [← tiled.slots_length, ← sum_countP_eq_length hnodup Slot.core hclass, List.map_map]
  refine congrArg List.sum (List.map_congr_left fun core hcore => ?_)
  exact tiled.length_cpusOf_core (mem_number.mp hcore).1

/-- A core whose threads differ has no more CPUs than there are thread ids. -/
theorem length_cpusOf_le (tiled : p.Tiled) (hnames : p.NamesCores)
    (hdistinct : p.layout.DistinctThreads) {id : Nat} {core : Mask}
    (hcore : p.coreMasks[id]? = some core) :
    (p.layout.cpusOf core).length ≤ p.threadsPerCore := by
  let thread (cpu : Nat) : Option Nat := (p.descriptors.map (·.threadId))[cpu]?
  have howner : ∀ cpu ∈ p.layout.cpusOf core, p.ownerOf? (some ·.core) cpu = some id :=
    fun cpu hcpu => (tiled.cores.mem_cpusOf_iff hcore cpu).mp hcpu
  have hlt : ∀ cpu ∈ p.layout.cpusOf core, cpu < p.descriptors.length := by
    intro cpu hcpu
    obtain ⟨slot, hslot, -⟩ := ownerOf?_eq_some_iff.mp (howner cpu hcpu)
    exact tiled.lt_cpus hslot
  -- two CPUs of the core with one thread id would be one thread of one core
  have hinjective : ∀ a ∈ p.layout.cpusOf core, ∀ b ∈ p.layout.cpusOf core,
      thread a = thread b → a = b := by
    intro a ha b hb hthread
    have hname := hnames (howner a ha) (howner b hb)
    simp only [thread, List.getElem?_map, List.getElem?_eq_getElem (hlt a ha),
      List.getElem?_eq_getElem (hlt b hb), Option.map_some, Option.some.injEq,
      Prod.mk.injEq] at hthread hname
    refine (List.getElem?_inj (by simpa [layout] using hlt a ha) hdistinct).mp ?_
    simp [layout, hlt a ha, hlt b hb, hname, hthread]
  have hnodup : ((p.layout.cpusOf core).map thread).Nodup :=
    List.Nodup.map_on hinjective (Layout.pairwise_cpusOf _ _).nodup
  have hsub : (p.layout.cpusOf core).map thread ⊆
      (Numbering.classes (p.descriptors.map (·.threadId))).map some := by
    intro value hvalue
    obtain ⟨cpu, hcpu, rfl⟩ := List.mem_map.mp hvalue
    obtain ⟨d, hd⟩ : ∃ d, p.descriptors[cpu]? = some d :=
      ⟨_, List.getElem?_eq_getElem (hlt cpu hcpu)⟩
    have hthread : thread cpu = some d.threadId := by simp [thread, hd]
    rw [hthread]
    refine List.mem_map.mpr ⟨_, Numbering.mem_classes.mpr ?_, rfl⟩
    exact List.mem_map.mpr ⟨d, List.mem_of_getElem? hd, rfl⟩
  have hle := (List.subperm_of_subset hnodup hsub).length_le
  rwa [List.length_map, List.length_map] at hle

/-- Parts that fill the grid are uniform when their sockets and their threads are. -/
theorem uniform_iff (tiled : p.Tiled) (hfits : p.layout.misplacement? = none)
    (hgrid : p.fillsGrid = true) (hnames : p.NamesCores) :
    p.layout.Uniform ↔ p.layout.EvenSockets ∧ p.layout.DistinctThreads := by
  constructor
  · intro huniform
    exact ⟨⟨_, huniform.cores_of_socket⟩, huniform.distinct⟩
  · rintro ⟨heven, hdistinct⟩
    obtain ⟨hsocket, hcount⟩ := tiled.cores_of_socket hfits heven
    refine ⟨hsocket, eq_of_sum_eq (fun core hcore => ?_) ?_, hcount, hdistinct⟩
    · exact tiled.length_cpusOf_le hnames hdistinct (mem_number.mp hcore).1
    · calc (p.layout.cores.map fun core => (p.layout.cpusOf core.mask).length).sum
          = p.descriptors.length := tiled.sum_cpusOf
        _ = p.socketCount * p.coresPerSocket * p.threadsPerCore := beq_iff_eq.mp hgrid
        _ = p.layout.cores.length * p.threadsPerCore := by rw [hcount]

end Tiled

end Parts

/-! ## Where the thread ids come from -/

/-- The cores of descriptors are told apart by their socket ids and core ids. -/
theorem Layout.namesCores_partsOfDescriptors {cpus : List Descriptor}
    {nodes groups : Option (List Nat)} (hnodes : Keyed cpus.length nodes)
    (hgroups : Keyed cpus.length groups) : (partsOfDescriptors cpus nodes groups).NamesCores := by
  intro a b core ha hb
  obtain ⟨-, hcores, -⟩ := slots_partsOfDescriptors hnodes hgroups
  have hnumbers : (partsOfDescriptors cpus nodes groups).slots.map (some ·.core) =
      (Numbering.numbers (cpus.map fun d => (d.socketId, d.coreId))).map some := by
    rw [← hcores, List.map_map]
    rfl
  rw [Parts.ownerOf?_of_map hnumbers] at ha hb
  obtain ⟨key, hkey, ha⟩ := Numbering.getElem?_numbers_eq_some_iff.mp ha
  obtain ⟨other, hother, hb⟩ := Numbering.getElem?_numbers_eq_some_iff.mp hb
  cases Option.some.inj (hkey.symm.trans hother)
  exact ha.trans hb.symm

namespace Record.Accepted

variable {records : List Record} {grouped : Bool} {coverage : Coverage}

/-- The descriptors of parts from records name the cores. -/
theorem namesCores (h : Accepted records grouped coverage)
    (hfits : (parts grouped records coverage).layout.misplacement? = none) :
    (parts grouped records coverage).NamesCores := by
  intro a b core ha hb
  obtain ⟨slot, hslot, hcore⟩ := Parts.ownerOf?_eq_some_iff.mp ha
  obtain ⟨other, hother, hsame⟩ := Parts.ownerOf?_eq_some_iff.mp hb
  obtain ⟨socketOf, hsocketOf⟩ := h.tiled.exists_socketOf hfits
  have hcores : slot.core = other.core := Option.some.inj (hcore.trans hsame.symm)
  have hsockets : slot.socket = other.socket := by
    rw [hsocketOf slot (List.mem_of_getElem? hslot), hsocketOf other (List.mem_of_getElem? hother),
      hcores]
  simp [List.getElem?_map, getElem?_descriptors hslot, getElem?_descriptors hother,
    Layout.describe, hsockets, hcores]

/-- The rank of a CPU in its core tells it from the other CPUs of the core. -/
theorem distinctThreads (h : Accepted records grouped coverage) :
    (parts grouped records coverage).layout.DistinctThreads := by
  refine List.nodup_iff_getElem?_ne_getElem?.mpr fun a b hlt hb hsame => Nat.ne_of_lt hlt ?_
  rw [List.length_map] at hb
  obtain ⟨slot, hslot⟩ := h.tiled.exists_slot (hlt.trans hb)
  obtain ⟨other, hother⟩ := h.tiled.exists_slot hb
  obtain ⟨core, hcore⟩ := h.tiled.exists_core hslot
  have hfirst : (parts grouped records coverage).layout.descriptors[a]? = some _ :=
    getElem?_descriptors hslot
  have hsecond : (parts grouped records coverage).layout.descriptors[b]? = some _ :=
    getElem?_descriptors hother
  rw [List.getElem?_map, List.getElem?_map, hfirst, hsecond] at hsame
  simp only [Option.map_some, Option.some.injEq, Layout.describe, Prod.mk.injEq] at hsame
  obtain ⟨-, hcores, hranks⟩ := hsame
  have ha := h.getElem?_cpusOf_core hslot hcore
  rw [hranks] at ha
  exact Option.some.inj (ha.symm.trans (h.getElem?_cpusOf_core hother (hcores ▸ hcore)))

end Record.Accepted

/-! ## The reported counts -/

/-- The counts of an accepted layout are those of a uniform machine exactly when its sockets have
equally many cores and no two CPUs are the same thread of the same core. Records always tell their
threads apart. -/
theorem uniform_iff_even_sockets_and_distinct_threads {l : Layout}
    (h : (∃ cpus, Layout.ofDescriptors cpus = .ok l) ∨
      ∃ records, Layout.ofRecords records = .ok l) :
    (l.Uniform ↔ l.EvenSockets ∧ l.DistinctThreads) ∧
      ((∃ records, Layout.ofRecords records = .ok l) → l.DistinctThreads) := by
  constructor
  · rcases h with ⟨cpus, h⟩ | ⟨records, h⟩
    · obtain ⟨-, nodes, groups, hnodes, hgroups, hassemble⟩ :=
        Layout.ofDescriptors_eq_ok_iff.mp h
      obtain ⟨hgrid, hfits, rfl⟩ := Parts.assemble_eq_ok_iff.mp hassemble
      have hnodes := Layout.keyed_of_uniform? hnodes
      have hgroups := Layout.keyed_of_uniform? hgroups
      exact (Layout.tiled_partsOfDescriptors hnodes hgroups).uniform_iff hfits hgrid
        (Layout.namesCores_partsOfDescriptors hnodes hgroups)
    · obtain ⟨grouped, coverage, haccepted, hassemble⟩ := Record.exists_accepted_of_ofRecords h
      obtain ⟨hgrid, hfits, rfl⟩ := Parts.assemble_eq_ok_iff.mp hassemble
      exact haccepted.tiled.uniform_iff hfits hgrid (haccepted.namesCores hfits)
  · rintro ⟨records, h⟩
    obtain ⟨grouped, coverage, haccepted, hassemble⟩ := Record.exists_accepted_of_ofRecords h
    obtain ⟨-, -, rfl⟩ := Parts.assemble_eq_ok_iff.mp hassemble
    exact haccepted.distinctThreads

/-- Two sockets with two cores each and two threads for each core. -/
theorem uniform_two_sockets : ∃ l, Layout.ofDescriptors (Layout.gridDescriptors 2 2 2) = .ok l ∧
    (∀ socket ∈ l.sockets, l.cores.countP socket.contains = 2) ∧ l.DistinctThreads ∧
      l.Uniform := by
  obtain ⟨l, hl, hcheck⟩ : ∃ l, Layout.ofDescriptors (Layout.gridDescriptors 2 2 2) = .ok l ∧
      (l.sockets.all (fun socket => l.cores.countP socket.contains == 2) &&
        decide (l.descriptors = Layout.gridDescriptors 2 2 2)) = true :=
    exists_ok_of_any (by cbv)
  obtain ⟨heven, hsame⟩ := Bool.and_eq_true_iff.mp hcheck
  have heven : ∀ socket ∈ l.sockets, l.cores.countP socket.contains = 2 :=
    fun socket hsocket => beq_iff_eq.mp (List.all_eq_true.mp heven socket hsocket)
  have hdistinct : l.DistinctThreads := by
    rw [Layout.DistinctThreads, of_decide_eq_true hsame]
    decide
  exact ⟨l, hl, heven, hdistinct,
    (uniform_iff_even_sockets_and_distinct_threads (.inl ⟨_, hl⟩)).1.mpr ⟨⟨2, heven⟩, hdistinct⟩⟩

/-! ## Machines that are not uniform -/

/-- Two sockets, the first with one core of two threads, the second with two cores of one thread
each. -/
def Layout.unevenCpus : List Descriptor :=
  [⟨0, 0, 0, none, none, none⟩, ⟨0, 0, 1, none, none, none⟩, ⟨1, 0, 0, none, none, none⟩,
    ⟨1, 1, 0, none, none, none⟩]

/-- The same machine as recorded. -/
def Record.unevenPackages : List Record :=
  [⟨.package, .bitset 4 3⟩, ⟨.package, .bitset 4 12⟩, ⟨.core, .bitset 4 3⟩, ⟨.core, .bitset 4 4⟩,
    ⟨.core, .bitset 4 8⟩]

/-- The counts say four CPUs in two sockets with one core of two threads each. But there are three
cores, and the last socket has two of them. -/
theorem not_uniform_three_cores :
    (∃ l, Layout.ofDescriptors Layout.unevenCpus = .ok l ∧ ¬ l.Uniform) ∧
      ∃ l, Layout.ofRecords Record.unevenPackages = .ok l ∧ ¬ l.Uniform := by
  have hcount : ∀ {l : Layout}, (l.cores.length == 3 && l.socketCount == 2) = true →
      ¬ l.Uniform := by
    intro l hcheck huniform
    obtain ⟨hcores, hsockets⟩ := Bool.and_eq_true_iff.mp hcheck
    have hcount := huniform.core_count
    rw [beq_iff_eq.mp hcores, beq_iff_eq.mp hsockets] at hcount
    omega
  obtain ⟨l, hl, hcheck⟩ : ∃ l, Layout.ofDescriptors Layout.unevenCpus = .ok l ∧
      (l.cores.length == 3 && l.socketCount == 2) = true :=
    exists_ok_of_any (by cbv)
  obtain ⟨m, hm, hother⟩ : ∃ m, Layout.ofRecords Record.unevenPackages = .ok m ∧
      (m.cores.length == 3 && m.socketCount == 2) = true :=
    exists_ok_of_any (by cbv)
  exact ⟨⟨l, hl, hcount hcheck⟩, m, hm, hcount hother⟩

end CpuPlacement
