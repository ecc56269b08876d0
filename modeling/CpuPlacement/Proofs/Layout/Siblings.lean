import CpuPlacement.Proofs.Layout.Addressed

/-!
# The siblings of a core

A core's siblings are listed by going through all CPUs and asking each for its core. The lists
divide the CPUs: every CPU is in the list of its own core and in no other, no core is without CPUs,
and a list is in the order of the thread ids (`Layout.Constructed.siblings`). CPUs with equal thread
ids stay in the order of their numbers, so a list begins with the lowest of the CPUs with the
smallest thread id (`Layout.leads_of_head?`).
-/

set_option autoImplicit false

namespace CpuPlacement.Layout

/-- The lists of siblings divide the CPUs by their physical cores, each list in the order of the
thread ids. -/
structure Siblings (l : Layout) : Prop where
  mem_iff : ∀ {cpu core : Nat}, cpu ∈ l.siblings core ↔ l.physicalCore cpu = .ok core
  exists_core : ∀ cpu < l.cpus, ∃ core < l.cores.length, l.physicalCore cpu = .ok core
  lt_cpus : ∀ {cpu core : Nat}, cpu ∈ l.siblings core → cpu < l.cpus
  nonempty : ∀ core < l.cores.length, l.siblings core ≠ []
  nodup : ∀ core, (l.siblings core).Nodup
  ordered : ∀ core, (l.siblings core).Pairwise fun a b => ∀ {x y : Descriptor},
    l.descriptor a = .ok x → l.descriptor b = .ok y → x.threadId ≤ y.threadId

/-- Exactly the CPUs have descriptors. -/
theorem exists_descriptor_iff {l : Layout} {cpu : Nat} :
    (∃ d, l.descriptor cpu = .ok d) ↔ cpu < l.cpus := by
  constructor
  · rintro ⟨d, hd⟩
    exact (List.getElem?_eq_some_iff.mp (descriptor_eq_ok_iff.mp hd)).1
  · intro hcpu
    exact ⟨_, descriptor_eq_ok_iff.mpr (List.getElem?_eq_getElem hcpu)⟩

/-- The CPUs of a core in the order of their numbers, which is how its siblings are found. -/
def members (l : Layout) (core : Nat) : List Nat :=
  l.slots.zipIdx.filterMap fun (slot, cpu) => if slot.core = core then some cpu else none

/-- The members of a core are found in the order of their numbers. -/
theorem pairwise_members (l : Layout) (core : Nat) : (l.members core).Pairwise (· < ·) := by
  have hplaces : l.slots.zipIdx.Pairwise fun a b => a.2 < b.2 := by
    refine List.pairwise_map.mp ?_
    show (l.slots.zipIdx.map Prod.snd).Pairwise (· < ·)
    rw [List.zipIdx_map_snd]
    exact List.pairwise_lt_range'
  refine List.pairwise_filterMap.mpr (hplaces.imp ?_)
  intro a b hlt x hx y hy
  simp only [Option.ite_none_right_eq_some, Option.some.injEq] at hx hy
  rw [← hx.2, ← hy.2]
  exact hlt

theorem mem_members {l : Layout} {cpu core : Nat} :
    cpu ∈ l.members core ↔ l.physicalCore cpu = .ok core :=
  List.mem_mergeSort.symm.trans mem_siblings

/-- The thread id of the first CPU is not larger; a CPU that there is not counts as 0. -/
def threadIdLE (l : Layout) (a b : Nat) : Bool :=
  let threadId cpu := (l.descriptors[cpu]?.map (·.threadId)).getD 0
  threadId a ≤ threadId b

theorem siblings_eq (l : Layout) (core : Nat) :
    l.siblings core = (l.members core).mergeSort l.threadIdLE := rfl

theorem threadIdLE_trans {l : Layout} (a b c : Nat) (hab : l.threadIdLE a b = true)
    (hbc : l.threadIdLE b c = true) : l.threadIdLE a c = true := by
  rw [threadIdLE, decide_eq_true_iff] at hab hbc ⊢
  exact Nat.le_trans hab hbc

theorem threadIdLE_total {l : Layout} (a b : Nat) :
    (l.threadIdLE a b || l.threadIdLE b a) = true := by
  simp only [threadIdLE, Bool.or_eq_true, decide_eq_true_iff]
  exact Nat.le_total _ _

/-- CPUs with descriptors are compared by what these say. -/
theorem threadIdLE_iff {l : Layout} {a b : Nat} {x y : Descriptor} (hx : l.descriptor a = .ok x)
    (hy : l.descriptor b = .ok y) : l.threadIdLE a b = true ↔ x.threadId ≤ y.threadId := by
  simp only [threadIdLE, descriptor_eq_ok_iff.mp hx, descriptor_eq_ok_iff.mp hy, Option.map_some,
    Option.getD_some, decide_eq_true_iff]

/-- No CPU is listed twice. -/
theorem nodup_siblings (l : Layout) (core : Nat) : (l.siblings core).Nodup := by
  rw [siblings_eq, (List.mergeSort_perm ..).nodup_iff]
  exact (l.pairwise_members core).imp Nat.ne_of_lt

/-- Siblings are in the order of their thread ids. -/
theorem ordered_siblings (l : Layout) (core : Nat) :
    (l.siblings core).Pairwise fun a b => ∀ {x y : Descriptor},
      l.descriptor a = .ok x → l.descriptor b = .ok y → x.threadId ≤ y.threadId := by
  rw [siblings_eq]
  exact (List.pairwise_mergeSort threadIdLE_trans threadIdLE_total _).imp
    fun hle _ _ hx hy => (threadIdLE_iff hx hy).mp hle

/-- The CPU is the first of the core: none of its siblings has a smaller thread id, nor the same
thread id and a smaller number. -/
def Leads (l : Layout) (core first : Nat) : Prop :=
  l.physicalCore first = .ok core ∧ ∀ cpu, l.physicalCore cpu = .ok core →
    ∃ x y, l.descriptor first = .ok x ∧ l.descriptor cpu = .ok y ∧
      (x.threadId < y.threadId ∨ x.threadId = y.threadId ∧ first ≤ cpu)

/-- Siblings with the same thread id stay in the order of their numbers. -/
theorem pair_sublist_siblings {l : Layout} {core a b : Nat} {x y : Descriptor}
    (ha : l.physicalCore a = .ok core) (hb : l.physicalCore b = .ok core)
    (hx : l.descriptor a = .ok x) (hy : l.descriptor b = .ok y) (hsame : x.threadId = y.threadId)
    (hlt : a < b) : [a, b].Sublist (l.siblings core) := by
  have hmembers : [a, b].Sublist (l.members core) := by
    have hsub : ∀ cpu ∈ [a, b], cpu ∈ l.members core :=
      List.forall_mem_cons.mpr
        ⟨mem_members.mpr ha, List.forall_mem_singleton.mpr (mem_members.mpr hb)⟩
    have hnodup : [a, b].Nodup := List.pairwise_pair.mpr (Nat.ne_of_lt hlt)
    exact List.sublist_of_subperm_of_pairwise (List.subperm_of_subset hnodup hsub)
      (List.pairwise_pair.mpr hlt) (l.pairwise_members core)
  have hle : l.threadIdLE a b = true := (threadIdLE_iff hx hy).mpr (Nat.le_of_eq hsame)
  rw [siblings_eq]
  exact List.pair_sublist_mergeSort threadIdLE_trans threadIdLE_total hle hmembers

/-- The list of siblings begins with the first of them. -/
theorem leads_of_head? {l : Layout} {core first : Nat}
    (hdescribed : ∀ cpu ∈ l.siblings core, ∃ d, l.descriptor cpu = .ok d)
    (hfirst : (l.siblings core).head? = some first) : l.Leads core first := by
  obtain ⟨rest, hsplit⟩ := List.head?_eq_some_iff.mp hfirst
  have hordered := l.ordered_siblings core
  have hnodup := l.nodup_siblings core
  have hmem : first ∈ l.siblings core := List.mem_of_head? hfirst
  refine ⟨mem_siblings.mp hmem, fun cpu hcpu => ?_⟩
  obtain ⟨x, hx⟩ := hdescribed first hmem
  obtain ⟨y, hy⟩ := hdescribed cpu (mem_siblings.mpr hcpu)
  refine ⟨x, y, hx, hy, ?_⟩
  rw [hsplit] at hordered hnodup
  rcases List.mem_cons.mp (hsplit ▸ mem_siblings.mpr hcpu) with rfl | hrest
  · cases Except.ok.inj (hx.symm.trans hy)
    exact .inr ⟨rfl, Nat.le_refl _⟩
  · rcases Nat.lt_or_eq_of_le (List.rel_of_pairwise_cons hordered hrest hx hy) with hlt | hsame
    · exact .inl hlt
    · refine .inr ⟨hsame, Nat.le_of_not_lt fun hlt => ?_⟩
      -- a smaller CPU with the same thread id would come before the first
      have hpair := pair_sublist_siblings hcpu (mem_siblings.mp hmem) hy hx hsame.symm hlt
      rw [hsplit] at hpair
      rcases List.sublist_cons_iff.mp hpair with hlater | ⟨_, heq, -⟩
      · have hagain : first ∈ rest := hlater.subset (by simp)
        exact (List.nodup_cons.mp hnodup).1 hagain
      · exact Nat.ne_of_lt hlt (List.cons.inj heq).1

theorem length_cores (p : Parts) : p.layout.cores.length = p.coreMasks.length := by
  show (Parts.number p.coreMasks p.coreRole).length = p.coreMasks.length
  rw [Parts.number, List.length_map, List.length_zipIdx]

/-- The lists of siblings divide the CPUs of any layout that there is. -/
theorem Constructed.siblings {l : Layout} (h : l.Constructed) : l.Siblings where
  mem_iff := mem_siblings
  exists_core := by
    intro cpu hcpu
    obtain ⟨p, haddressed, rfl⟩ := h.exists_addressed
    obtain ⟨slot, hslot⟩ := haddressed.exists_slot hcpu
    obtain ⟨core, hcore⟩ := haddressed.exists_core hslot
    refine ⟨slot.core, ?_, physicalCore_eq_ok_iff.mpr ⟨slot, hslot, rfl⟩⟩
    rw [length_cores]
    exact (List.getElem?_eq_some_iff.mp hcore).1
  lt_cpus := by
    intro cpu core hcpu
    obtain ⟨slot, hslot, -⟩ := physicalCore_eq_ok_iff.mp (mem_siblings.mp hcpu)
    exact h.length_slots ▸ (List.getElem?_eq_some_iff.mp hslot).1
  nonempty := by
    intro core hcore
    obtain ⟨p, haddressed, rfl⟩ := h.exists_addressed
    rw [length_cores] at hcore
    obtain ⟨cpu, slot, hslot, hin⟩ :=
      haddressed.cores.exists_cpu (List.getElem?_eq_getElem hcore)
    exact List.ne_nil_of_mem (mem_siblings.mpr (physicalCore_eq_ok_iff.mpr
      ⟨slot, hslot, Option.some.inj hin⟩))
  nodup := nodup_siblings l
  ordered := ordered_siblings l

end CpuPlacement.Layout
