import CpuPlacement.Layout.OfRecords
import CpuPlacement.Proofs.Layout.Tiling

/-!
# Which mask a CPU is in

`CpuNumbering.assign` turns the masks of one kind into the owner of every CPU. Where it succeeds, no
CPU is claimed by two masks, so that a CPU is in a mask exactly when the mask is its owner
(`assign_settles`). The CPUs of a mask are the ones that a layout with the same bases reads from it.
-/

set_option autoImplicit false

namespace CpuPlacement.CpuNumbering

variable {n : CpuNumbering}

/-- The number of the mask that a CPU is in. -/
def ownerAt (owners : List (Option Nat)) (cpu : Nat) : Option Nat :=
  owners[cpu]?.bind id

/-- The owners of the CPUs say which of the masks each CPU is in. -/
structure Settles (n : CpuNumbering) (masks : List Mask) (owners : List (Option Nat)) : Prop where
  exists_mask : ∀ {cpu id : Nat}, ownerAt owners cpu = some id →
    cpu < n.total ∧ ∃ mask, masks[id]? = some mask
  mem_cpusOf_iff : ∀ {l : Layout}, l.groupBases = n.bases → ∀ {id : Nat} {mask : Mask},
    masks[id]? = some mask → ∀ cpu, cpu ∈ l.cpusOf mask ↔ ownerAt owners cpu = some id
  inhabited : ∀ {l : Layout}, l.groupBases = n.bases → ∀ {mask : Mask}, mask ∈ masks →
    mask.isEmpty = false → l.cpusOf mask ≠ []

/-! ## The CPUs of one mask -/

/-- What a numbering reads from a mask is what a layout with its bases does. -/
theorem cpusOf_eq_ok {l : Layout} (hbases : l.groupBases = n.bases) {mask : Mask} {cpus : List Nat}
    (h : n.cpusOf mask = .ok cpus) :
    l.cpusOf mask = cpus ∧ (∀ cpu ∈ cpus, cpu < n.total) ∧ (mask.isEmpty = false → cpus ≠ []) := by
  obtain ⟨cpuAt, hat, h⟩ := bind_eq_ok_iff.mp h
  simp only at h
  split at h
  · cases h
  · next hfound =>
    cases h
    refine ⟨?_, fun cpu hcpu => ?_, fun hnonempty hnil => ?_⟩
    · cases mask with
      | bitset length bits =>
        cases hat
        exact (List.map_id _).symm
      | group id bits =>
        rw [CpuNumbering.cpuAt] at hat
        rw [Layout.cpusOf, Layout.groupBase?, hbases]
        cases hbase : n.bases.lookup id with
        | none => simp [hbase] at hat
        | some base =>
          rw [hbase] at hat
          cases hat
          rfl
    · have hbelow := List.find?_eq_none.mp hfound cpu hcpu
      simpa using hbelow
    · have hindices : mask.indices = [] := List.map_eq_nil_iff.mp hnil
      refine Bool.eq_false_iff.mp hnonempty (Mask.isEmpty_iff.mpr fun index => ?_)
      refine Bool.eq_false_iff.mpr fun htest => ?_
      have hmem := Mask.mem_indices.mpr htest
      rw [hindices] at hmem
      cases hmem

/-! ## Claims -/

/-- Every mask has its claim, and no CPU is in two claims or in one and already taken. -/
theorem claims_eq_ok {kind : RecordKind} {masks : List Mask} {taken : List Nat}
    {claimed : List (List Nat)} (h : n.claims kind taken masks = .ok claimed) :
    claimed.length = masks.length ∧
      (∀ {id : Nat} {mask : Mask}, masks[id]? = some mask →
        ∃ cpus, claimed[id]? = some cpus ∧ n.cpusOf mask = .ok cpus) ∧
      claimed.Pairwise (fun a b => ∀ cpu ∈ a, cpu ∉ b) ∧
      ∀ cpus ∈ claimed, ∀ cpu ∈ cpus, cpu ∉ taken := by
  -- induction on the masks with what is taken so far: each claim is free of all before it
  induction masks generalizing taken claimed with
  | nil =>
    cases h
    exact ⟨rfl, fun hmask => by simp at hmask, List.Pairwise.nil, nofun⟩
  | cons first rest ih =>
    obtain ⟨cpus, hcpus, h⟩ := bind_eq_ok_iff.mp h
    split at h
    · cases h
    · next hfound =>
      obtain ⟨others, hothers, h⟩ := bind_eq_ok_iff.mp h
      cases h
      obtain ⟨hlength, hclaims, hdisjoint, hfree⟩ := ih hothers
      refine ⟨congrArg (· + 1) hlength, fun {id mask} hmask => ?_, ?_, ?_⟩
      · cases id with
        | zero =>
          cases hmask
          exact ⟨cpus, rfl, hcpus⟩
        | succ id => exact hclaims hmask
      · refine List.pairwise_cons.mpr ⟨fun other hother cpu hcpu hagain => ?_, hdisjoint⟩
        exact hfree other hother cpu hagain (List.mem_append_left taken hcpu)
      · intro other hother cpu hcpu htaken
        rcases List.mem_cons.mp hother with rfl | hother
        · have hnot := List.find?_eq_none.mp hfound cpu hcpu
          exact hnot (List.contains_iff_mem.mpr htaken)
        · exact hfree other hother cpu hcpu (List.mem_append_right cpus htaken)

/-- Where no CPU is in two claims, the first claim that a CPU is in is the only one. -/
theorem findIdx?_claims_eq_some_iff {claimed : List (List Nat)}
    (hdisjoint : claimed.Pairwise fun a b => ∀ cpu ∈ a, cpu ∉ b) {cpu id : Nat} :
    claimed.findIdx? (·.contains cpu) = some id ↔
      ∃ cpus, claimed[id]? = some cpus ∧ cpu ∈ cpus := by
  rw [List.findIdx?_eq_some_iff_getElem]
  constructor
  · rintro ⟨hlt, hcontains, -⟩
    exact ⟨claimed[id], List.getElem?_eq_getElem hlt, List.contains_iff_mem.mp hcontains⟩
  · rintro ⟨cpus, hcpus, hcpu⟩
    obtain ⟨hlt, rfl⟩ := List.getElem?_eq_some_iff.mp hcpus
    refine ⟨hlt, List.contains_iff_mem.mpr hcpu, fun earlier hearlier hcontains => ?_⟩
    have hapart := List.pairwise_iff_getElem.mp hdisjoint earlier id (by omega) hlt hearlier
    exact hapart cpu (List.contains_iff_mem.mp hcontains) hcpu

/-- An assignment that succeeds names for each CPU the one mask that it is in. -/
theorem assign_settles {kind : RecordKind} {masks : List Mask} {owners : List (Option Nat)}
    (h : n.assign kind masks = .ok owners) : n.Settles masks owners := by
  unfold assign at h
  split at h
  · next claimed hclaimed =>
    cases h
    obtain ⟨hlength, hclaims, hdisjoint, -⟩ := claims_eq_ok hclaimed
    -- claims are disjoint, so the first claim of a CPU is the only one
    have howner : ∀ {cpu id : Nat}, ownerAt (n.owners claimed) cpu = some id ↔
        cpu < n.total ∧ ∃ cpus, claimed[id]? = some cpus ∧ cpu ∈ cpus := by
      intro cpu id
      rw [← findIdx?_claims_eq_some_iff hdisjoint, ownerAt, CpuNumbering.owners, List.getElem?_map]
      by_cases hcpu : cpu < n.total
      · simp [hcpu]
      · simp [hcpu]
    refine ⟨fun {cpu id} hcpu => ?_, fun {l} hbases {id mask} hmask cpu => ?_,
      fun {l} hbases {mask} hmask hnonempty => ?_⟩
    · obtain ⟨hlt, cpus, hcpus, -⟩ := howner.mp hcpu
      have hid : id < masks.length := hlength ▸ (List.getElem?_eq_some_iff.mp hcpus).1
      exact ⟨hlt, _, List.getElem?_eq_getElem hid⟩
    · obtain ⟨cpus, hcpus, hread⟩ := hclaims hmask
      obtain ⟨hsame, hbelow, -⟩ := cpusOf_eq_ok hbases hread
      rw [howner, hsame]
      constructor
      · exact fun hcpu => ⟨hbelow cpu hcpu, cpus, hcpus, hcpu⟩
      · rintro ⟨-, other, hother, hcpu⟩
        rw [hcpus] at hother
        exact Option.some.inj hother ▸ hcpu
    · obtain ⟨id, hid⟩ := List.mem_iff_getElem?.mp hmask
      obtain ⟨cpus, -, hread⟩ := hclaims hid
      obtain ⟨hsame, -, hsome⟩ := cpusOf_eq_ok hbases hread
      exact hsame.symm ▸ hsome hnonempty
  · cases h

/-- Masks that settle every CPU divide the parts whose slots are made from the owners. -/
theorem Settles.divides {p : Parts} {masks : List Mask} {owners : List (Option Nat)}
    {owner? : Slot → Option Nat} (settles : n.Settles masks owners)
    (hbases : p.groupBases = n.bases) (hascends : Mask.Ascends masks)
    (hnonempty : ∀ mask ∈ masks, mask.isEmpty = false)
    (howner : ∀ cpu, p.ownerOf? owner? cpu = ownerAt owners cpu)
    (hcovered : ∀ cpu < p.slots.length, ∃ id, ownerAt owners cpu = some id) :
    p.Divides owner? masks where
  ascends := hascends
  inhabited := fun mask hmask => settles.inhabited hbases hmask (hnonempty mask hmask)
  covers := by
    intro slot hslot
    obtain ⟨cpu, hcpu⟩ := List.mem_iff_getElem?.mp hslot
    obtain ⟨id, hid⟩ := hcovered cpu (List.getElem?_eq_some_iff.mp hcpu).1
    obtain ⟨-, mask, hmask⟩ := settles.exists_mask hid
    refine ⟨id, mask, ?_, hmask⟩
    rwa [← howner, Parts.ownerOf?, hcpu, Option.bind_some] at hid
  mem_cpusOf_iff := by
    intro id mask hmask cpu
    rw [settles.mem_cpusOf_iff hbases hmask, howner]

end CpuPlacement.CpuNumbering
