import CpuPlacement.Native.Simulated
import CpuPlacement.Proofs.Layout.Queries
import CpuPlacement.Proofs.Mask.Positions

/-!
# What the simulated machine does

A call that sets a mask fails and changes nothing, or it gives the calling thread that mask and
leaves the other threads alone (`apply_cases`). What the call accepts and where a thread then runs
is said in terms of the layout that the machine was made for: the machine places a group mask by the
same bases as the layout, so a thread runs on the first CPU that the layout reads from its mask
(`Models.currentCpu_remember`).
-/

set_option autoImplicit false

namespace CpuPlacement

/-- What is looked at in a mask before a thread gets it: it is not empty and, if it is a bit-set,
selects only CPUs that there are. -/
structure Mask.Screened (mask : Mask) (cpus : Nat) : Prop where
  nonempty : mask.isEmpty = false
  bitset : mask.isGroup = false → ∀ cpu, mask.test cpu = true → cpu < cpus

namespace Mask.Screened

/-- Of a group mask it is only asked whether it is empty. -/
theorem of_group {cpus id : Nat} {bits : BitVec 64} (h : (Mask.group id bits).isEmpty = false) :
    (Mask.group id bits).Screened cpus :=
  ⟨h, nofun⟩

/-- A mask of all CPUs is in range if there are any. -/
theorem full {cpus : Nat} (hpos : 0 < cpus) : (Mask.full cpus).Screened cpus := by
  refine ⟨?_, fun _ cpu hcpu => ?_⟩
  · rw [Mask.isEmpty_eq, List.isEmpty_eq_false_iff]
    exact List.ne_nil_of_mem (Mask.mem_indices.mpr (by simpa [Mask.test_full] using hpos))
  · simpa [Mask.test_full] using hcpu

end Mask.Screened

namespace Simulated

variable {s : Simulated} {me other : ThreadId} {mask : Mask}

/-! ## Remembering a mask -/

@[simp] theorem cpus_remember : (s.remember me mask).cpus = s.cpus := rfl

@[simp] theorem groupBases_remember : (s.remember me mask).groupBases = s.groupBases := rfl

@[simp] theorem rejecting_remember : (s.remember me mask).rejecting = s.rejecting := rfl

@[simp] theorem masks_remember_self : (s.remember me mask).masks me = some mask :=
  if_pos rfl

theorem masks_remember_of_ne (h : other ≠ me) : (s.remember me mask).masks other = s.masks other :=
  if_neg h

@[simp] theorem mask_remember_self : (s.remember me mask).mask me = mask := by
  rw [Simulated.mask, masks_remember_self, Option.getD_some]

theorem mask_remember_of_ne (h : other ≠ me) : (s.remember me mask).mask other = s.mask other := by
  rw [Simulated.mask, Simulated.mask, masks_remember_of_ne h, cpus_remember]

/-- The thread has the mask. -/
theorem backend_mask_remember_self :
    backend.mask (s.remember me mask) me = .ok mask :=
  congrArg Except.ok mask_remember_self

/-- The other threads have theirs. -/
theorem backend_mask_remember_of_ne (h : other ≠ me) :
    backend.mask (s.remember me mask) other = backend.mask s other :=
  congrArg Except.ok (mask_remember_of_ne h)

/-! ## Calls that set a mask -/

/-- What every mask is asked before a thread gets it. -/
theorem refusal?_eq_none_iff :
    s.refusal? mask = none ↔ s.rejecting = false ∧ mask.isEmpty = false := by
  cases hworking : s.rejecting <;> cases hmask : mask.isEmpty <;> simp [refusal?, hworking, hmask]

/-- A mask is refused, and nothing changes, or it is in range and remembered. -/
theorem setMask_cases (s : Simulated) (me : ThreadId) (mask : Mask) :
    (∃ refusal, s.setMask me mask = (.error refusal, s)) ∨
      mask.Screened s.cpus ∧ s.setMask me mask = (.ok (), s.remember me mask) := by
  unfold setMask
  split
  · next refusal _ => exact Or.inl ⟨refusal, rfl⟩
  · next haccepting =>
    split
    · exact Or.inl ⟨_, rfl⟩
    · next hfound =>
      refine Or.inr ⟨⟨(refusal?_eq_none_iff.mp haccepting).2, fun _ cpu hcpu => ?_⟩, rfl⟩
      have hbelow := List.find?_eq_none.mp hfound cpu (Mask.mem_indices.mpr hcpu)
      simpa using hbelow

/-- A call fails and changes nothing, or the caller has the mask. -/
theorem apply_cases (s : Simulated) (me : ThreadId) (mask : Mask) :
    (∃ refusal, backend.apply s me mask = (.error refusal, s)) ∨
      mask.Screened s.cpus ∧ backend.apply s me mask = (.ok (), s.remember me mask) := by
  cases mask with
  | bitset length bits => exact setMask_cases s me _
  | group id bits =>
    simp only [Backend.apply, backend, setGroup]
    split
    · next refusal _ => exact Or.inl ⟨refusal, rfl⟩
    · next haccepting =>
      by_cases hknown : (s.groupBases.lookup id).isNone = true
      · rw [if_pos hknown]
        exact Or.inl ⟨_, rfl⟩
      · rw [if_neg hknown]
        exact Or.inr ⟨.of_group (refusal?_eq_none_iff.mp haccepting).2, rfl⟩

/-- At most the thread has another mask. -/
def ChangesOnly (s : Simulated) (me : ThreadId) (after : Simulated) : Prop :=
  after = s ∨ ∃ mask, after = s.remember me mask

/-- Setting a mask is about the thread that sets it. -/
theorem changesOnly_setMask : s.ChangesOnly me (s.setMask me mask).2 := by
  rcases setMask_cases s me mask with ⟨refusal, hrefused⟩ | ⟨-, hdone⟩
  · rw [hrefused]
    exact Or.inl rfl
  · rw [hdone]
    exact Or.inr ⟨mask, rfl⟩

/-- The backend changes the mask of the calling thread only. -/
theorem changesOnly_apply : s.ChangesOnly me (backend.apply s me mask).2 := by
  rcases apply_cases s me mask with ⟨refusal, hrefused⟩ | ⟨-, hdone⟩
  · rw [hrefused]
    exact Or.inl rfl
  · rw [hdone]
    exact Or.inr ⟨mask, rfl⟩

/-- The other threads keep their masks. -/
theorem ChangesOnly.backend_mask {after : Simulated} (h : s.ChangesOnly me after)
    (hother : other ≠ me) : backend.mask after other = backend.mask s other := by
  rcases h with rfl | ⟨mask, rfl⟩
  · rfl
  · exact backend_mask_remember_of_ne hother

/-- A bit-set of CPUs of the machine is accepted. -/
theorem setMask_eq_ok (hworking : s.rejecting = false) (hmask : mask.isEmpty = false)
    (hbelow : ∀ cpu, mask.test cpu = true → cpu < s.cpus) :
    s.setMask me mask = (.ok (), s.remember me mask) := by
  have hfound : mask.indices.find? (s.cpus ≤ ·) = none := by
    apply List.find?_eq_none.mpr
    intro cpu hcpu
    have hlt := hbelow cpu (Mask.mem_indices.mp hcpu)
    simpa using hlt
  unfold setMask
  rw [refusal?_eq_none_iff.mpr ⟨hworking, hmask⟩, hfound]

/-! ## The machine of a layout -/

/-- The machine has the CPUs and the groups of the layout. -/
structure Models (s : Simulated) (l : Layout) : Prop where
  cpus_eq : s.cpus = l.cpus
  groupBases_eq : s.groupBases = l.groupBases

theorem models_forLayout (l : Layout) : (forLayout l).Models l :=
  ⟨rfl, rfl⟩

namespace Models

variable {l : Layout}

theorem remember (h : s.Models l) : (s.remember me mask).Models l :=
  ⟨h.cpus_eq, h.groupBases_eq⟩

/-- A machine on which a thread has another mask is the same machine. -/
theorem of_changesOnly (h : s.Models l) {after : Simulated} (hchange : s.ChangesOnly me after) :
    after.Models l := by
  rcases hchange with rfl | ⟨mask, rfl⟩
  · exact h
  · exact h.remember

/-- The machine finds the lowest CPU of a mask where the layout lists it first. -/
theorem lowestCpu?_eq (h : s.Models l) (mask : Mask) :
    s.lowestCpu? mask = (l.cpusOf mask).head? := by
  unfold lowestCpu?
  rw [Mask.lowest?_eq_head?]
  cases mask with
  | bitset length bits =>
    exact Option.bind_fun_some _
  | group id bits =>
    rw [Layout.cpusOf, Layout.groupBase?, ← h.groupBases_eq]
    dsimp only
    cases s.groupBases.lookup id with
    | none => exact Option.bind_fun_none _
    | some base =>
      rw [List.head?_map, Option.map_eq_bind]
      rfl

/-- A thread that has a mask runs on the first CPU of the mask. -/
theorem currentCpu_remember (h : s.Models l) {cpu : Nat}
    (hcpu : (l.cpusOf mask).head? = some cpu) :
    backend.currentCpu (s.remember me mask) me = cpu := by
  show (s.remember me mask).currentCpu me = cpu
  unfold currentCpu
  rw [masks_remember_self]
  dsimp only
  rw [h.remember.lowestCpu?_eq, hcpu]

/-- Of a thread whose mask selects no CPU it is not known where it runs. -/
theorem currentCpu_remember_of_nil (h : s.Models l) (hnone : l.cpusOf mask = []) :
    backend.currentCpu (s.remember me mask) me = -1 := by
  show (s.remember me mask).currentCpu me = -1
  unfold currentCpu
  rw [masks_remember_self]
  dsimp only
  rw [h.remember.lowestCpu?_eq, hnone, List.head?_nil]

/-- A mask of some CPUs of the layout, and of no others, is accepted. -/
theorem apply_eq_ok (h : s.Models l) (hworking : s.rejecting = false)
    (hsome : l.cpusOf mask ≠ []) (hbelow : ∀ cpu ∈ l.cpusOf mask, cpu < l.cpus) :
    backend.apply s me mask = (.ok (), s.remember me mask) := by
  have hmask := Layout.isEmpty_eq_false_of_cpusOf hsome
  cases mask with
  | bitset length bits =>
    refine setMask_eq_ok hworking hmask ?_
    intro cpu hcpu
    rw [h.cpus_eq]
    exact hbelow cpu ((Layout.mem_cpusOf_bitset rfl).mpr hcpu)
  | group id bits =>
    obtain ⟨first, hfirst⟩ := List.exists_mem_of_ne_nil _ hsome
    obtain ⟨base, hbase⟩ := Layout.exists_base_of_mem_cpusOf hfirst
    have hknown : s.groupBases.lookup id = some base := h.groupBases_eq ▸ hbase
    simp only [Backend.apply, backend, setGroup, refusal?_eq_none_iff.mpr ⟨hworking, hmask⟩, hknown,
      Option.isNone_some, Bool.false_eq_true, if_false]
    rfl

end Models

end Simulated

end CpuPlacement
