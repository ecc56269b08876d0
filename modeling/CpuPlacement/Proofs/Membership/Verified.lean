import CpuPlacement.Proofs.Layout.Addressed
import CpuPlacement.Proofs.Membership.Run
import CpuPlacement.Proofs.Native.Simulated
import Mathlib

/-!
# Binding to an entity is verified

A manager that has bound a thread to an entity of a stated kind asks which CPU the thread runs on,
and looks whether the layout finds the entity there. On the simulated machine of its layout a thread
runs on the first CPU of its mask, and what the layout finds there is the entity itself. So the
check fails only where there is nothing to bind to (`binding_verified`).

Caches do not divide the CPUs. Records may name positions in the mask of a cache that no CPU has; of
a cache it is therefore asked that the CPUs have them all.
-/

set_option autoImplicit false

namespace CpuPlacement

namespace Manager

variable {m : Manager} {s : Simulated} {r : Registry} {me : ThreadId} {kind : EntityKind} {id : Nat}
  {e : Entity}

/-- Where the machine accepts the mask of the entity, the thread has it, and the answer is what is
found on the first of its CPUs. -/
theorem bindTo_of_apply (hmodels : s.Models m.layout) (he : m.layout.entity? kind id = some e)
    (hkind : e.kind = kind)
    (happly : Simulated.backend.apply s me e.mask = (.ok (), s.remember me e.mask)) :
    (m.bindTo Simulated.backend s r me kind id).native = s.remember me e.mask ∧
      (m.bindTo Simulated.backend s r me kind id).result =
        match (m.layout.cpusOf e.mask).head? with
        | some cpu => m.landed e cpu
        | none => .ok false := by
  have hbound : m.bind Simulated.backend s r me m.number e =
      ⟨true, m.leaveOthers (r.join (e.ref m.number) me) e me, s.remember me e.mask⟩ := by
    rw [bind, happly]
  rw [bindTo, he]
  simp only [bindAs, hkind, bne_self_eq_false, Bool.false_eq_true, if_false, hbound, Bool.true_and]
  refine ⟨trivial, ?_⟩
  cases hcpus : m.layout.cpusOf e.mask with
  | nil =>
    rw [hmodels.currentCpu_remember_of_nil hcpus]
    rfl
  | cons cpu rest =>
    have hcurrent : Simulated.backend.currentCpu (s.remember me e.mask) me = cpu :=
      hmodels.currentCpu_remember (by rw [hcpus, List.head?_cons])
    rw [hcurrent]
    simp

/-- A true answer is given only where the machine has accepted the mask. -/
theorem apply_of_bindTo (he : m.layout.entity? kind id = some e) (hkind : e.kind = kind)
    (htrue : (m.bindTo Simulated.backend s r me kind id).result = .ok true) :
    Simulated.backend.apply s me e.mask = (.ok (), s.remember me e.mask) := by
  rcases Simulated.apply_cases s me e.mask with ⟨refusal, hrefused⟩ | ⟨-, hdone⟩
  · have hbound : m.bind Simulated.backend s r me m.number e = ⟨false, r, s⟩ := by
      rw [bind, hrefused]
    rw [bindTo, he] at htrue
    simp [bindAs, hkind, hbound] at htrue
  · exact hdone

/-- A thread on one of the CPUs that the mask selects is found in the entity. -/
theorem landed_of_mem_cpusOf (hl : m.layout.Constructed) (hkind : kind ≠ .cache)
    (he : m.layout.entity? kind id = some e) {cpu : Nat} (hcpu : cpu ∈ m.layout.cpusOf e.mask) :
    m.landed e cpu = .ok true := by
  have hsame := hl.kind_of_entity? he
  have hown := (hl.mem_cpusOf_iff_own hkind (List.mem_of_getElem? he) cpu).mp hcpu
  have hself : e.sameEntity e = true := by simp [Entity.sameEntity]
  rw [landed, hsame]
  cases kind with
  | cache => exact absurd rfl hkind
  | _ =>
    dsimp only
    rw [hown, Option.any_some, hself]

/-- Binding to a group, a node, a socket or a core that there is succeeds, as far as the check can
tell. -/
theorem bindTo_eq_true (hl : m.layout.Constructed) (hmodels : s.Models m.layout)
    (hworking : s.rejecting = false) (hkind : kind ≠ .cache)
    (he : m.layout.entity? kind id = some e) :
    (m.bindTo Simulated.backend s r me kind id).result = .ok true := by
  obtain ⟨hsome, hbelow⟩ := hl.cpusOf_entity hkind (List.mem_of_getElem? he)
  have happly : Simulated.backend.apply s me e.mask = (.ok (), s.remember me e.mask) :=
    hmodels.apply_eq_ok hworking hsome hbelow
  rw [(bindTo_of_apply hmodels he (hl.kind_of_entity? he) happly).2]
  cases hcpus : m.layout.cpusOf e.mask with
  | nil => exact absurd hcpus hsome
  | cons cpu rest => exact landed_of_mem_cpusOf hl hkind he (hcpus ▸ List.mem_cons_self)

/-- So does binding to a cache whose positions the CPUs have. -/
theorem bindTo_cache_eq_true (hl : m.layout.Constructed) (hmodels : s.Models m.layout)
    (hworking : s.rejecting = false) (he : m.layout.entity? .cache id = some e)
    (hpopulates : m.layout.populates e.mask = true) :
    (m.bindTo Simulated.backend s r me .cache id).result = .ok true := by
  have hkind := hl.kind_of_entity? he
  have hsome := hl.cpusOf_ne_nil_of_populates hpopulates
    (hl.nonempty_cache (List.mem_of_getElem? he))
  have happly : Simulated.backend.apply s me e.mask = (.ok (), s.remember me e.mask) :=
    hmodels.apply_eq_ok hworking hsome fun cpu hcpu =>
      (hl.contains_of_populates hpopulates hcpu).1
  rw [(bindTo_of_apply hmodels he hkind happly).2]
  cases hcpus : m.layout.cpusOf e.mask with
  | nil => exact absurd hcpus hsome
  | cons cpu rest =>
    have hcontains := (hl.contains_of_populates hpopulates (hcpus ▸ List.mem_cons_self)).2
    show m.landed e cpu = .ok true
    rw [landed, hkind]
    exact Layout.maskContains?_eq_ok_true_iff.mpr hcontains

/-- After a true answer the thread has the mask of the entity and runs on a CPU of the layout that
is in the entity. -/
theorem bound_of_bindTo (hl : m.layout.Constructed) (hmodels : s.Models m.layout)
    (htrue : (m.bindTo Simulated.backend s r me kind id).result = .ok true) :
    ∃ (e : Entity) (cpu : Nat), m.layout.entity? kind id = some e ∧
      Simulated.backend.mask (m.bindTo Simulated.backend s r me kind id).native me = .ok e.mask ∧
      Simulated.backend.currentCpu (m.bindTo Simulated.backend s r me kind id).native me = cpu ∧
      cpu < m.layout.cpus ∧
      if kind = .cache then m.layout.maskContains e.mask cpu = true
      else m.layout.entityForCpu? kind cpu = some e := by
  cases he : m.layout.entity? kind id with
  | none =>
    rw [bindTo, he] at htrue
    cases htrue
  | some e =>
    have hsame := hl.kind_of_entity? he
    obtain ⟨hnative, hresult⟩ :=
      bindTo_of_apply hmodels he hsame (apply_of_bindTo he hsame htrue)
    rw [htrue] at hresult
    rw [hnative]
    cases hcpus : m.layout.cpusOf e.mask with
    -- without a CPU the thread is found nowhere, and the answer is no
    | nil =>
      rw [hcpus] at hresult
      cases hresult
    | cons cpu rest =>
      rw [hcpus, List.head?_cons] at hresult
      have hmem : cpu ∈ m.layout.cpusOf e.mask := hcpus ▸ List.mem_cons_self
      refine ⟨e, cpu, rfl, Simulated.backend_mask_remember_self,
        hmodels.currentCpu_remember (by rw [hcpus, List.head?_cons]), ?_⟩
      -- a cache may stand for positions past its group, so its answer has to be read back
      by_cases hkind : kind = .cache
      · replace hresult : m.landed e cpu = .ok true := hresult.symm
        rw [landed, hsame, hkind] at hresult
        have hcontains := Layout.maskContains?_eq_ok_true_iff.mp hresult
        rw [if_pos hkind]
        obtain ⟨single, hsingle, -⟩ := Layout.maskContains_iff.mp hcontains
        exact ⟨hl.exists_cpuMask_iff.mp ⟨single, Layout.cpuMask_eq_ok_iff.mpr hsingle⟩, hcontains⟩
      · rw [if_neg hkind]
        have hentity := List.mem_of_getElem? he
        exact ⟨(hl.cpusOf_entity hkind hentity).2 cpu hmem,
          (hl.mem_cpusOf_iff_own hkind hentity cpu).mp hmem⟩

end Manager

/-- On the simulated machine of a manager's layout, binding to a group, a node, a socket or a core
answers true exactly where there is one of that id, and binding to a cache does if the CPUs have all
positions of its mask. After a true answer the thread has the mask of the entity and runs in it. -/
theorem binding_verified {m : Manager} {s : Simulated} (hl : m.layout.Constructed)
    (hmodels : s.Models m.layout) (hworking : s.rejecting = false) (r : Registry)
    (me : ThreadId) (kind : EntityKind) (id : Nat) :
    (kind ≠ .cache → (m.bindTo Simulated.backend s r me kind id).result =
      .ok (decide (id < (m.layout.entitiesOf kind).length))) ∧
    (∀ e, kind = .cache → m.layout.entity? kind id = some e → m.layout.populates e.mask = true →
      (m.bindTo Simulated.backend s r me kind id).result = .ok true) ∧
    ((m.bindTo Simulated.backend s r me kind id).result = .ok true →
      ∃ (e : Entity) (cpu : Nat), m.layout.entity? kind id = some e ∧
      Simulated.backend.mask (m.bindTo Simulated.backend s r me kind id).native me = .ok e.mask ∧
      Simulated.backend.currentCpu (m.bindTo Simulated.backend s r me kind id).native me = cpu ∧
      cpu < m.layout.cpus ∧
      if kind = .cache then m.layout.maskContains e.mask cpu = true
      else m.layout.entityForCpu? kind cpu = some e) := by
  refine ⟨fun hkind => ?_, ?_, Manager.bound_of_bindTo hl hmodels⟩
  · by_cases hid : id < (m.layout.entitiesOf kind).length
    · rw [decide_eq_true hid]
      exact Manager.bindTo_eq_true hl hmodels hworking hkind (List.getElem?_eq_getElem hid)
    · have hnone : m.layout.entity? kind id = none :=
        List.getElem?_eq_none (Nat.le_of_not_lt hid)
      rw [decide_eq_false hid, Manager.bindTo, hnone]
  · rintro e rfl he hpopulates
    exact Manager.bindTo_cache_eq_true hl hmodels hworking he hpopulates

/-- Two groups of two CPUs each, and one core and package of group 0 with four positions, of which a
cache has those that group 0 has not. -/
def Record.cachePastGroup : List Record :=
  Record.pastGroup ++
    [⟨.cache ⟨2, .unified, 1048576, 64, 8⟩, .group 0 12⟩]

/-- On that machine a thread can be bound to group 1, and to the cache, whose CPUs are those of
group 1. -/
theorem binding_verified_past_group : ∃ l, Layout.ofRecords Record.cachePastGroup = .ok l ∧
    let m : Manager := ⟨l, 0⟩
    (m.bindTo Simulated.backend (.forLayout l) {} ⟨1⟩ .group 1).result = .ok true ∧
    (m.bindTo Simulated.backend (.forLayout l) {} ⟨1⟩ .group 2).result = .ok false ∧
    (m.bindTo Simulated.backend (.forLayout l) {} ⟨1⟩ .cache 0).result = .ok true := by
  obtain ⟨l, hl, hcheck⟩ : ∃ l, Layout.ofRecords Record.cachePastGroup = .ok l ∧
      (l.groups.length == 2 && (l.entity? .cache 0).any fun e => l.populates e.mask) = true :=
    exists_ok_of_any (by cbv)
  obtain ⟨hgroups, hcache⟩ := Bool.and_eq_true_iff.mp hcheck
  obtain ⟨e, he, hpopulates⟩ := (Option.any_eq_true ..).mp hcache
  replace hgroups : (l.entitiesOf .group).length = 2 := beq_iff_eq.mp hgroups
  have verified (kind : EntityKind) (id : Nat) :=
    binding_verified (m := ⟨l, 0⟩) (.records hl) (Simulated.models_forLayout l) rfl {} ⟨1⟩ kind id
  refine ⟨l, hl, ?_, ?_, ?_⟩
  · rw [(verified .group 1).1 (by decide), hgroups]
    rfl
  · rw [(verified .group 2).1 (by decide), hgroups]
    rfl
  · exact (verified .cache 0).2.1 e rfl he hpopulates

end CpuPlacement
