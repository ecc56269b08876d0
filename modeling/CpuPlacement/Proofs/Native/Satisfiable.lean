import CpuPlacement.Proofs.Layout.Addressed
import CpuPlacement.Proofs.Layout.GroupMembership
import CpuPlacement.Proofs.Native.Simulated
import Mathlib

/-!
# Masks that the simulated machine accepts

A mask is satisfiable on a layout if it selects a CPU and nothing but CPUs of the layout. Both calls
that set a mask refuse an empty one. One of them goes on to compare the positions with the number of
CPUs of the machine, the other asks whether the group is there, and neither asks whether the group
has the positions. So after any calls no mask is empty and every bit-set is satisfiable
(`Simulated.screened_mask_run`), while a group mask is satisfiable exactly if it lies inside its
group (`Layout.Constructed.satisfiable_iff_hasGroupAround`). What is true of a thread all along a
run turns on the group masks that it was given on the way.
-/

set_option autoImplicit false

namespace CpuPlacement

namespace Layout

variable {l : Layout} {mask : Mask}

/-! ## Satisfiable masks -/

/-- The mask selects CPUs of the layout and nothing else. A group mask is of a group that is there,
and selects positions of CPUs of this group. -/
structure Satisfiable (l : Layout) (mask : Mask) : Prop extends mask.Screened l.cpus where
  group : ∀ id, mask.groupId? = some id → ∃ g ∈ l.groups, ∃ base, g.mask.groupId? = some id ∧
    l.groupBase? id = some base ∧ ∀ bit, mask.test bit = true →
      base + bit < l.cpus ∧ l.groupOf? (base + bit) = some g

/-- Nothing more is to be looked at in a bit-set. -/
theorem satisfiable_of_screened (h : mask.Screened l.cpus) (hbitset : mask.isGroup = false) :
    l.Satisfiable mask := by
  refine ⟨h, fun id hid => ?_⟩
  rw [Mask.groupId?_eq_none hbitset] at hid
  cases hid

/-- The mask of a group selects its positions, counted from the base, and these are the CPUs of the
group. -/
theorem Constructed.test_group_iff (h : l.Constructed) {g : Entity} (hg : g ∈ l.groups)
    {id base : Nat} (hid : g.mask.groupId? = some id) (hbase : l.groupBase? id = some base)
    (bit : Nat) : g.mask.test bit = true ↔ l.groupOf? (base + bit) = some g := by
  have hkind : EntityKind.group ≠ .cache := by decide
  have hown := h.mem_cpusOf_iff_own hkind hg (base + bit)
  refine Iff.trans ?_ hown
  obtain ⟨bits, hmask⟩ := Mask.exists_bits_of_groupId? hid
  rw [hmask, cpusOf_group hbase, List.mem_map, ← Mask.mem_indices]
  simp

/-- The group of a layout is numbered from some base on. -/
theorem Constructed.exists_groupBase? (h : l.Constructed) {g : Entity} (hg : g ∈ l.groups)
    {id : Nat} (hid : g.mask.groupId? = some id) : ∃ base, l.groupBase? id = some base := by
  have hkind : EntityKind.group ≠ .cache := by decide
  obtain ⟨hsome, -⟩ := h.cpusOf_entity hkind hg
  obtain ⟨cpu, hcpu⟩ := List.exists_mem_of_ne_nil _ hsome
  obtain ⟨bits, hmask⟩ := Mask.exists_bits_of_groupId? hid
  rw [hmask] at hcpu
  exact exists_base_of_mem_cpusOf hcpu

/-- A CPU that has a group is a CPU of the layout. -/
theorem Constructed.lt_cpus_of_groupOf? (h : l.Constructed) {g : Entity} {cpu : Nat}
    (hg : l.groupOf? cpu = some g) : cpu < l.cpus := by
  obtain ⟨slot, hslot, -⟩ := Option.bind_eq_some_iff.mp hg
  rw [← h.length_slots]
  exact (List.getElem?_eq_some_iff.mp hslot).1

/-- A group mask is satisfiable exactly if it lies inside the mask of its group. -/
theorem Constructed.satisfiable_iff_hasGroupAround (h : l.Constructed)
    (hsome : mask.isEmpty = false) (hgroup : mask.isGroup = true) :
    l.Satisfiable mask ↔ l.HasGroupAround mask := by
  constructor
  · intro hsat
    cases mask with
    | bitset => cases hgroup
    | group id bits =>
      obtain ⟨g, hg, base, hid, hbase, hplaced⟩ := hsat.group id rfl
      refine ⟨g, hg, ?_⟩
      have hspace : (Mask.group id bits).sameSpace g.mask = true :=
        Mask.sameSpace_iff.mpr hid.symm
      exact (Mask.subset_iff hspace).mpr fun bit hbit =>
        (h.test_group_iff hg hid hbase bit).mpr (hplaced bit hbit).2
  -- every position of the group has a CPU, and so has every position inside it
  · rintro ⟨g, hg, hsub⟩
    have hspace := Mask.sameSpace_of_subset hsub
    refine ⟨⟨hsome, fun hbitset => ?_⟩, fun id hid => ?_⟩
    · rw [hgroup] at hbitset
      cases hbitset
    · have hgid : g.mask.groupId? = some id := (Mask.sameSpace_iff.mp hspace).symm.trans hid
      obtain ⟨base, hbase⟩ := h.exists_groupBase? hg hgid
      refine ⟨g, hg, base, hgid, hbase, fun bit hbit => ?_⟩
      have hown := (h.test_group_iff hg hgid hbase bit).mp
        ((Mask.subset_iff hspace).mp hsub bit hbit)
      exact ⟨h.lt_cpus_of_groupOf? hown, hown⟩

/-- It has CPUs, all of them CPUs of the layout. -/
theorem Satisfiable.cpusOf (h : l.Satisfiable mask) :
    l.cpusOf mask ≠ [] ∧ ∀ cpu ∈ l.cpusOf mask, cpu < l.cpus := by
  have hindices : mask.indices ≠ [] := by
    intro hnil
    have hnone := h.nonempty
    rw [Mask.isEmpty_eq, hnil] at hnone
    cases hnone
  cases mask with
  | bitset length bits =>
    exact ⟨hindices, fun cpu hcpu => h.bitset rfl cpu (Mask.mem_indices.mp hcpu)⟩
  | group id bits =>
    obtain ⟨g, hg, base, -, hbase, hplaced⟩ := h.group id rfl
    rw [cpusOf_group hbase]
    refine ⟨by simpa using hindices, List.forall_mem_map.mpr fun bit hbit => ?_⟩
    exact (hplaced bit (Mask.mem_indices.mp hbit)).1

end Layout

namespace Simulated

variable {s : Simulated} {l : Layout} {thread : ThreadId}

/-! ## Calls -/

/-- What is asked of a simulated machine, the readings apart. -/
inductive Call where
  | setMask (thread : ThreadId) (mask : Mask)
  | setGroup (thread : ThreadId) (id : Nat) (bits : BitVec 64)
  /-- The one of these two calls that fits the family of the mask. -/
  | apply (thread : ThreadId) (mask : Mask)
  | reject (rejecting : Bool)

/-- The thread that a call is made by, and the mask that it asks for. -/
def Call.request? : Call → Option (ThreadId × Mask)
  | setMask thread mask => some (thread, mask)
  | setGroup thread id bits => some (thread, .group id bits)
  | apply thread mask => some (thread, mask)
  | reject _ => none

/-- Whether a call succeeds, and the machine that it leaves behind. -/
def perform (s : Simulated) : Call → Except AffinityError Unit × Simulated
  | .setMask thread mask => backend.setMask s thread mask
  | .setGroup thread id bits =>
    let (previous, after) := backend.setGroup s thread id bits
    (previous.map fun _ => (), after)
  | .apply thread mask => backend.apply s thread mask
  | .reject rejecting => (.ok (), s.reject rejecting)

/-- The machine after calls, the first one first. -/
def run (s : Simulated) (calls : List Call) : Simulated :=
  calls.foldl (fun s call => (s.perform call).2) s

/-- One call more is made in the state that the calls before have left. -/
theorem run_concat (s : Simulated) (calls : List Call) (call : Call) :
    s.run (calls ++ [call]) = ((s.run calls).perform call).2 := by
  rw [run, List.foldl_append]
  rfl

/-! ## One call -/

/-- What can come of a call. -/
inductive Outcome (s : Simulated) (call : Call) : Except AffinityError Unit × Simulated → Prop where
  /-- It fails and changes nothing. -/
  | refused (refusal : AffinityError) : Outcome s call (.error refusal, s)
  /-- It asks for no mask, and none changes. -/
  | switched (rejecting : Bool) (hrequest : call.request? = none) :
    Outcome s call (.ok (), s.reject rejecting)
  /-- The thread has the mask that it asks for. -/
  | accepted (thread : ThreadId) (mask : Mask) (hrequest : call.request? = some (thread, mask))
    (hscreened : mask.Screened s.cpus) : Outcome s call (.ok (), s.remember thread mask)

/-- A call that asks for a mask is refused, or the thread has the mask. -/
theorem outcome_of_cases {call : Call} {mask : Mask} {done : Except AffinityError Unit × Simulated}
    (hrequest : call.request? = some (thread, mask))
    (hcases : (∃ refusal, done = (.error refusal, s)) ∨
      mask.Screened s.cpus ∧ done = (.ok (), s.remember thread mask)) : s.Outcome call done := by
  rcases hcases with ⟨refusal, rfl⟩ | ⟨hscreened, rfl⟩
  · exact .refused refusal
  · exact .accepted thread mask hrequest hscreened

/-- Every call has one of these outcomes. -/
theorem outcome_perform (s : Simulated) (call : Call) : s.Outcome call (s.perform call) := by
  cases call with
  | setMask thread mask => exact outcome_of_cases rfl (setMask_cases s thread mask)
  | setGroup thread id bits => exact outcome_of_cases rfl (apply_cases s thread (.group id bits))
  | apply thread mask => exact outcome_of_cases rfl (apply_cases s thread mask)
  | reject rejecting => exact .switched rejecting rfl

/-- A call leaves the machine a model of its layout. -/
theorem Models.perform (h : s.Models l) (call : Call) : (s.perform call).2.Models l := by
  have houtcome := outcome_perform s call
  generalize s.perform call = done at houtcome ⊢
  cases houtcome with
  | refused => exact h
  | switched => exact ⟨h.cpus_eq, h.groupBases_eq⟩
  | accepted => exact h.remember

/-- A call that fails leaves the machine as it is. -/
theorem perform_of_error {call : Call} {refusal : AffinityError}
    (h : (s.perform call).1 = .error refusal) : (s.perform call).2 = s := by
  have houtcome := outcome_perform s call
  generalize s.perform call = done at houtcome h ⊢
  cases houtcome with
  | refused => rfl
  | switched => cases h
  | accepted => cases h

/-- A call that succeeds gives the thread the mask that it asks for. -/
theorem mask_perform_of_ok {call : Call} {mask : Mask}
    (hrequest : call.request? = some (thread, mask)) (h : (s.perform call).1 = .ok ()) :
    (s.perform call).2.mask thread = mask := by
  have houtcome := outcome_perform s call
  generalize s.perform call = done at houtcome h ⊢
  cases houtcome with
  | refused => cases h
  | switched _ hnone => cases hnone.symm.trans hrequest
  | accepted other asked hasked =>
    cases hasked.symm.trans hrequest
    exact mask_remember_self

/-- A thread keeps its mask unless it asks for another one, and gets it. -/
theorem mask_perform (s : Simulated) (call : Call) (thread : ThreadId) :
    (s.perform call).2.mask thread = s.mask thread ∨
      ∃ mask, call.request? = some (thread, mask) ∧ (s.perform call).1 = .ok () ∧
        (s.perform call).2.mask thread = mask ∧ mask.Screened s.cpus := by
  have houtcome := outcome_perform s call
  generalize s.perform call = done at houtcome ⊢
  cases houtcome with
  | refused => exact .inl rfl
  | switched => exact .inl rfl
  | accepted caller mask hrequest hscreened =>
    by_cases hcaller : thread = caller
    · subst hcaller
      exact .inr ⟨mask, hrequest, rfl, mask_remember_self, hscreened⟩
    · exact .inl (mask_remember_of_ne hcaller)

/-! ## All calls -/

/-- After any calls the machine is a model of its layout. -/
theorem models_run (l : Layout) (calls : List Call) : ((forLayout l).run calls).Models l := by
  induction calls using List.reverseRecOn with
  | nil => exact models_forLayout l
  | append_singleton calls call ih =>
    rw [run_concat]
    exact ih.perform call

/-- Whatever is called, the mask of a thread is one that was looked at. -/
theorem screened_mask_run (hpos : 0 < l.cpus) (calls : List Call) (thread : ThreadId) :
    (((forLayout l).run calls).mask thread).Screened l.cpus := by
  induction calls using List.reverseRecOn with
  | nil => exact .full hpos
  | append_singleton calls call ih =>
    rw [run_concat]
    rcases mask_perform ((forLayout l).run calls) call thread with hkept | ⟨_, -, -, rfl, hscreened⟩
    · rwa [hkept]
    · rwa [(models_run l calls).cpus_eq] at hscreened

/-- The thread has a satisfiable mask, and runs on a CPU of the layout. -/
structure Sound (s : Simulated) (l : Layout) (thread : ThreadId) : Prop where
  mask : l.Satisfiable (s.mask thread)
  cpu : ∃ cpu < l.cpus, s.currentCpu thread = (cpu : Int)

/-- A thread with a satisfiable mask runs on a CPU of the layout. -/
theorem Models.sound (h : s.Models l) (hsat : l.Satisfiable (s.mask thread))
    (hpos : 0 < l.cpus) : s.Sound l thread := by
  refine ⟨hsat, ?_⟩
  unfold currentCpu
  cases hmask : s.masks thread with
  | none => exact ⟨0, hpos, rfl⟩
  | some mask =>
    rw [Simulated.mask, hmask, Option.getD_some] at hsat
    obtain ⟨hsome, hbelow⟩ := hsat.cpusOf
    obtain ⟨cpu, rest, hcpus⟩ := List.exists_cons_of_ne_nil hsome
    refine ⟨cpu, hbelow cpu (hcpus ▸ List.mem_cons_self), ?_⟩
    dsimp only
    rw [h.lowestCpu?_eq, hcpus, List.head?_cons]

/-- On the machine of the layout, one of the calls gives the mask to the thread. -/
def Given (l : Layout) (calls : List Call) (thread : ThreadId) (mask : Mask) : Prop :=
  ∃ before call, before ++ [call] <+: calls ∧ call.request? = some (thread, mask) ∧
    (((forLayout l).run before).perform call).1 = .ok ()

/-- What was given to a thread stays given to it with further calls. -/
theorem Given.mono {before calls : List Call} {mask : Mask} (h : Given l before thread mask)
    (hbefore : before <+: calls) : Given l calls thread mask := by
  obtain ⟨earlier, call, hearlier, hcall⟩ := h
  exact ⟨earlier, call, hearlier.trans hbefore, hcall⟩

theorem not_given_nil {mask : Mask} : ¬ Given l [] thread mask := by
  rintro ⟨before, call, hstart, -⟩
  exact absurd (List.prefix_nil.mp hstart) (List.concat_ne_nil call before)

/-- With one more call, a mask is given by that call or was given before. -/
theorem given_concat_iff {calls : List Call} {call : Call} {mask : Mask} :
    Given l (calls ++ [call]) thread mask ↔ Given l calls thread mask ∨
      call.request? = some (thread, mask) ∧
        (((forLayout l).run calls).perform call).1 = .ok () := by
  constructor
  · rintro ⟨before, other, hstart, hrequest, hdone⟩
    rcases List.prefix_concat_iff.mp hstart with hlast | hearlier
    · obtain ⟨rfl, hsame⟩ := List.append_inj' hlast rfl
      obtain rfl := List.singleton_inj.mp hsame
      exact .inr ⟨hrequest, hdone⟩
    · exact .inl ⟨before, other, hearlier, hrequest, hdone⟩
  · rintro (hgiven | ⟨hrequest, hdone⟩)
    · exact hgiven.mono (List.prefix_append calls [call])
    · exact ⟨calls, call, List.prefix_rfl, hrequest, hdone⟩

/-- If the group masks that a thread is given lie inside their groups, its mask is satisfiable. -/
theorem satisfiable_mask_run (h : l.Constructed) {calls : List Call}
    (hinside : ∀ mask, Given l calls thread mask → mask.isGroup = true → l.HasGroupAround mask) :
    l.Satisfiable (((forLayout l).run calls).mask thread) := by
  induction calls using List.reverseRecOn with
  | nil => exact Layout.satisfiable_of_screened (screened_mask_run h.cpus_pos [] thread) rfl
  | append_singleton calls call ih =>
    rw [run_concat]
    rcases mask_perform ((forLayout l).run calls) call thread with
      hkept | ⟨mask, hrequest, hdone, hnow, hscreened⟩
    · rw [hkept]
      exact ih fun mask hgiven => hinside mask (given_concat_iff.mpr (.inl hgiven))
    · rw [hnow]
      rw [(models_run l calls).cpus_eq] at hscreened
      cases hgroup : mask.isGroup with
      | false => exact Layout.satisfiable_of_screened hscreened hgroup
      | true =>
        have haround := hinside mask (given_concat_iff.mpr (.inr ⟨hrequest, hdone⟩)) hgroup
        exact (h.satisfiable_iff_hasGroupAround hscreened.nonempty hgroup).mpr haround

end Simulated

open Simulated

/-- On the machine of a layout, whatever is called, no thread has an empty mask, and a thread with a
bit-set has a satisfiable mask and runs on a CPU of the layout; a call that fails leaves every mask
as it is. A thread is sound all along exactly if every group mask that it is given lies inside the
group that it names. -/
theorem sound_along_iff_groups_hold {l : Layout} (h : l.Constructed) (calls : List Call) :
    (∀ thread, (((forLayout l).run calls).mask thread).isEmpty = false ∧
      ((((forLayout l).run calls).mask thread).isGroup = false →
        ((forLayout l).run calls).Sound l thread)) ∧
    (∀ call refusal, (((forLayout l).run calls).perform call).1 = .error refusal →
      ∀ thread, (((forLayout l).run calls).perform call).2.mask thread =
        ((forLayout l).run calls).mask thread) ∧
    ∀ thread, (∀ before, before <+: calls → ((forLayout l).run before).Sound l thread) ↔
      ∀ mask, Given l calls thread mask → mask.isGroup = true → l.HasGroupAround mask := by
  refine ⟨fun thread => ?_, ?_, fun thread => ⟨?_, ?_⟩⟩
  · have hscreened := screened_mask_run h.cpus_pos calls thread
    refine ⟨hscreened.nonempty, fun hbitset => ?_⟩
    exact (models_run l calls).sound (Layout.satisfiable_of_screened hscreened hbitset) h.cpus_pos
  · intro call refusal hrefused thread
    rw [perform_of_error hrefused]
  · rintro hsound mask ⟨before, call, hstart, hrequest, hdone⟩ hgroup
    have hsat := (hsound _ hstart).mask
    rw [run_concat, mask_perform_of_ok hrequest hdone] at hsat
    exact (h.satisfiable_iff_hasGroupAround hsat.nonempty hgroup).mp hsat
  · intro hinside before hbefore
    refine (models_run l before).sound (satisfiable_mask_run h fun mask hgiven => ?_) h.cpus_pos
    exact hinside mask (hgiven.mono hbefore)

/-- Three calls: a thread gets position 1 of group 1, another is refused a group that is not there,
and gets both positions of group 0. -/
def Simulated.groupCalls : List Call :=
  [.setGroup ⟨1⟩ 1 2, .apply ⟨2⟩ (.group 7 1), .apply ⟨2⟩ (.group 0 3)]

/-- Both group masks that were given lie inside their groups. -/
theorem sound_along_two_groups : ∃ l, Layout.ofRecords Record.twoGroups = .ok l ∧ l.Constructed ∧
    (∀ thread mask, Given l groupCalls thread mask → mask.isGroup = true → l.HasGroupAround mask) ∧
    ((forLayout l).run groupCalls).mask ⟨1⟩ = .group 1 2 ∧
    ((forLayout l).run groupCalls).mask ⟨2⟩ = .group 0 3 ∧
    ∀ thread before, before <+: groupCalls → ((forLayout l).run before).Sound l thread := by
  obtain ⟨l, hl, hcheck⟩ : ∃ l, Layout.ofRecords Record.twoGroups = .ok l ∧
      ((l.groups.any fun g => (Mask.group 1 2).subset g.mask) &&
        (l.groups.any fun g => (Mask.group 0 3).subset g.mask) &&
        !(((forLayout l).run [.setGroup ⟨1⟩ 1 2]).perform (.apply ⟨2⟩ (.group 7 1))).1.toBool &&
        ((forLayout l).run groupCalls).mask ⟨1⟩ == .group 1 2 &&
        ((forLayout l).run groupCalls).mask ⟨2⟩ == .group 0 3) = true :=
    exists_ok_of_any (by cbv)
  simp only [Bool.and_eq_true, beq_iff_eq, Bool.not_eq_true', List.any_eq_true] at hcheck
  obtain ⟨⟨⟨⟨hinside₁, hinside₂⟩, hanswer⟩, hmask₁⟩, hmask₂⟩ := hcheck
  have hrefused : (((forLayout l).run [.setGroup ⟨1⟩ 1 2]).perform (.apply ⟨2⟩ (.group 7 1))).1 ≠
      .ok () := by
    intro hdone
    rw [hdone] at hanswer
    cases hanswer
  have hconstructed : l.Constructed := .records hl
  have hinside : ∀ thread mask, Given l groupCalls thread mask → mask.isGroup = true →
      l.HasGroupAround mask := by
    intro thread mask hgiven _
    have hcalls : groupCalls = [] ++ [.setGroup ⟨1⟩ 1 2] ++ [.apply ⟨2⟩ (.group 7 1)] ++
        [.apply ⟨2⟩ (.group 0 3)] := rfl
    rw [hcalls] at hgiven
    rcases given_concat_iff.mp hgiven with hgiven | ⟨hlast, -⟩
    · rcases given_concat_iff.mp hgiven with hgiven | ⟨-, hdone⟩
      · rcases given_concat_iff.mp hgiven with hgiven | ⟨hfirst, -⟩
        · exact absurd hgiven not_given_nil
        · cases hfirst
          exact hinside₁
      · exact absurd hdone hrefused
    · cases hlast
      exact hinside₂
  exact ⟨l, hl, hconstructed, hinside, hmask₁, hmask₂, fun thread =>
    ((sound_along_iff_groups_hold hconstructed groupCalls).2.2 thread).mpr (hinside thread)⟩

/-! ## What nothing checks -/

/-- One group of two CPUs. -/
def Record.oneGroup : List Record :=
  [⟨.group, .group 0 3⟩, ⟨.core, .group 0 3⟩, ⟨.package, .group 0 3⟩]

/-- Two calls: one asks for position 3 of a group that has positions 0 and 1, the other for a group
that is not there. -/
def Simulated.strayCalls : List Call :=
  [.setGroup ⟨1⟩ 0 8, .setMask ⟨2⟩ (.group 7 1)]

/-- Both are accepted. The first thread then seems to run on CPU 3 of two CPUs, and of the second it
is not known where it runs. -/
theorem not_sound_stray_calls : ∃ l, Layout.ofRecords Record.oneGroup = .ok l ∧ l.Constructed ∧
    l.cpus = 2 ∧
    ((forLayout l).run strayCalls).mask ⟨1⟩ = .group 0 8 ∧
    ((forLayout l).run strayCalls).currentCpu ⟨1⟩ = 3 ∧
    ¬ ((forLayout l).run strayCalls).Sound l ⟨1⟩ ∧
    ((forLayout l).run strayCalls).mask ⟨2⟩ = .group 7 1 ∧
    ((forLayout l).run strayCalls).currentCpu ⟨2⟩ = -1 ∧
    ¬ ((forLayout l).run strayCalls).Sound l ⟨2⟩ := by
  obtain ⟨l, hl, hcheck⟩ : ∃ l, Layout.ofRecords Record.oneGroup = .ok l ∧
      (l.cpus == 2 &&
        ((forLayout l).run strayCalls).mask ⟨1⟩ == .group 0 8 &&
        ((forLayout l).run strayCalls).currentCpu ⟨1⟩ == 3 &&
        ((forLayout l).run strayCalls).mask ⟨2⟩ == .group 7 1 &&
        ((forLayout l).run strayCalls).currentCpu ⟨2⟩ == -1) = true :=
    exists_ok_of_any (by cbv)
  simp only [Bool.and_eq_true, beq_iff_eq] at hcheck
  obtain ⟨⟨⟨⟨hcpus, hmask₁⟩, hcurrent₁⟩, hmask₂⟩, hcurrent₂⟩ := hcheck
  refine ⟨l, hl, .records hl, hcpus, hmask₁, hcurrent₁, ?_, hmask₂, hcurrent₂, ?_⟩
  · rintro ⟨-, cpu, hlt, hcpu⟩
    rw [hcurrent₁] at hcpu
    omega
  · rintro ⟨-, cpu, hlt, hcpu⟩
    rw [hcurrent₂] at hcpu
    omega

end CpuPlacement
