import CpuPlacement.Proofs.Layout.Numbering
import CpuPlacement.Proofs.Mask.Same
import CpuPlacement.Proofs.Text.Blank
import CpuPlacement.Policy
import Mathlib

/-!
# An override that cannot be read

The environment may name the reserved CPUs. A text that is no mask is to be ignored, and the policy
of the process is then the one that it has without the text. The policy of the machine has its base
from the isolated CPUs. Where the text cannot be read it makes the isolated CPUs the reserved ones,
and where there is no text those CPUs from 1 on that are not in the base. These are the same CPUs
unless CPU 0 is isolated or a CPU that the machine does not have; the main statement says so in both
directions.
-/

set_option autoImplicit false

namespace CpuPlacement

/-! ## Blanks around the text -/

namespace Mask

/-- Blanks around a text do not make a mask of it. -/
theorem exists_ofHex_trim_eq_error {text : String} {refusal : MalformedHex}
    (h : ofHex text = .error refusal) :
    ∃ refusal', ofHex (String.ofList (Text.trim text.toList)) = .error refusal' := by
  have hdigits : hexDigits (Text.trim text.toList) = hexDigits text.toList := by
    rw [hexDigits, Text.trim_trim, hexDigits]
  unfold ofHex at h ⊢
  rw [String.toList_ofList, hdigits]
  cases hread : hexDigits text.toList with
  | nil => exact ⟨_, rfl⟩
  | cons first rest =>
    simp only [hread] at h ⊢
    cases hread : insertDigits? (empty (4 * (first :: rest).length)) 0 (first :: rest).reverse with
    | none => exact ⟨_, rfl⟩
    | some value => simp only [hread, reduceCtorEq] at h

end Mask

namespace Policy

/-! ## What is reserved without an override -/

variable {cpus : Nat} {base : Mask}

/-- What is outside a base is every CPU but 0 that the base does not select. -/
theorem test_outside (cpus : Nat) (base : Mask) (cpu : Nat) :
    (outside cpus base).test cpu = true ↔ 1 ≤ cpu ∧ cpu < cpus ∧ base.test cpu = false := by
  rw [outside, Mask.test_ofIndices, List.contains_iff_mem, List.mem_filter, List.mem_range,
    Bool.and_eq_true, decide_eq_true_eq, Bool.not_eq_true', and_left_comm]

/-- All CPUs but 0 are assumed to be free if the base holds them all. -/
theorem assumesAll_iff :
    assumesAll cpus base = true ↔
      1 < cpus ∧ ∀ cpu, 1 ≤ cpu → cpu < cpus → base.test cpu = true := by
  rw [assumesAll, Bool.and_eq_true, decide_eq_true_eq, Mask.isEmpty_iff, and_comm]
  refine and_congr_right fun _ => forall_congr' fun cpu => ?_
  rw [← Bool.not_eq_true, test_outside]
  constructor
  · intro hnot hpos hlt
    exact Bool.not_eq_false _ ▸ fun hout => hnot ⟨hpos, hlt, hout⟩
  · rintro hbase ⟨hpos, hlt, hout⟩
    exact Bool.noConfusion (hout.symm.trans (hbase hpos hlt))

/-- The CPUs from 1 on that are not in the base, or all of them if the base holds them all. -/
theorem test_defaultReserved (cpus : Nat) (base : Mask) (cpu : Nat) :
    (defaultReserved cpus base).test cpu = true ↔
      1 ≤ cpu ∧ cpu < cpus ∧
        (base.test cpu = false ∨ ∀ other, 1 ≤ other → other < cpus → base.test other = true) := by
  unfold defaultReserved
  split
  · next hall =>
    have hbase := (assumesAll_iff.mp hall).2
    rw [Mask.test_ofIndices, List.contains_iff_mem, List.mem_filter, List.mem_range,
      decide_eq_true_eq, and_comm]
    exact and_congr_right fun _ => (and_iff_left (Or.inr hbase)).symm
  · next hnot =>
    rw [test_outside]
    refine and_congr_right fun hpos => and_congr_right fun hlt => (or_iff_left fun hbase => ?_).symm
    exact hnot (assumesAll_iff.mpr ⟨Nat.lt_of_le_of_lt hpos hlt, hbase⟩)

/-! ## The policy of the process -/

theorem named?_eq_some {text : String} (hblank : Text.isAllBlank text.toList = false) :
    named? (some text) = some (String.ofList (Text.trim text.toList)) :=
  if_neg (Bool.eq_false_iff.mp hblank)

/-- A text that cannot be read leads to what it is to be otherwise. -/
theorem resolveOr_of_malformed {text : String} {refusal : MalformedHex}
    (hblank : Text.isAllBlank text.toList = false) (hmalformed : Mask.ofHex text = .error refusal)
    (cpus : Nat) (base : Option Mask) (otherwise : Policy) :
    resolveOr cpus base (some text) otherwise = otherwise := by
  obtain ⟨refusal', hread⟩ := Mask.exists_ofHex_trim_eq_error hmalformed
  have hresolve : resolve cpus base (some text) = .error refusal' := by
    simp only [resolve, named?_eq_some hblank, hread]
    rfl
  rw [resolveOr, hresolve]

/-- Without a text the base is as given, or every CPU, and what is reserved follows from it. -/
theorem resolveOr_none (cpus : Nat) (base : Option Mask) (otherwise : Policy) :
    resolveOr cpus base none otherwise =
      ⟨base.getD (Mask.full cpus), defaultReserved cpus (base.getD (Mask.full cpus))⟩ := rfl

/-- The process ignores a text that cannot be read. -/
theorem detect_of_malformed {text : String} {refusal : MalformedHex}
    (hblank : Text.isAllBlank text.toList = false) (hmalformed : Mask.ofHex text = .error refusal)
    (cpus : Nat) (affinity : Except AffinityError Mask) :
    detect cpus affinity (some text) = detect cpus affinity none := by
  simp only [detect, resolveOr_of_malformed hblank hmalformed, resolveOr_none]

/-- The policies have the same base and reserved CPUs. -/
def Same (p q : Policy) : Prop :=
  p.base.same q.base = true ∧ p.reserved.same q.reserved = true

theorem Same.refl (p : Policy) : p.Same p :=
  ⟨p.base.same_refl, p.reserved.same_refl⟩

end Policy

namespace Machine

/-! ## The policy of the machine -/

/-- The base of a machine is what is not isolated. -/
theorem test_base (m : Machine) (cpu : Nat) :
    m.base.test cpu = true ↔ cpu < m.cpus ∧ cpu ∉ m.isolated := by
  rw [base, Mask.test_ofIndices, List.contains_iff_mem, List.mem_filter, List.mem_range,
    Bool.not_eq_true', List.contains_eq_mem, decide_eq_false_iff_not]

/-- No CPU is left for the base if all are isolated. -/
theorem isEmpty_base_iff {m : Machine} :
    m.base.isEmpty = true ↔ ∀ cpu < m.cpus, cpu ∈ m.isolated := by
  rw [Mask.isEmpty_iff]
  refine forall_congr' fun cpu => ?_
  rw [← Bool.not_eq_true, test_base, not_and, not_not]

/-- The isolated CPUs are what is reserved by default, exactly if all of them are CPUs of the
machine other than 0. -/
theorem same_defaultReserved_iff {m : Machine} (hisolated : m.isolated ≠ []) :
    (Mask.ofIndices m.cpus m.isolated).same (Policy.defaultReserved m.cpus m.base) = true ↔
      ∀ cpu ∈ m.isolated, 1 ≤ cpu ∧ cpu < m.cpus := by
  have hgroup : (Policy.defaultReserved m.cpus m.base).groupId? = none := by
    unfold Policy.defaultReserved Policy.outside
    split <;> exact Mask.groupId?_ofIndices _ _
  have hbase {cpu : Nat} (hmem : cpu ∈ m.isolated) : m.base.test cpu = false :=
    Bool.eq_false_iff.mpr fun hbase => ((test_base m cpu).mp hbase).2 hmem
  rw [Mask.same_iff_test, Mask.groupId?_ofIndices, hgroup, and_iff_right rfl]
  simp only [Mask.test_ofIndices, List.contains_iff_mem, Policy.test_defaultReserved]
  constructor
  · intro hsame cpu hmem
    obtain ⟨hpos, hlt, -⟩ := (hsame cpu).mp hmem
    exact ⟨hpos, hlt⟩
  · intro hinside cpu
    constructor
    · intro hmem
      obtain ⟨hpos, hlt⟩ := hinside cpu hmem
      exact ⟨hpos, hlt, Or.inl (hbase hmem)⟩
    · rintro ⟨-, hlt, hout | hall⟩
      · by_contra hnot
        exact Bool.noConfusion (hout.symm.trans ((test_base m cpu).mpr ⟨hlt, hnot⟩))
      · -- the base does not hold them all: it lacks the isolated ones, and there are some
        obtain ⟨other, hother⟩ := List.exists_mem_of_ne_nil _ hisolated
        obtain ⟨hpos, hlt'⟩ := hinside other hother
        exact Bool.noConfusion ((hbase hother).symm.trans (hall other hpos hlt'))

/-- A text that cannot be read leaves the policy of the machine as it is without the text, exactly
if no CPU is isolated but CPUs of the machine other than 0, or else all CPUs are. -/
theorem policy_same_iff {text : String} {refusal : MalformedHex}
    (hblank : Text.isAllBlank text.toList = false) (hmalformed : Mask.ofHex text = .error refusal)
    (m : Machine) (affinity : Except AffinityError Mask) :
    (m.policy affinity (some text)).Same (m.policy affinity none) ↔
      (∀ cpu ∈ m.isolated, 1 ≤ cpu ∧ cpu < m.cpus) ∨ ∀ cpu < m.cpus, cpu ∈ m.isolated := by
  by_cases hdetect : (m.isolated.isEmpty || m.base.isEmpty) = true
  · rw [policy, policy, if_pos hdetect, if_pos hdetect,
      Policy.detect_of_malformed hblank hmalformed]
    refine iff_of_true (.refl _) ?_
    rcases Bool.or_eq_true_iff.mp hdetect with hnone | hall
    · rw [List.isEmpty_iff.mp hnone]
      exact Or.inl nofun
    · exact Or.inr (isEmpty_base_iff.mp hall)
  · obtain ⟨hsome, hbase⟩ := not_or.mp (mt Bool.or_eq_true_iff.mpr hdetect)
    rw [policy, policy, if_neg hdetect, if_neg hdetect,
      Policy.resolveOr_of_malformed hblank hmalformed, Policy.resolveOr_none, Option.getD_some,
      or_iff_left (mt isEmpty_base_iff.mpr hbase),
      ← same_defaultReserved_iff (mt List.isEmpty_iff.mpr hsome)]
    exact and_iff_right m.base.same_refl

end Machine

/-- A text for the reserved CPUs that is not blank and cannot be read is ignored by the process. The
machine ignores it exactly if no CPU is isolated but CPUs of the machine other than 0, or else all
CPUs are. -/
theorem unreadable_override_ignored_iff {text : String} {refusal : MalformedHex}
    (hblank : Text.isAllBlank text.toList = false) (hmalformed : Mask.ofHex text = .error refusal)
    (cpus : Nat) (isolated : List Nat) (affinity : Except AffinityError Mask) :
    (Policy.detect cpus affinity (some text)).Same (Policy.detect cpus affinity none) ∧
    (((Machine.new cpus isolated).policy affinity (some text)).Same
        ((Machine.new cpus isolated).policy affinity none) ↔
      (∀ cpu ∈ isolated, 1 ≤ cpu ∧ cpu < max cpus 1) ∨ ∀ cpu < max cpus 1, cpu ∈ isolated) := by
  refine ⟨?_, (Machine.new cpus isolated).policy_same_iff hblank hmalformed affinity⟩
  rw [Policy.detect_of_malformed hblank hmalformed]
  exact .refl _

/-- CPUs 2 and 3 of four are isolated: they are the reserved ones with a text that is no number, as
they are without one. -/
theorem unreadable_override_ignored_two_isolated :
    ((Machine.new 4 [2, 3]).policy (.ok (Mask.full 4)) (some "zz")).Same
      ((Machine.new 4 [2, 3]).policy (.ok (Mask.full 4)) none) := by
  have hmalformed : Mask.ofHex "zz" = .error ⟨"zz"⟩ := by cbv
  exact (unreadable_override_ignored_iff (by cbv) hmalformed 4 [2, 3] _).2.mpr (Or.inl (by decide))

/-- CPUs 0 and 3 of four are isolated: without the text only CPU 3 is reserved, and with it CPU 0
is as well. -/
theorem unreadable_override_reserves_first :
    Text.isAllBlank "zz".toList = false ∧ Mask.ofHex "zz" = .error ⟨"zz"⟩ ∧
      ¬ ((Machine.new 4 [0, 3]).policy (.ok (Mask.full 4)) (some "zz")).Same
        ((Machine.new 4 [0, 3]).policy (.ok (Mask.full 4)) none) := by
  refine ⟨by cbv, by cbv, fun hsame => ?_⟩
  have hnamed : ((Machine.new 4 [0, 3]).policy (.ok (Mask.full 4)) (some "zz")).reserved.indices =
      [0, 3] := by cbv
  have hunset : ((Machine.new 4 [0, 3]).policy (.ok (Mask.full 4)) none).reserved.indices =
      [3] := by cbv
  have hindices := Mask.indices_eq_of_same hsame.2
  rw [hnamed, hunset] at hindices
  cases hindices

end CpuPlacement
