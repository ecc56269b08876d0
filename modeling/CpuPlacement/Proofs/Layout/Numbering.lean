import CpuPlacement.Layout.Numbering
import CpuPlacement.Proofs.Mask.Order
import Mathlib.Data.Finset.Card
import Mathlib.Data.List.Basic

/-!
# Numbered classes

A CPU is in the mask of the class that has its number, and in no other. The masks of the classes
ascend, because the classes are ordered by their last CPU. They are as long as there are CPUs, so
that the CPUs determine them and not only what they select (`Numbering.mask_eq`).
-/

set_option autoImplicit false

namespace CpuPlacement

namespace Numbering

variable {κ : Type} [DecidableEq κ]

/-- The members of a class are the CPUs with its key. -/
theorem mem_members {keys : List κ} {key : κ} {cpu : Nat} :
    cpu ∈ members keys key ↔ keys[cpu]? = some key := by
  simp only [members, List.mem_filterMap, Option.ite_none_right_eq_some, Option.some.injEq,
    Prod.exists, List.mem_zipIdx_iff_getElem?]
  constructor
  · rintro ⟨other, index, hother, rfl, rfl⟩
    exact hother
  · intro hkey
    exact ⟨key, cpu, hkey, rfl, rfl⟩

/-- A CPU has the number of the class that its key names. -/
theorem getElem?_numbers_eq_some_iff {keys : List κ} {cpu id : Nat} :
    (numbers keys)[cpu]? = some id ↔
      ∃ key, (classes keys)[id]? = some key ∧ keys[cpu]? = some key := by
  rw [numbers, List.getElem?_map, Option.map_eq_some_iff]
  constructor
  · rintro ⟨key, hkey, rfl⟩
    have hmem : key ∈ classes keys := mem_classes.mpr (List.mem_of_getElem? hkey)
    exact ⟨key, List.getElem?_idxOf hmem, hkey⟩
  · rintro ⟨key, hclass, hkey⟩
    obtain ⟨hlt, rfl⟩ := List.getElem?_eq_some_iff.mp hclass
    exact ⟨_, hkey, (nodup_classes keys).idxOf_getElem _ hlt⟩

/-- Two CPUs have one number when they have one key. -/
theorem getElem?_numbers_eq_iff {keys : List κ} {a b : Nat} :
    (numbers keys)[a]? = (numbers keys)[b]? ↔ keys[a]? = keys[b]? := by
  simp only [numbers, List.getElem?_map]
  constructor
  · intro hsame
    cases ha : keys[a]? with
    | none => simpa [ha, eq_comm] using hsame
    | some key =>
      rw [ha, Option.map_some, eq_comm, Option.map_eq_some_iff] at hsame
      obtain ⟨other, hother, hnumber⟩ := hsame
      have hmem : other ∈ classes keys := mem_classes.mpr (List.mem_of_getElem? hother)
      rw [hother, (List.idxOf_inj hmem).mp hnumber]
  · intro hsame
    rw [hsame]

/-- There are as many classes as distinct keys. -/
theorem length_classes (keys : List κ) : (classes keys).length = keys.toFinset.card := by
  rw [← List.toFinset_card_of_nodup (nodup_classes keys)]
  refine congrArg Finset.card (Finset.ext fun key => ?_)
  rw [List.mem_toFinset, List.mem_toFinset, mem_classes]

/-- One key for all CPUs is one class. -/
theorem classes_replicate (count : Nat) (key : κ) :
    classes (List.replicate (count + 1) key) = [key] := by
  induction count with
  | zero => rfl
  | succ count ih => rw [List.replicate_succ, classes, if_pos (by simp), ih]

/-- A class comes after another when it has a CPU above all CPUs of the other. -/
theorem pairwise_classes (keys : List κ) :
    (classes keys).Pairwise fun a b =>
      ∃ last : Nat, keys[last]? = some b ∧ ∀ cpu : Nat, keys[cpu]? = some a → cpu < last := by
  induction keys with
  | nil => exact List.Pairwise.nil
  | cons first rest ih =>
    -- every CPU of the rest moves up by one place
    have hrest : (classes rest).Pairwise fun a b => ∃ last : Nat, (first :: rest)[last]? = some b ∧
        ∀ cpu : Nat, (first :: rest)[cpu]? = some a → cpu < last := by
      refine ih.imp fun {a b} hab => ?_
      obtain ⟨last, hlast, hbelow⟩ := hab
      refine ⟨last + 1, hlast, fun cpu hcpu => ?_⟩
      cases cpu with
      | zero => exact Nat.succ_pos last
      | succ cpu => exact Nat.succ_lt_succ (hbelow cpu hcpu)
    rw [classes]
    by_cases hagain : first ∈ rest
    · rwa [if_pos hagain]
    · rw [if_neg hagain]
      refine List.pairwise_cons.mpr ⟨fun b hb => ?_, hrest⟩
      obtain ⟨last, hlast⟩ := List.mem_iff_getElem?.mp (mem_classes.mp hb)
      refine ⟨last + 1, hlast, fun cpu hcpu => ?_⟩
      cases cpu with
      | zero => exact Nat.succ_pos last
      | succ cpu =>
        rw [List.getElem?_cons_succ] at hcpu
        exact absurd (List.mem_of_getElem? hcpu) hagain

/-! ## The masks of the classes -/

/-- The mask of a class selects the CPUs that have its key. -/
theorem test_mask {keys : List κ} {key : κ} {cpu : Nat} :
    (Mask.ofIndices keys.length (members keys key)).test cpu = true ↔ keys[cpu]? = some key := by
  rw [Mask.test_ofIndices, List.contains_iff_mem, mem_members]

/-- A bit-set as long as there are CPUs that selects those with a key is the mask of the key's
class. -/
theorem mask_eq {keys : List κ} {key : κ} {mask : Mask} (hgroup : mask.groupId? = none)
    (hwidth : mask.width = keys.length)
    (htest : ∀ cpu, mask.test cpu = true ↔ keys[cpu]? = some key) :
    Mask.ofIndices keys.length (members keys key) = mask := by
  have hroom : ∀ cpu ∈ members keys key, cpu < keys.length := fun _ hcpu =>
    (List.getElem?_eq_some_iff.mp (mem_members.mp hcpu)).1
  exact Mask.eq_of_test ((Mask.groupId?_ofIndices _ _).trans hgroup.symm)
    ((Mask.width_ofIndices hroom).trans hwidth.symm) fun cpu => test_mask.trans (htest cpu).symm

theorem length_masks (keys : List κ) : (masks keys).length = keys.toFinset.card := by
  rw [masks, List.length_map, length_classes]

/-- The masks of the classes ascend. -/
theorem ascends_masks (keys : List κ) : Mask.Ascends (masks keys) := by
  refine List.pairwise_map.mpr ((pairwise_classes keys).imp fun {a b} hab => ?_)
  obtain ⟨last, hlast, hbelow⟩ := hab
  refine Mask.cmp_eq_lt_of_highest (Mask.isGroup_ofIndices _ _) (Mask.isGroup_ofIndices _ _)
    (fun cpu hcpu => ?_) (test_mask.mpr hlast)
  exact hbelow cpu (test_mask.mp hcpu)

/-- The masks of the classes are bit-sets. -/
theorem isGroup_of_mem_masks {keys : List κ} {mask : Mask} (hmask : mask ∈ masks keys) :
    mask.isGroup = false := by
  obtain ⟨key, -, rfl⟩ := List.mem_map.mp hmask
  exact Mask.isGroup_ofIndices _ _

/-- A CPU is in the mask that has its number, and in no other. -/
theorem test_getElem?_masks {keys : List κ} {id : Nat} {mask : Mask}
    (hmask : (masks keys)[id]? = some mask) (cpu : Nat) :
    mask.test cpu = true ↔ (numbers keys)[cpu]? = some id := by
  rw [masks, List.getElem?_map] at hmask
  obtain ⟨key, hclass, rfl⟩ := Option.map_eq_some_iff.mp hmask
  rw [test_mask, getElem?_numbers_eq_some_iff, hclass]
  simp

theorem length_numbers (keys : List κ) : (numbers keys).length = keys.length :=
  List.length_map _

/-- Each number is that of a mask. -/
theorem exists_mask_of_number {keys : List κ} {cpu : Nat} (hcpu : cpu < keys.length) :
    ∃ id mask, (numbers keys)[cpu]? = some id ∧ (masks keys)[id]? = some mask := by
  have hlt : cpu < (numbers keys).length := by rwa [length_numbers]
  have hid := List.getElem?_eq_getElem hlt
  obtain ⟨key, hclass, -⟩ := getElem?_numbers_eq_some_iff.mp hid
  refine ⟨_, Mask.ofIndices keys.length (members keys key), hid, ?_⟩
  rw [masks, List.getElem?_map, hclass, Option.map_some]

/-- Each mask is that of a CPU. -/
theorem exists_cpu_of_mask {keys : List κ} {mask : Mask} (hmask : mask ∈ masks keys) :
    ∃ cpu, mask.test cpu = true := by
  obtain ⟨key, hkey, rfl⟩ := List.mem_map.mp hmask
  obtain ⟨cpu, hcpu⟩ := List.mem_iff_getElem?.mp (mem_classes.mp hkey)
  exact ⟨cpu, test_mask.mpr hcpu⟩

end Numbering

end CpuPlacement
