import CpuPlacement.Proofs.Layout.Numbering
import Mathlib

/-!
# Numbering what is numbered already

Keys can be the numbers of an earlier numbering. The classes get the same numbers again exactly when
they are in the order of their last CPUs, since that is the order of `Numbering.classes`
(`classes_eq_range`). What the keys are called plays no part: renaming them without making two of
them equal changes neither numbers nor masks (`numbers_map_of_injOn`, `masks_map_of_injOn`).
-/

set_option autoImplicit false

namespace CpuPlacement.Numbering

/-! ## Keys that are numbers -/

/-- Keys from `0` on that have their last occurrences in ascending order are their own classes. -/
theorem classes_eq_range {keys : List Nat} {count : Nat} (hkeys : ∀ key, key ∈ keys ↔ key < count)
    (hordered : ∀ a b, a < b → b < count →
      ∃ last : Nat, keys[last]? = some b ∧ ∀ cpu : Nat, keys[cpu]? = some a → cpu < last) :
    classes keys = List.range count := by
  have hperm : (classes keys).Perm (List.range count) := by
    refine (List.perm_ext_iff_of_nodup (nodup_classes keys) List.nodup_range).mpr fun key => ?_
    rw [mem_classes, hkeys, List.mem_range]
  have hrange : (List.range count).Pairwise fun a b =>
      ∃ last : Nat, keys[last]? = some b ∧ ∀ cpu : Nat, keys[cpu]? = some a → cpu < last :=
    List.pairwise_lt_range.imp_of_mem fun _ hb hlt => hordered _ _ hlt (List.mem_range.mp hb)
  refine hperm.eq_of_pairwise (fun a b _ _ hab hba => ?_) (pairwise_classes keys) hrange
  -- two keys cannot each have a CPU above all CPUs of the other
  obtain ⟨last, hlast, hbelow⟩ := hab
  obtain ⟨first, hfirst, habove⟩ := hba
  exact absurd (hbelow first hfirst) (Nat.lt_asymm (habove last hlast))

/-- Keys that do not repeat are their own classes too. -/
theorem classes_of_nodup {κ : Type} [DecidableEq κ] {keys : List κ} (h : keys.Nodup) :
    classes keys = keys := by
  induction keys with
  | nil => rfl
  | cons first rest ih =>
    obtain ⟨hnew, hrest⟩ := List.nodup_cons.mp h
    rw [classes, if_neg hnew, ih hrest]

/-- Each CPU then has a class of its own, and its own number. -/
theorem numbers_of_nodup {κ : Type} [DecidableEq κ] {keys : List κ} (h : keys.Nodup) :
    numbers keys = List.range keys.length := by
  refine List.ext_getElem ?_ fun cpu hcpu _ => ?_
  · rw [length_numbers, List.length_range]
  · simp only [numbers, classes_of_nodup h, List.getElem_map, List.getElem_range]
    exact h.idxOf_getElem cpu _

/-- And a mask of its own. -/
theorem masks_of_nodup {κ : Type} [DecidableEq κ] {keys : List κ} (h : keys.Nodup) :
    masks keys = (List.range keys.length).map (Mask.single keys.length) := by
  have hlength : (masks keys).length = keys.length := by
    rw [masks, List.length_map, classes_of_nodup h]
  refine List.ext_getElem (by simpa using hlength) fun cpu hcpu _ => ?_
  have hlt : cpu < keys.length := hlength ▸ hcpu
  simp only [masks, classes_of_nodup h, List.getElem_map, List.getElem_range]
  refine mask_eq (Mask.groupId?_ofIndices _ _) (Mask.width_ofIndices ?_) fun other => ?_
  · exact fun other hother => List.mem_singleton.mp hother ▸ hlt
  · rw [Mask.test_single, decide_eq_true_iff, List.getElem?_eq_some_iff]
    constructor
    · rintro rfl
      exact ⟨hlt, rfl⟩
    · rintro ⟨hother, hsame⟩
      exact h.getElem_inj_iff.mp hsame

/-- Where all CPUs have one key, one mask has them all. -/
theorem masks_replicate {κ : Type} [DecidableEq κ] (count : Nat) (key : κ) :
    masks (List.replicate (count + 1) key) = [Mask.full (count + 1)] := by
  rw [masks, classes_replicate, List.map_singleton]
  refine congrArg (fun mask => [mask]) (mask_eq rfl List.length_replicate.symm fun cpu => ?_)
  rw [Mask.test_full, decide_eq_true_iff, List.getElem?_replicate]
  simp

/-- Keys that are their own classes are their own numbers. -/
theorem numbers_eq_self {keys : List Nat} {count : Nat} (h : classes keys = List.range count) :
    numbers keys = keys := by
  refine List.ext_getElem? fun cpu => ?_
  cases hkey : keys[cpu]? with
  | none => rw [numbers, List.getElem?_map, hkey, Option.map_none]
  | some key =>
    have hlt : key < count :=
      List.mem_range.mp (h ▸ mem_classes.mpr (List.mem_of_getElem? hkey))
    refine getElem?_numbers_eq_some_iff.mpr ⟨key, ?_, hkey⟩
    rw [h, List.getElem?_range hlt]

/-! ## Keys that are renamed -/

/-- The new name of a key that occurs is that of no other. -/
theorem map_getElem?_eq_iff {κ ι : Type} {f : κ → ι} {keys : List κ}
    (hf : Set.InjOn f {key | key ∈ keys}) {key : κ} (hkey : key ∈ keys) {cpu : Nat} :
    (keys.map f)[cpu]? = some (f key) ↔ keys[cpu]? = some key := by
  rw [List.getElem?_map, Option.map_eq_some_iff]
  constructor
  · rintro ⟨other, hother, hsame⟩
    rwa [← hf (List.mem_of_getElem? hother) hkey hsame]
  · intro hat
    exact ⟨key, hat, rfl⟩

section Renamed

variable {κ ι : Type} [DecidableEq κ] [DecidableEq ι] {f : κ → ι} {keys : List κ}

/-- Keys that are told apart in the same way make the same classes. -/
theorem classes_map_of_injOn (hf : Set.InjOn f {key | key ∈ keys}) :
    classes (keys.map f) = (classes keys).map f := by
  induction keys with
  | nil => rfl
  | cons first rest ih =>
    have hrest : Set.InjOn f {key | key ∈ rest} := hf.mono fun key => List.mem_cons_of_mem first
    rw [List.map_cons, classes, classes, ih hrest]
    by_cases hagain : first ∈ rest
    · rw [if_pos hagain, if_pos (List.mem_map_of_mem hagain)]
    · have hnew : f first ∉ rest.map f := by
        intro hmem
        obtain ⟨other, hother, hsame⟩ := List.mem_map.mp hmem
        exact hagain (hf (List.mem_cons_of_mem first hother) List.mem_cons_self hsame ▸ hother)
      rw [if_neg hagain, if_neg hnew, List.map_cons]

/-- Keys that are told apart in the same way number the CPUs alike. -/
theorem numbers_map_of_injOn (hf : Set.InjOn f {key | key ∈ keys}) :
    numbers (keys.map f) = numbers keys := by
  refine List.ext_getElem? fun cpu => Option.ext fun id => ?_
  rw [getElem?_numbers_eq_some_iff, getElem?_numbers_eq_some_iff, classes_map_of_injOn hf,
    List.getElem?_map]
  simp only [Option.map_eq_some_iff]
  constructor
  · rintro ⟨_, ⟨key, hclass, rfl⟩, hkey⟩
    have hmem := mem_classes.mp (List.mem_of_getElem? hclass)
    exact ⟨key, hclass, (map_getElem?_eq_iff hf hmem).mp hkey⟩
  · rintro ⟨key, hclass, hkey⟩
    have hmem := List.mem_of_getElem? hkey
    exact ⟨f key, ⟨key, hclass, rfl⟩, (map_getElem?_eq_iff hf hmem).mpr hkey⟩

/-- A class has the same members under another key. -/
theorem members_map_of_injOn (hf : Set.InjOn f {key | key ∈ keys}) {key : κ} (hkey : key ∈ keys) :
    members (keys.map f) (f key) = members keys key := by
  simp only [members, List.zipIdx_map, List.filterMap_map]
  refine List.filterMap_congr fun pair hpair => ?_
  have hsame : f pair.1 = f key ↔ pair.1 = key :=
    hf.eq_iff (List.mem_of_getElem? (List.mem_zipIdx_iff_getElem?.mp hpair)) hkey
  simp [hsame]

/-- Keys that are told apart in the same way make the same masks. -/
theorem masks_map_of_injOn (hf : Set.InjOn f {key | key ∈ keys}) :
    masks (keys.map f) = masks keys := by
  simp only [masks, classes_map_of_injOn hf, List.map_map, List.length_map]
  exact List.map_congr_left fun key hkey =>
    congrArg (Mask.ofIndices keys.length) (members_map_of_injOn hf (mem_classes.mp hkey))

theorem numbers_map (hf : Function.Injective f) (keys : List κ) :
    numbers (keys.map f) = numbers keys :=
  numbers_map_of_injOn hf.injOn

theorem masks_map (hf : Function.Injective f) (keys : List κ) :
    masks (keys.map f) = masks keys :=
  masks_map_of_injOn hf.injOn

end Renamed

end CpuPlacement.Numbering
