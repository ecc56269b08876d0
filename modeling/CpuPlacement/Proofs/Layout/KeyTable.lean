import CpuPlacement.Proofs.Layout.LastCpu
import CpuPlacement.Proofs.Layout.Renumbering
import CpuPlacement.Proofs.Sorted
import CpuPlacement.Proofs.Traversal
import Mathlib

/-!
# Numbering through a table of keys

The masks of the classes can be collected in one pass over the CPUs, in a table that is in the order
of its keys. After each CPU the table holds the keys met so far, each with the mask of the CPUs that
have it (`Tabulates`). Put into the numeric order of the masks, the table lists the keys by their
last CPUs, since masks that share no CPU are in the order of their highest ones. So the order of the
keys leaves no trace in masks and numbers (`byTable_eq`), whichever order that is.
-/

set_option autoImplicit false

namespace CpuPlacement

/-! ## Masks by their highest CPUs -/

namespace Mask

/-- The highest position of a mask is the logarithm of its number. -/
theorem isGreatest_log2 {m : Mask} (h : m.isEmpty = false) :
    IsGreatest {cpu | cpu ∈ m.indices} m.number.log2 := by
  have hnonzero : m.number ≠ 0 := beq_eq_false_iff_ne.mp h
  obtain ⟨htop, habove⟩ := highestOne?_eq_some_iff.mp (if_neg hnonzero)
  refine ⟨mem_indices.mpr htop, fun cpu hcpu => ?_⟩
  by_contra hcpu'
  have hzero : m.test cpu = false := habove cpu (Nat.lt_of_not_le hcpu')
  rw [mem_indices.mp hcpu] at hzero
  cases hzero

/-- Bit-sets that share no CPU are in the order of their highest ones. -/
theorem cmp_eq_lt_iff_highest {a b : Mask} (ha : a.isGroup = false) (hb : b.isGroup = false)
    (hapart : a.indices.Disjoint b.indices) {s t : Nat}
    (hs : IsGreatest {cpu | cpu ∈ a.indices} s) (ht : IsGreatest {cpu | cpu ∈ b.indices} t) :
    a.cmp b = .lt ↔ s < t := by
  constructor
  · intro hlt
    obtain ⟨top, htop, hbelow⟩ := exists_above_of_cmp_lt (sameSpace_of_bitsets ha hb) hlt
      fun cpu hcpu hcpu' => hapart (mem_indices.mpr hcpu) (mem_indices.mpr hcpu')
    exact Nat.lt_of_lt_of_le (hbelow s (mem_indices.mp hs.1)) (ht.2 (mem_indices.mpr htop))
  · intro hlt
    refine cmp_eq_lt_of_highest ha hb (fun cpu hcpu => ?_) (mem_indices.mp ht.1)
    exact Nat.lt_of_le_of_lt (hs.2 (mem_indices.mpr hcpu)) hlt

theorem ofIndices_append_singleton (length : Nat) (cpus : List Nat) (cpu : Nat) :
    ofIndices length (cpus ++ [cpu]) = (ofIndices length cpus).insert cpu :=
  List.foldl_append

end Mask

namespace Numbering

/-! ## Collecting masks by key -/

section Table

variable {κ : Type}

/-- Adds a CPU to the mask of its key. A new key gets its place in the order of the keys, and a mask
with room for as many CPUs as there are. -/
def enter (order : κ → κ → Ordering) (length : Nat) (key : κ) (cpu : Nat) :
    List (κ × Mask) → List (κ × Mask)
  | [] => [(key, (Mask.empty length).insert cpu)]
  | (other, mask) :: rest =>
    match order key other with
    | .lt => (key, (Mask.empty length).insert cpu) :: (other, mask) :: rest
    | .eq => (other, mask.insert cpu) :: rest
    | .gt => (other, mask) :: enter order length key cpu rest

/-- The keys of the CPUs in their order, each with its mask. -/
def table (order : κ → κ → Ordering) (length : Nat) (keys : List κ) : List (κ × Mask) :=
  keys.zipIdx.foldl (fun entries (key, cpu) => enter order length key cpu entries) []

/-- The masks of the table in numeric order, and for each CPU the place that its key has among them.
There is no answer for a key that has no place. -/
def byTable [DecidableEq κ] (order : κ → κ → Ordering) (keys : List κ) :
    Option (List Mask × List Nat) := do
  let ordered := sortedBy (fun a b => a.2.cmp b.2) (table order keys.length keys)
  let numbers ← keys.mapM fun key => (ordered.map (·.1)).idxOf? key
  return (ordered.map (·.2), numbers)

/-- Each entry's key is below those of all that come after it. -/
def KeysAscend (order : κ → κ → Ordering) (entries : List (κ × Mask)) : Prop :=
  entries.Pairwise fun a b => order a.1 b.1 = .lt

variable {order : κ → κ → Ordering} {length : Nat} {key : κ} {cpu : Nat}
  {entries : List (κ × Mask)}

/-- No key but that of the CPU is new. -/
theorem fst_of_mem_enter {entry : κ × Mask} (h : entry ∈ enter order length key cpu entries) :
    entry.1 = key ∨ ∃ old ∈ entries, old.1 = entry.1 := by
  induction entries with
  | nil => exact .inl (congrArg Prod.fst (List.mem_singleton.mp h))
  | cons first rest ih =>
    rw [enter] at h
    split at h
    · rcases List.mem_cons.mp h with rfl | hold
      · exact .inl rfl
      · exact .inr ⟨entry, hold, rfl⟩
    · rcases List.mem_cons.mp h with rfl | hold
      · exact .inr ⟨first, List.mem_cons_self, rfl⟩
      · exact .inr ⟨entry, List.mem_cons_of_mem first hold, rfl⟩
    · rcases List.mem_cons.mp h with rfl | hold
      · exact .inr ⟨_, List.mem_cons_self, rfl⟩
      · refine (ih hold).imp_right fun ⟨old, hmem, hsame⟩ => ?_
        exact ⟨old, List.mem_cons_of_mem first hmem, hsame⟩

section Order

variable [Std.TransCmp order]

theorem ne_of_order_eq_lt {a b : κ} (h : order a b = .lt) : a ≠ b := by
  rintro rfl
  cases Std.ReflCmp.compare_self.symm.trans h

theorem KeysAscend.nodup (h : KeysAscend order entries) : entries.Nodup :=
  h.imp fun hlt hsame => ne_of_order_eq_lt hlt (congrArg Prod.fst hsame)

/-- Entering a CPU keeps the entries in the order of their keys. -/
theorem KeysAscend.enter (h : KeysAscend order entries) :
    KeysAscend order (enter order length key cpu entries) := by
  induction entries with
  | nil => exact List.pairwise_singleton _ _
  | cons first rest ih =>
    obtain ⟨hfirst, hrest⟩ := List.pairwise_cons.mp h
    rw [Numbering.enter]
    split
    · next hlt =>
      refine List.pairwise_cons.mpr ⟨fun entry hentry => ?_, h⟩
      rcases List.mem_cons.mp hentry with rfl | hentry
      · exact hlt
      · exact Std.TransCmp.lt_trans hlt (hfirst entry hentry)
    · exact List.pairwise_cons.mpr ⟨hfirst, hrest⟩
    · next hgt =>
      refine List.pairwise_cons.mpr ⟨fun entry hentry => ?_, ih hrest⟩
      rcases fst_of_mem_enter hentry with hsame | ⟨old, hold, hsame⟩
      · exact hsame ▸ Std.OrientedCmp.gt_iff_lt.mp hgt
      · exact hsame ▸ hfirst old hold

variable [Std.LawfulEqCmp order]

/-- Where each entry has the mask of its key, and that of a new key is empty, the CPU comes into the
mask of its key and the other entries stay. -/
theorem mem_enter (h : KeysAscend order entries) {mask : κ → Mask}
    (hmasks : ∀ entry ∈ entries, entry.2 = mask entry.1)
    (hnew : (∀ entry ∈ entries, entry.1 ≠ key) → mask key = Mask.empty length) {entry : κ × Mask} :
    entry ∈ enter order length key cpu entries ↔
      entry = (key, (mask key).insert cpu) ∨ entry ∈ entries ∧ entry.1 ≠ key := by
  induction entries with
  | nil => simp [enter, hnew]
  | cons first rest ih =>
    obtain ⟨hfirst, hrest⟩ := List.pairwise_cons.mp h
    obtain ⟨hmask, hmasks⟩ := List.forall_mem_cons.mp hmasks
    rw [enter]
    split
    -- the key comes before all entries: it is new
    · next hlt =>
      have habove : ∀ old ∈ first :: rest, old.1 ≠ key := by
        refine List.forall_mem_cons.mpr ⟨(ne_of_order_eq_lt hlt).symm, fun old hold => ?_⟩
        exact (ne_of_order_eq_lt (Std.TransCmp.lt_trans hlt (hfirst old hold))).symm
      rw [List.mem_cons, hnew habove]
      exact or_congr_right (and_iff_left_of_imp (habove entry)).symm
    · next heq =>
      have hsame : first.1 = key := (Std.LawfulEqCmp.compare_eq_iff_eq.mp heq).symm
      rw [List.mem_cons, List.mem_cons, hmask, hsame]
      refine or_congr_right ⟨fun hold => ⟨.inr hold, ?_⟩, ?_⟩
      · exact hsame ▸ (ne_of_order_eq_lt (hfirst entry hold)).symm
      · rintro ⟨rfl | hold, hne⟩
        · exact absurd hsame hne
        · exact hold
    -- the key comes later: the first entry stays and the rest takes the CPU
    · next hgt =>
      have hne : first.1 ≠ key := ne_of_order_eq_lt (Std.OrientedCmp.gt_iff_lt.mp hgt)
      have hlater := ih hrest hmasks fun hnone => hnew (List.forall_mem_cons.mpr ⟨hne, hnone⟩)
      rw [List.mem_cons, List.mem_cons, hlater]
      grind

end Order

end Table

/-! ## The table after a pass over the CPUs -/

section Pass

variable {κ : Type} [DecidableEq κ] {order : κ → κ → Ordering} {length : Nat} {keys : List κ}
  {entries : List (κ × Mask)}

/-- The entries are the keys that occur, each with the mask of the CPUs that have it. -/
structure Tabulates (order : κ → κ → Ordering) (length : Nat) (keys : List κ)
    (entries : List (κ × Mask)) : Prop where
  ascends : KeysAscend order entries
  mem_iff : ∀ entry, entry ∈ entries ↔
    entry.1 ∈ keys ∧ entry.2 = Mask.ofIndices length (members keys entry.1)

/-- One more CPU is a member of the class of its key, and of no other. -/
theorem members_append_singleton (keys : List κ) (last key : κ) :
    members (keys ++ [last]) key =
      members keys key ++ if last = key then [keys.length] else [] := by
  rw [members, List.zipIdx_append, List.filterMap_append, ← members]
  by_cases hsame : last = key <;> simp [hsame]

theorem members_eq_nil {key : κ} (h : key ∉ keys) : members keys key = [] :=
  List.eq_nil_iff_forall_not_mem.mpr fun _ hcpu => h (List.mem_of_getElem? (mem_members.mp hcpu))

/-- One CPU more is entered. -/
theorem Tabulates.enter [Std.TransCmp order] [Std.LawfulEqCmp order]
    (h : Tabulates order length keys entries) (key : κ) :
    Tabulates order length (keys ++ [key]) (enter order length key keys.length entries) where
  ascends := h.ascends.enter
  mem_iff entry := by
    -- what the entries hold before the CPU comes in, and a key without entry would
    let mask (key : κ) := Mask.ofIndices length (members keys key)
    have hmasks : ∀ entry ∈ entries, entry.2 = mask entry.1 := fun entry hentry =>
      ((h.mem_iff entry).mp hentry).2
    have hnew : (∀ entry ∈ entries, entry.1 ≠ key) → mask key = Mask.empty length := by
      intro hnone
      have hkey : key ∉ keys := by
        intro hkey
        exact hnone (key, mask key) ((h.mem_iff _).mpr ⟨hkey, rfl⟩) rfl
      exact congrArg (Mask.ofIndices length) (members_eq_nil hkey)
    rw [mem_enter h.ascends hmasks hnew, h.mem_iff, members_append_singleton, List.mem_append,
      List.mem_singleton]
    obtain ⟨other, found⟩ := entry
    by_cases hsame : other = key
    · subst hsame
      simp [mask, Mask.ofIndices_append_singleton]
    · simp [hsame, Ne.symm hsame]

/-- From CPU to CPU, the table holds what it should. -/
theorem tabulates_table (order : κ → κ → Ordering) [Std.TransCmp order] [Std.LawfulEqCmp order]
    (length : Nat) (keys : List κ) : Tabulates order length keys (table order length keys) := by
  induction keys using List.reverseRecOn with
  | nil => exact ⟨List.Pairwise.nil, fun entry => by simp [table]⟩
  | append_singleton keys key ih =>
    have hstep : table order length (keys ++ [key]) =
        Numbering.enter order length key keys.length (table order length keys) := by
      simp [table, List.zipIdx_append, List.foldl_append]
    exact hstep ▸ ih.enter key

/-! ## The table in the order of its masks -/

/-- The classes with their masks. -/
def entriesOf (keys : List κ) : List (κ × Mask) :=
  (classes keys).map fun key => (key, Mask.ofIndices keys.length (members keys key))

theorem map_fst_entriesOf (keys : List κ) : (entriesOf keys).map (·.1) = classes keys := by
  simp [entriesOf, List.map_map, Function.comp_def]

theorem map_snd_entriesOf (keys : List κ) : (entriesOf keys).map (·.2) = masks keys := by
  simp [entriesOf, masks, List.map_map, Function.comp_def]

theorem pairwise_entriesOf (keys : List κ) :
    (entriesOf keys).Pairwise fun a b => a.2.cmp b.2 = .lt :=
  List.pairwise_map.mp (map_snd_entriesOf keys ▸ ascends_masks keys)

/-- A table of the keys has the entries of the classes, in the order of the keys instead. -/
theorem perm_entriesOf [Std.TransCmp order] (h : Tabulates order keys.length keys entries) :
    entries.Perm (entriesOf keys) := by
  have hnodup : (entriesOf keys).Nodup :=
    List.Nodup.of_map (·.1) (map_fst_entriesOf keys ▸ nodup_classes keys)
  refine (List.perm_ext_iff_of_nodup h.ascends.nodup hnodup).mpr fun entry => ?_
  rw [h.mem_iff, entriesOf, List.mem_map]
  constructor
  · rintro ⟨hkey, hmask⟩
    exact ⟨entry.1, mem_classes.mpr hkey, by rw [← hmask]⟩
  · rintro ⟨key, hkey, rfl⟩
    exact ⟨mem_classes.mp hkey, rfl⟩

/-- Sorted by its masks, the table lists the classes. -/
theorem sortedBy_table (order : κ → κ → Ordering) [Std.TransCmp order] [Std.LawfulEqCmp order]
    (keys : List κ) :
    sortedBy (fun a b => a.2.cmp b.2) (table order keys.length keys) = entriesOf keys := by
  have htrans : Std.TransCmp fun a b : κ × Mask => a.2.cmp b.2 := transCmp_on Mask.cmp Prod.snd
  have hperm := perm_entriesOf (tabulates_table order keys.length keys)
  have hsorted := pairwise_entriesOf keys
  have hdiffer : (table order keys.length keys).Pairwise fun a b => a.2.cmp b.2 ≠ .eq := by
    refine (hsorted.imp fun hlt heq => ?_).perm hperm.symm fun hne heq => ?_
    · cases hlt.symm.trans heq
    · exact hne (Std.OrientedCmp.eq_symm heq)
  refine ((List.mergeSort_perm _ _).trans hperm).eq_of_pairwise (fun a b _ _ hab hba => ?_)
    (pairwise_lt_sortedBy hdiffer) hsorted
  exact absurd hba (Std.OrientedCmp.not_lt_of_lt hab)

/-- Each key that occurs has a place, and so all CPUs have a number. -/
theorem byTable_eq (order : κ → κ → Ordering) [Std.TransCmp order] [Std.LawfulEqCmp order]
    (keys : List κ) : byTable order keys = some (masks keys, numbers keys) := by
  have hnumbers : (keys.mapM fun key => (classes keys).idxOf? key) = some (numbers keys) := by
    refine mapM_eq_some fun key hkey => ?_
    obtain ⟨place, hplace⟩ := Option.isSome_iff_exists.mp
      (List.isSome_idxOf?.mpr (mem_classes.mpr hkey))
    rw [hplace, List.idxOf_eq_getD_idxOf?, hplace, Option.getD_some]
  simp only [byTable, sortedBy_table, map_fst_entriesOf, map_snd_entriesOf, hnumbers]
  rfl

end Pass

/-! ## What the numbers say -/

section Numbered

variable {κ : Type} [DecidableEq κ]

/-- Masks and numbers tell which CPUs have one key, and are in the order of the highest CPUs. -/
structure NumberedByHighest (keys : List κ) (masks : List Mask) (numbers : List Nat) : Prop where
  length_numbers : numbers.length = keys.length
  number_eq_iff : ∀ i < keys.length, ∀ j < keys.length,
    (numbers[i]? = numbers[j]? ↔ keys[i]? = keys[j]?)
  bitset : ∀ mask ∈ masks, mask.isGroup = false ∧ mask.width = keys.length
  inhabited : ∀ mask ∈ masks, mask.isEmpty = false
  disjoint : masks.Pairwise fun a b => a.indices.Disjoint b.indices
  covers : ∀ cpu, cpu < keys.length ↔ ∃ mask ∈ masks, cpu ∈ mask.indices
  /-- The mask of a CPU's number lists the CPUs that have its key. -/
  mask_of_number : ∀ (cpu : Nat) (key : κ), keys[cpu]? = some key → ∃ (number : Nat) (mask : Mask),
    numbers[cpu]? = some number ∧ masks[number]? = some mask ∧
      mask.indices = (List.range keys.length).filter fun other => keys[other]? = some key
  ascends : Mask.Ascends masks
  /-- The mask with the higher last CPU comes later, in the list and in the numeric order. -/
  highest : ∀ (i j : Nat) (a b : Mask), masks[i]? = some a → masks[j]? = some b → ∃ s t,
    IsGreatest {cpu | cpu ∈ a.indices} s ∧ IsGreatest {cpu | cpu ∈ b.indices} t ∧
      (i < j ↔ s < t) ∧ (a.cmp b = .lt ↔ s < t)

variable {keys : List κ}

theorem mem_indices_iff {id : Nat} {mask : Mask} (hmask : (masks keys)[id]? = some mask)
    {cpu : Nat} : cpu ∈ mask.indices ↔ (numbers keys)[cpu]? = some id := by
  rw [Mask.mem_indices, test_getElem?_masks hmask]

theorem isEmpty_of_mem_masks {mask : Mask} (hmask : mask ∈ masks keys) : mask.isEmpty = false := by
  obtain ⟨_, hcpu⟩ := exists_cpu_of_mask hmask
  exact Mask.isEmpty_eq_false_of_test hcpu

/-- The masks are all as long as there are CPUs. -/
theorem width_of_mem_masks {mask : Mask} (hmask : mask ∈ masks keys) :
    mask.width = keys.length := by
  obtain ⟨key, -, rfl⟩ := List.mem_map.mp hmask
  refine Mask.width_ofIndices fun cpu hcpu => ?_
  exact (List.getElem?_eq_some_iff.mp (mem_members.mp hcpu)).1

/-- No CPU is in two masks. -/
theorem disjoint_indices {i j : Nat} {a b : Mask} (ha : (masks keys)[i]? = some a)
    (hb : (masks keys)[j]? = some b) (hne : i ≠ j) : a.indices.Disjoint b.indices := by
  intro cpu hcpu hcpu'
  have hi := (mem_indices_iff ha).mp hcpu
  have hj := (mem_indices_iff hb).mp hcpu'
  exact hne (Option.some.inj (hi.symm.trans hj))

/-- Every CPU is in a mask. -/
theorem covers_masks {cpu : Nat} :
    cpu < keys.length ↔ ∃ mask ∈ masks keys, cpu ∈ mask.indices := by
  constructor
  · intro hcpu
    obtain ⟨id, mask, hid, hmask⟩ := exists_mask_of_number hcpu
    exact ⟨mask, List.mem_of_getElem? hmask, (mem_indices_iff hmask).mpr hid⟩
  · rintro ⟨mask, hmask, hcpu⟩
    obtain ⟨id, hid⟩ := List.mem_iff_getElem?.mp hmask
    have hnumber := (mem_indices_iff hid).mp hcpu
    exact length_numbers keys ▸ (List.getElem?_eq_some_iff.mp hnumber).1

/-- The mask of a CPU's number lists the CPUs that have its key. -/
theorem indices_eq_filter {cpu : Nat} {key : κ} (hkey : keys[cpu]? = some key) :
    ∃ number mask, (numbers keys)[cpu]? = some number ∧ (masks keys)[number]? = some mask ∧
      mask.indices = (List.range keys.length).filter fun other => keys[other]? = some key := by
  have hcpu : cpu < keys.length := (List.getElem?_eq_some_iff.mp hkey).1
  obtain ⟨number, mask, hnumber, hmask⟩ := exists_mask_of_number hcpu
  refine ⟨number, mask, hnumber, hmask, ?_⟩
  refine (Mask.pairwise_indices mask).eq_of_mem_iff (List.pairwise_lt_range.filter _)
    fun other => ?_
  rw [mem_indices_iff hmask, ← hnumber, getElem?_numbers_eq_iff, hkey, List.mem_filter,
    List.mem_range, decide_eq_true_iff]
  exact (and_iff_right_of_imp fun hother => (List.getElem?_eq_some_iff.mp hother).1).symm

/-- Masks are numbered, and ordered, by their highest CPUs. -/
theorem lt_iff_highest {i j : Nat} {a b : Mask} (ha : (masks keys)[i]? = some a)
    (hb : (masks keys)[j]? = some b) : ∃ s t,
      IsGreatest {cpu | cpu ∈ a.indices} s ∧ IsGreatest {cpu | cpu ∈ b.indices} t ∧
        (i < j ↔ s < t) ∧ (a.cmp b = .lt ↔ s < t) := by
  have hs := Mask.isGreatest_log2 (isEmpty_of_mem_masks (List.mem_of_getElem? ha))
  have ht := Mask.isGreatest_log2 (isEmpty_of_mem_masks (List.mem_of_getElem? hb))
  have hcmp : a.cmp b = .lt ↔ a.number.log2 < b.number.log2 := by
    by_cases hsame : i = j
    · obtain rfl : a = b := Option.some.inj (ha.symm.trans (hsame ▸ hb))
      have hrefl : a.cmp a = .eq := Std.ReflCmp.compare_self
      simp [hrefl]
    · exact Mask.cmp_eq_lt_iff_highest (isGroup_of_mem_masks (List.mem_of_getElem? ha))
        (isGroup_of_mem_masks (List.mem_of_getElem? hb)) (disjoint_indices ha hb hsame) hs ht
  exact ⟨_, _, hs, ht, ((ascends_masks keys).lt_iff ha hb).trans hcmp, hcmp⟩

/-- The numbering of classes goes by their highest CPUs. -/
theorem numberedByHighest (keys : List κ) :
    NumberedByHighest keys (masks keys) (numbers keys) where
  length_numbers := length_numbers keys
  number_eq_iff _ _ _ _ := getElem?_numbers_eq_iff
  bitset _ hmask := ⟨isGroup_of_mem_masks hmask, width_of_mem_masks hmask⟩
  inhabited _ := isEmpty_of_mem_masks
  disjoint := List.pairwise_iff_getElem.mpr fun _ _ hi hj hlt =>
    disjoint_indices (List.getElem?_eq_getElem hi) (List.getElem?_eq_getElem hj) (Nat.ne_of_lt hlt)
  covers _ := covers_masks
  mask_of_number _ _ := indices_eq_filter
  ascends := ascends_masks keys
  highest _ _ _ _ := lt_iff_highest

end Numbered

end Numbering

/-- However the keys are ordered, collecting the masks by key and sorting them gives one mask for
each key that occurs, numbered by its highest CPU. Other names for the keys give the same. -/
theorem classes_numbered_by_highest {κ : Type} [DecidableEq κ] (order : κ → κ → Ordering)
    [Std.TransCmp order] [Std.LawfulEqCmp order] (keys : List κ) :
    Numbering.byTable order keys = some (Numbering.masks keys, Numbering.numbers keys) ∧
      Numbering.NumberedByHighest keys (Numbering.masks keys) (Numbering.numbers keys) ∧
      ∀ (ι : Type) [DecidableEq ι] (rename : κ → ι), Set.InjOn rename {key | key ∈ keys} →
        Numbering.masks (keys.map rename) = Numbering.masks keys ∧
          Numbering.numbers (keys.map rename) = Numbering.numbers keys := by
  refine ⟨Numbering.byTable_eq order keys, Numbering.numberedByHighest keys, ?_⟩
  intro ι _ rename hrename
  exact ⟨Numbering.masks_map_of_injOn hrename, Numbering.numbers_map_of_injOn hrename⟩

/-- Three cores on two sockets. The core that comes first by its ids comes second by its CPUs. -/
theorem classes_numbered_by_highest_cores :
    let keys := [(1, 0), (0, 1), (1, 0), (0, 0), (0, 1)]
    let masks : List Mask := [.bitset 5 0b00101, .bitset 5 0b01000, .bitset 5 0b10010]
    Numbering.byTable lexOrd.compare keys = some (masks, [0, 2, 0, 1, 2]) ∧
      Numbering.NumberedByHighest keys masks [0, 2, 0, 1, 2] ∧
      Numbering.masks (keys.map Prod.swap) = masks ∧
        Numbering.numbers (keys.map Prod.swap) = [0, 2, 0, 1, 2] := by
  intro keys masks
  have hmasks : Numbering.masks keys = masks := by decide
  have hnumbers : Numbering.numbers keys = [0, 2, 0, 1, 2] := by decide
  obtain ⟨htable, hnumbered, hrename⟩ := classes_numbered_by_highest lexOrd.compare keys
  rw [hmasks, hnumbers] at htable hnumbered hrename
  exact ⟨htable, hnumbered, hrename (Nat × Nat) Prod.swap Prod.swap_injective.injOn⟩

end CpuPlacement
