import CpuPlacement.Proofs.Layout.Grid
import CpuPlacement.Proofs.Text.Parts

/-!
# The flat layout as one of descriptors

The flat layout is written down without numbering, grouping or checks. It is still the layout that
the descriptors of its CPUs make, and that the description `1/n/1` makes: the parts that these are
assembled from are those of the flat layout (`Layout.partsOfDescriptors_flat`). All CPUs have one
socket id, which makes one mask as long as there are CPUs, and no two have one core id, so that
cores are numbered like CPUs.
-/

set_option autoImplicit false

namespace CpuPlacement

namespace Layout

open CpuPlacement.Numbering

/-! ## The parts of single-threaded cores in one socket -/

/-- Numbering and grouping the descriptors of the flat layout gives its own parts. -/
theorem partsOfDescriptors_flat (count : Nat) :
    partsOfDescriptors (flatParts (count + 1)).descriptors none none = flatParts (count + 1) := by
  have hlength : (flatParts (count + 1)).descriptors.length = count + 1 := by simp [flatParts]
  have hsockets : (flatParts (count + 1)).descriptors.map (·.socketId) =
      List.replicate (count + 1) 0 := map_descriptors_flatParts (fun _ => rfl) _
  have hcores : (flatParts (count + 1)).descriptors.map (fun d => (d.socketId, d.coreId)) =
      (List.range (count + 1)).map (Prod.mk 0) := by
    rw [flatParts, List.map_map]
    rfl
  have hclasses : classes (List.replicate (count + 1) 0) = List.range 1 := classes_replicate count 0
  have hinjective : Function.Injective (Prod.mk 0 : Nat → Nat × Nat) := Prod.mk_right_injective 0
  simp only [partsOfDescriptors, hlength, hsockets, hcores, numbers_eq_self hclasses,
    masks_replicate, numbers_map hinjective, masks_map hinjective,
    numbers_of_nodup List.nodup_range, masks_of_nodup List.nodup_range, List.length_range]
  -- only the slots are made in another way
  refine congrArg (fun slots => { flatParts (count + 1) with slots }) ?_
  refine List.ext_getElem (by simp [optionalNumbers]) fun cpu _ _ => ?_
  simp [optionalNumbers]

theorem fillsGrid_flatParts (count : Nat) : (flatParts (count + 1)).fillsGrid = true := by
  rw [Parts.fillsGrid, threadsPerCore_flatParts, beq_iff_eq]
  simp [flatParts, Parts.socketCount, Parts.coresPerSocket]

/-- The checks let the parts of the flat layout pass. -/
theorem assemble_flatParts (count : Nat) :
    (flatParts (count + 1)).assemble = .ok (flat (count + 1)) := by
  have hlayout : flat (count + 1) = (flatParts (count + 1)).layout := by
    rw [flat_eq_layout, Nat.max_eq_left (Nat.succ_pos count)]
  exact Parts.assemble_eq_ok_iff.mpr
    ⟨fillsGrid_flatParts count, hlayout ▸ misplacement?_flat (count + 1), hlayout.symm⟩

/-! ## The two sources -/

/-- The flat layout is the one of its descriptors. -/
theorem ofDescriptors_flat {count : Nat} (hcount : 0 < count) :
    ofDescriptors (flatParts count).descriptors = .ok (flat count) := by
  obtain ⟨more, rfl⟩ := Nat.exists_eq_add_one_of_ne_zero hcount.ne'
  have hnodes : (flatParts (more + 1)).descriptors.map (·.nodeId) =
      List.replicate (more + 1) none := map_descriptors_flatParts (fun _ => rfl) _
  have hgroups : (flatParts (more + 1)).descriptors.map (·.groupId) =
      List.replicate (more + 1) none := map_descriptors_flatParts (fun _ => rfl) _
  refine ofDescriptors_eq_ok_iff.mpr ⟨by simp [flatParts], none, none, ?_, ?_, ?_⟩
  · exact uniform?_of_none _ (hnodes ▸ fun _ => List.eq_of_mem_replicate)
  · exact uniform?_of_none _ (hgroups ▸ fun _ => List.eq_of_mem_replicate)
  · rw [partsOfDescriptors_flat, assemble_flatParts]

/-- A machine of one socket and one thread for each core has the descriptors of the flat layout. -/
theorem gridDescriptors_flat {count : Nat} (hcount : count < Numeral.idLimit) :
    gridDescriptors 1 count 1 = (flatParts count).descriptors := by
  have hword : 1 * count * 1 < Numeral.wordLimit := by
    rw [Nat.one_mul, Nat.mul_one]
    exact Nat.lt_trans hcount (by decide)
  rw [gridDescriptors_eq ⟨by decide, hcount, by decide, hword⟩, gridPlaces, flatParts, Nat.one_mul,
    Nat.one_mul]
  refine List.map_congr_left fun cpu hcpu => ?_
  have hlt : cpu < count := List.mem_range.mp hcpu
  rw [gridPlace, Nat.one_mul, Nat.mod_eq_of_lt hlt, Nat.mod_eq_of_lt hlt, Nat.div_eq_of_lt hlt]

/-- However the counts are spelled. -/
theorem ofDescription_flat {text : String} {count : Nat} (h : Describes text.toList 1 count 1)
    (hid : count < Numeral.idLimit) : ofDescription text = .ok (flat count) := by
  obtain ⟨_, _, _, -, -, hcount, -⟩ := id h
  refine ofDescription_eq_ok_iff.mpr ⟨1, count, 1, h, ?_⟩
  rw [gridDescriptors_flat hid, ofDescriptors_flat hcount.pos]

/-- The decimal digits of a count write it. -/
theorem counts_toString {n : Nat} (hpos : 0 < n) (hlimit : n < Numeral.wordLimit) :
    Counts (toString n).toList n where
  writes := (Numeral.padded_toString hlimit).writes
  lt_wordLimit := hlimit
  pos := hpos

/-- The description `1/n/1` is one of the flat layout. -/
theorem describes_flat {count : Nat} (hpos : 0 < count) (hlimit : count < Numeral.wordLimit) :
    Describes s!"1/{count}/1".toList 1 count 1 := by
  have hslash (n : Nat) : '/' ∉ (toString n).toList := fun hmem =>
    absurd (Numeral.isDigit_of_mem_toString hmem) (by decide)
  have hone : Counts (toString 1).toList 1 := counts_toString (by decide) (by decide)
  refine ⟨_, _, _, ?_, hone, counts_toString hpos hlimit, hone⟩
  rw [← Text.parts_three (hslash 1) (hslash count) (hslash 1), String.toList_append,
    String.toList_append, List.append_assoc]
  rfl

end Layout

/-- The flat layout of some CPUs is the one that the description `1/n/1` makes, and the one that the
descriptors of these CPUs make: a core each, in one socket. It is the same in every field; bit-sets
are of one length too, so that they have the same texts. No CPU at all counts as one. -/
theorem flat_eq_built (n : Nat) (hpos : 1 ≤ n) (hlimit : n < 2 ^ 32) :
    Layout.ofDescription s!"1/{n}/1" = .ok (Layout.flat n) ∧
      Layout.ofDescriptors ((List.range n).map fun cpu =>
        { socketId := 0, coreId := cpu, threadId := 0 }) = .ok (Layout.flat n) ∧
      Layout.flat 0 = Layout.flat 1 := by
  refine ⟨?_, Layout.ofDescriptors_flat hpos, rfl⟩
  have hword : n < Numeral.wordLimit := Nat.lt_trans hlimit (by decide)
  exact Layout.ofDescription_flat (Layout.describes_flat hpos hword) hlimit

/-- Seventy CPUs, more than a word has bits. -/
theorem flat_eq_built_seventy :
    (1 ≤ 70 ∧ 70 < 2 ^ 32) ∧ Layout.ofDescription s!"1/{70}/1" = .ok (Layout.flat 70) :=
  ⟨by decide, (flat_eq_built 70 (by decide) (by decide)).1⟩

end CpuPlacement
