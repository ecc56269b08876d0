import CpuPlacement.Layout.Location
import CpuPlacement.Proofs.Layout.Described
import CpuPlacement.Proofs.Layout.Hierarchy
import CpuPlacement.Proofs.Layout.Recorded
import Mathlib

/-!
# Every layout that is constructed is complete

Whatever a layout was constructed from, it is made of tiled parts in which no core sticks out of its
socket and no socket out of its node. The hierarchy is therefore complete (`hierarchy_complete`),
also where the masks are group masks and CPU numbers are positions counted through the groups.
-/

set_option autoImplicit false

namespace CpuPlacement

namespace Layout

/-- The layouts that there are: of descriptors, of records, of a description, and flat ones. -/
inductive Constructed : Layout → Prop where
  | descriptors {cpus : List Descriptor} {l : Layout} (h : ofDescriptors cpus = .ok l) :
    Constructed l
  | records {records : List Record} {l : Layout} (h : ofRecords records = .ok l) : Constructed l
  | description {text : String} {l : Layout} (h : ofDescription text = .ok l) : Constructed l
  | flat (cpus : Nat) : Constructed (flat cpus)

/-- A layout is made of tiled parts that fit together. -/
theorem Constructed.exists_parts {l : Layout} (h : l.Constructed) :
    ∃ p : Parts, p.Tiled ∧ p.layout.misplacement? = none ∧ p.layout = l := by
  have assembled : (∃ p : Parts, p.Tiled ∧ p.assemble = .ok l) →
      ∃ p : Parts, p.Tiled ∧ p.layout.misplacement? = none ∧ p.layout = l := by
    rintro ⟨p, htiled, hassemble⟩
    obtain ⟨-, hfits, hlayout⟩ := Parts.assemble_eq_ok_iff.mp hassemble
    exact ⟨p, htiled, hfits, hlayout⟩
  cases h with
  | descriptors h => exact assembled (exists_tiled_of_ofDescriptors h)
  | records h => exact assembled (Record.exists_tiled_of_ofRecords h)
  | description h => exact assembled (exists_tiled_of_ofDescription h)
  | flat cpus =>
    have hcount : 0 < max cpus 1 := by omega
    refine ⟨flatParts (max cpus 1), tiled_flatParts hcount, ?_, (flat_eq_layout cpus).symm⟩
    rw [← flat_eq_layout]
    exact misplacement?_flat cpus

/-- No two entities of a layout have the same kind and the same id. -/
theorem Constructed.nodup_refs {l : Layout} (h : l.Constructed) (number : Nat) :
    (l.entities.map (·.ref number)).Nodup := by
  obtain ⟨p, -, -, rfl⟩ := h.exists_parts
  rw [entities, List.map_flatMap]
  refine List.nodup_flatMap.mpr ⟨fun kind _ => ?_, ?_⟩
  · refine List.Nodup.of_map (·.id) ?_
    have hids : ((p.layout.entitiesOf kind).map (·.ref number)).map (·.id) =
        (p.layout.entitiesOf kind).map (·.id) := List.map_map ..
    rw [hids, Parts.map_id_entitiesOf]
    exact List.nodup_range
  · have hkinds : EntityKind.all.Nodup := by decide
    refine hkinds.imp fun {a b} hne ref ha hb => ?_
    obtain ⟨first, hfirst, rfl⟩ := List.mem_map.mp ha
    obtain ⟨second, hsecond, hsame⟩ := List.mem_map.mp hb
    refine hne ?_
    rw [← Parts.kind_of_mem_entitiesOf hfirst, ← Parts.kind_of_mem_entitiesOf hsecond]
    exact congrArg EntityRef.kind hsame.symm

end Layout

/-- Every CPU of a layout is in exactly one core, one socket and, where there are nodes, one node,
and masks, slots, back-references and ids agree on which. -/
theorem hierarchy_complete {l : Layout} (h : l.Constructed) : l.Complete := by
  obtain ⟨p, htiled, hfits, rfl⟩ := h.exists_parts
  exact htiled.complete hfits

/-- Two groups, each of them a package with one core of two CPUs. -/
theorem hierarchy_complete_two_groups : ∃ l : Layout,
    Layout.ofRecords
      [⟨.core, .group 0 3⟩, ⟨.package, .group 0 3⟩, ⟨.core, .group 1 3⟩, ⟨.package, .group 1 3⟩] =
        .ok l ∧ l.Complete := by
  have hok : (Layout.ofRecords [⟨.core, .group 0 3⟩, ⟨.package, .group 0 3⟩, ⟨.core, .group 1 3⟩,
      ⟨.package, .group 1 3⟩]).toOption.isSome = true := by cbv
  cases hl : Layout.ofRecords [⟨.core, .group 0 3⟩, ⟨.package, .group 0 3⟩, ⟨.core, .group 1 3⟩,
      ⟨.package, .group 1 3⟩] with
  | error cause =>
    rw [hl] at hok
    cases hok
  | ok l => exact ⟨l, rfl, hierarchy_complete (.records hl)⟩

end CpuPlacement
