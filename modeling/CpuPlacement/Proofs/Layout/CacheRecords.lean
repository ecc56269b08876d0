import CpuPlacement.Proofs.Layout.Recorded
import CpuPlacement.Proofs.Mask.Same
import CpuPlacement.Proofs.Sorted
import Mathlib

/-!
# The caches of recorded machines

The caches of a layout are the recorded ones, and every recorded cache is among them. They are
listed by mask, level and kind, and a record that repeats its neighbour in that order is dropped.
The order does not look at sizes, line sizes and associativities, so two different caches can stand
in the same place of it, in the order of their records. The main statement says when no cache is
listed twice: exactly if no cache is recorded again after another one of the same mask, level and
kind.
-/

set_option autoImplicit false

namespace CpuPlacement

namespace Entity

/-- The mask of an entity and, for a cache, its parameters. -/
def cacheData (e : Entity) : Mask × Option Cache :=
  (e.mask, e.cache?)

/-- Caches with the same CPUs and the same parameters. -/
def sameCache (a b : Entity) : Prop :=
  a.mask.same b.mask = true ∧ a.cache? = b.cache?

/-- Whether caches differ shows in their data. -/
theorem pairwise_not_sameCache_iff {caches : List Entity} :
    caches.Pairwise (fun a b => ¬ a.sameCache b) ↔
      (caches.map cacheData).Pairwise fun a b => ¬ (a.1.same b.1 = true ∧ a.2 = b.2) := by
  rw [List.pairwise_map]
  rfl

end Entity

/-- The caches that parts make are the listed ones. -/
theorem Parts.map_caches (p : Parts) :
    p.layout.caches.map (·.cacheData) = p.caches.map fun cache => (cache.1, some cache.2) := by
  have hcaches : p.layout.caches = p.caches.zipIdx.map fun (cache, id) =>
      ⟨id, cache.1, .cache cache.2⟩ := rfl
  calc p.layout.caches.map (·.cacheData)
      = (p.caches.zipIdx.map Prod.fst).map fun cache => (cache.1, some cache.2) := by
        rw [hcaches, List.map_map, List.map_map]
        rfl
    _ = p.caches.map fun cache => (cache.1, some cache.2) := by rw [List.zipIdx_map_fst]

namespace Record

/-! ## The order of caches -/

/-- Records are of the same cache if their masks select the same CPUs and all else is equal. -/
theorem sameCache_iff {a b : Mask × Cache} :
    sameCache a b = true ↔ a.1.same b.1 = true ∧ a.2 = b.2 := by
  rw [sameCache, Bool.and_eq_true, beq_iff_eq]

/-- Being of the same cache is an equivalence. -/
theorem equivalence_sameCache : Equivalence fun a b => sameCache a b = true where
  refl _ := sameCache_iff.mpr ⟨Mask.same_refl _, rfl⟩
  symm h :=
    have ⟨hmask, hinfo⟩ := sameCache_iff.mp h
    sameCache_iff.mpr ⟨Mask.same_symm hmask, hinfo.symm⟩
  trans h h' :=
    have ⟨hmask, hinfo⟩ := sameCache_iff.mp h
    have ⟨hmask', hinfo'⟩ := sameCache_iff.mp h'
    sameCache_iff.mpr ⟨Mask.same_trans hmask hmask', hinfo.trans hinfo'⟩

/-- The order of caches goes by mask, then by level, then by type, and never by size. -/
theorem cacheCmp_eq_compareLex :
    cacheCmp = compareLex (fun a b => a.1.cmp b.1)
      (compareLex (compareOn (·.2.level)) (compareOn (·.2.kind.rank))) := rfl

instance : Std.TransCmp cacheCmp := by
  have : Std.TransCmp fun a b : Mask × Cache => a.1.cmp b.1 := transCmp_on Mask.cmp Prod.fst
  rw [cacheCmp_eq_compareLex]
  infer_instance

/-- Caches that are the same have the same place in the order. -/
theorem cacheCmp_eq_of_sameCache {a b : Mask × Cache} (h : sameCache a b = true) :
    cacheCmp a b = .eq := by
  obtain ⟨hmask, hinfo⟩ := sameCache_iff.mp h
  simp [cacheCmp, beq_iff_eq.mp hmask, hinfo]

/-! ## Recorded caches -/

variable {records : List Record}

/-- A cache is recorded again after another one of the same mask, level and kind. -/
def InterleavesCaches (records : List Record) : Prop :=
  Recurs cacheCmp sameCache (records.filterMap cache?)

/-- A recorded cache is one of the layout. -/
theorem exists_same_cachesOf {r : Record} (hr : r ∈ records) {cache : Mask × Cache}
    (hcache : r.cache? = some cache) : ∃ listed ∈ cachesOf records, sameCache cache listed = true :=
  exists_same_withoutRepeats equivalence_sameCache
    (List.mem_mergeSort.mpr (List.mem_filterMap.mpr ⟨r, hr, hcache⟩))

/-- The caches that are left are different ones unless sizes are interleaved in the sorted list. -/
theorem pairwise_cachesOf_iff :
    (cachesOf records).Pairwise (fun a b => sameCache a b = false) ↔ ¬ InterleavesCaches records :=
  pairwise_withoutRepeats_sortedBy_iff equivalence_sameCache fun _ _ => cacheCmp_eq_of_sameCache

end Record

/-- The caches of a layout are those that are recorded, and all of those. No two of them are the
same exactly when no cache is recorded again after another one of the same mask, level and kind. -/
theorem caches_distinct_iff_not_interleaved {records : List Record} {l : Layout}
    (h : Layout.ofRecords records = .ok l) :
    (∀ e ∈ l.caches, ∃ r ∈ records, ∃ info, r.relationship = .cache info ∧ e.cache? = some info ∧
      e.mask = r.mask) ∧
    (∀ r ∈ records, ∀ info, r.relationship = .cache info →
      ∃ e ∈ l.caches, e.cache? = some info ∧ r.mask.same e.mask = true) ∧
    (l.caches.Pairwise (fun a b => ¬ a.sameCache b) ↔ ¬ Record.InterleavesCaches records) := by
  obtain ⟨grouped, coverage, -, hassemble⟩ := Record.exists_accepted_of_ofRecords h
  obtain ⟨-, -, rfl⟩ := Parts.assemble_eq_ok_iff.mp hassemble
  -- the caches of the layout are compared as pairs of mask and parameters
  have hlisted := (Record.parts grouped records coverage).map_caches
  have hcaches : (Record.parts grouped records coverage).caches = Record.cachesOf records := rfl
  rw [hcaches] at hlisted
  generalize (Record.parts grouped records coverage).layout.caches = caches at hlisted ⊢
  refine ⟨fun e he => ?_, fun r hr info hinfo => ?_, ?_⟩
  · have hdata : e.cacheData ∈ caches.map (·.cacheData) := List.mem_map_of_mem he
    rw [hlisted] at hdata
    obtain ⟨cache, hcache, heq⟩ := List.mem_map.mp hdata
    obtain ⟨hmask, hinfo⟩ := Prod.mk.inj heq
    obtain ⟨r, hr, hread⟩ := Record.exists_cache_of_mem_cachesOf hcache
    obtain ⟨hrelationship, hsame⟩ := Record.cache?_eq_some_iff.mp hread
    exact ⟨r, hr, cache.2, hrelationship, hinfo.symm, hmask.symm.trans hsame.symm⟩
  · have hread : r.cache? = some (r.mask, info) := Record.cache?_eq_some_iff.mpr ⟨hinfo, rfl⟩
    obtain ⟨listed, hmem, hsame⟩ := Record.exists_same_cachesOf hr hread
    obtain ⟨hmask, hparameters⟩ := Record.sameCache_iff.mp hsame
    have hdata : (listed.1, some listed.2) ∈ caches.map (·.cacheData) := by
      rw [hlisted]
      exact List.mem_map_of_mem hmem
    obtain ⟨e, he, heq⟩ := List.mem_map.mp hdata
    obtain ⟨hemask, hecache⟩ := Prod.mk.inj heq
    exact ⟨e, he, hecache.trans (congrArg some hparameters.symm), hemask ▸ hmask⟩
  · rw [Entity.pairwise_not_sameCache_iff, hlisted, List.pairwise_map,
      ← Record.pairwise_cachesOf_iff]
    refine iff_of_eq (congrArg (List.Pairwise · _) ?_)
    funext a b
    simp only [Option.some.injEq, ← Record.sameCache_iff, Bool.not_eq_true]

/-! ## Two instances -/

namespace Record

/-- A cache of level 3 that all CPUs share, with its size. -/
def sharedCache (size : Nat) : Record :=
  ⟨.cache ⟨3, .unified, size, 64, 16⟩, .bitset 1 1⟩

/-- A machine of one CPU with the given caches. -/
def singleCpu (caches : List Record) : List Record :=
  ⟨.package, .bitset 1 1⟩ :: ⟨.core, .bitset 1 1⟩ :: caches

end Record

/-- A cache that is recorded twice in a row, and then another one: two caches are listed. -/
theorem caches_distinct_repeated_in_a_row :
    let records := Record.singleCpu
      [Record.sharedCache 1024, Record.sharedCache 1024, Record.sharedCache 2048]
    ∃ l, Layout.ofRecords records = .ok l ∧ ¬ Record.InterleavesCaches records ∧
      l.caches.Pairwise fun a b => ¬ a.sameCache b := by
  intro records
  obtain ⟨l, hl, -⟩ : ∃ l, Layout.ofRecords records = .ok l ∧ decide (l.cpus = 1) = true :=
    exists_ok_of_any (by cbv)
  have hnot : ¬ Record.InterleavesCaches records := by
    rintro ⟨a, b, c, hsub, hac, -⟩
    -- only three caches are recorded, and the last of them is not the first
    have hall := hsub.eq_of_length rfl
    cases hall
    cases hac
  exact ⟨l, hl, hnot, (caches_distinct_iff_not_interleaved hl).2.2.mpr hnot⟩

/-- A cache, another one that differs in size only, and the first one again: it is listed twice. -/
theorem caches_not_distinct_size_between :
    let records := Record.singleCpu
      [Record.sharedCache 1024, Record.sharedCache 2048, Record.sharedCache 1024]
    ∃ l, Layout.ofRecords records = .ok l ∧ ¬ l.caches.Pairwise fun a b => ¬ a.sameCache b := by
  intro records
  let listed (size : Nat) : Mask × Option Cache := (.bitset 1 1, some ⟨3, .unified, size, 64, 16⟩)
  obtain ⟨l, hl, hcheck⟩ : ∃ l, Layout.ofRecords records = .ok l ∧
      (l.caches.map (·.cacheData) == [listed 1024, listed 2048, listed 1024]) = true :=
    exists_ok_of_any (by cbv)
  refine ⟨l, hl, fun hdistinct => ?_⟩
  have hpairs := Entity.pairwise_not_sameCache_iff.mp hdistinct
  rw [beq_iff_eq.mp hcheck] at hpairs
  exact List.rel_of_pairwise_cons hpairs (List.mem_cons_of_mem _ List.mem_cons_self) ⟨rfl, rfl⟩

end CpuPlacement
