import CpuPlacement.Layout.Location
import CpuPlacement.Proofs.Layout.CacheRecords
import CpuPlacement.Proofs.Layout.Determined
import CpuPlacement.Proofs.Mask.TotalOrders

/-!
# The listing of a layout

The listing order compares masks first, which answers only for masks of one family. In a layout
there are no others (`Layout.Constructed.isGroup_entity`). It tells all entities of a layout apart,
since what has one kind and one id is one entity, so a layout can be listed in one way only. What
lies properly inside another entity comes after it, whatever the kinds of the two.

A listing remembers the locations that it works out, as does whoever asks for a single one, and
either may find what the other left behind. It does not show: what is remembered of an entity of the
layout is its location in this layout (`LocationMemo.Asked.knows`).
-/

set_option autoImplicit false

namespace CpuPlacement

/-! ## The family of a layout's masks -/

/-- The masks of the entities, in the order in which the entities are made. -/
def Parts.masks (p : Parts) : List Mask :=
  p.groupMasks ++ p.nodeMasks ++ p.socketMasks ++ p.coreMasks ++ p.caches.map (·.1)

theorem Layout.entities_eq_append (l : Layout) :
    l.entities = l.groups ++ l.nodes ++ l.sockets ++ l.cores ++ l.caches := by
  simp [entities, EntityKind.all, entitiesOf]

/-- The masks of the entities are those of the parts. -/
theorem Parts.map_mask_entities (p : Parts) : p.layout.entities.map (·.mask) = p.masks := by
  have hcaches : p.layout.caches.map (·.mask) = p.caches.map (·.1) := by
    have hdata := congrArg (List.map Prod.fst) p.map_caches
    rwa [List.map_map, List.map_map] at hdata
  rw [Layout.entities_eq_append]
  simp only [List.map_append, hcaches, masks]
  simp only [layout, map_mask_number]

/-- All masks in a layout of descriptors are bit-sets. -/
theorem Layout.isGroup_masks_partsOfDescriptors {cpus : List Descriptor}
    {nodes groups : Option (List Nat)} {mask : Mask}
    (hmask : mask ∈ (partsOfDescriptors cpus nodes groups).masks) : mask.isGroup = false := by
  simp only [Parts.masks, List.mem_append] at hmask
  rcases hmask with (((hgroup | hnode) | hsocket) | hcore) | hcache
  · exact isGroup_of_mem_optionalMasks hgroup
  · exact isGroup_of_mem_optionalMasks hnode
  · exact Numbering.isGroup_of_mem_masks hsocket
  · exact Numbering.isGroup_of_mem_masks hcore
  · cases hcache

/-- All masks in the flat layout are bit-sets. -/
theorem Layout.isGroup_masks_flatParts {count : Nat} {mask : Mask}
    (hmask : mask ∈ (flatParts count).masks) : mask.isGroup = false := by
  simp only [Parts.masks, List.mem_append] at hmask
  rcases hmask with (((hgroup | hnode) | hsocket) | hcore) | hcache
  · cases hgroup
  · cases hnode
  · obtain rfl := List.mem_singleton.mp hsocket
    rfl
  · obtain ⟨cpu, -, rfl⟩ := List.mem_map.mp hcore
    exact Mask.isGroup_single count cpu
  · cases hcache

/-- All masks in a layout of records are of the family of the records. -/
theorem Record.Accepted.isGroup_masks {records : List Record} {grouped : Bool}
    {coverage : Coverage} (h : Accepted records grouped coverage) {mask : Mask}
    (hmask : mask ∈ (parts grouped records coverage).masks) : mask.isGroup = grouped := by
  simp only [Parts.masks, List.mem_append] at hmask
  rcases hmask with (((hgroup | hnode) | hsocket) | hcore) | hcache
  · cases grouped with
    | false => exact h.isGroup_masksOf hgroup
    | true => exact h.isGroup_groupMasks hgroup
  · exact h.isGroup_masksOf hnode
  · exact h.isGroup_masksOf hsocket
  · exact h.isGroup_masksOf hcore
  · obtain ⟨cache, hlisted, rfl⟩ := List.mem_map.mp hcache
    obtain ⟨r, hr, hread⟩ := exists_cache_of_mem_cachesOf hlisted
    rw [← (cache?_eq_some_iff.mp hread).2]
    exact h.family r hr

/-- The masks of a layout are group masks, or none of them is. -/
theorem Layout.Constructed.isGroup_entity {l : Layout} (h : l.Constructed) {e : Entity}
    (he : e ∈ l.entities) : e.mask.isGroup = l.isGrouped := by
  -- whatever a layout is made of, its masks are those of its parts
  have ofParts : ∀ {p : Parts}, p.layout = l → (∀ mask ∈ p.masks, mask.isGroup = l.isGrouped) →
      e.mask.isGroup = l.isGrouped := by
    rintro p rfl hmasks
    refine hmasks _ ?_
    rw [← p.map_mask_entities]
    exact List.mem_map_of_mem he
  have described : ∀ {cpus : List Descriptor}, ofDescriptors cpus = .ok l →
      e.mask.isGroup = l.isGrouped := by
    intro cpus hcpus
    obtain ⟨-, nodes, groups, -, -, hassemble⟩ := ofDescriptors_eq_ok_iff.mp hcpus
    obtain ⟨-, -, hlayout⟩ := Parts.assemble_eq_ok_iff.mp hassemble
    refine ofParts hlayout fun mask hmask => ?_
    rw [isGroup_masks_partsOfDescriptors hmask, ← hlayout]
    rfl
  cases h with
  | descriptors h => exact described h
  | records h =>
    obtain ⟨grouped, coverage, haccepted, hassemble⟩ := Record.exists_accepted_of_ofRecords h
    obtain ⟨-, -, hlayout⟩ := Parts.assemble_eq_ok_iff.mp hassemble
    refine ofParts hlayout fun mask hmask => ?_
    rw [haccepted.isGroup_masks hmask, ← hlayout]
    cases grouped with
    | false => rfl
    | true => exact haccepted.byGroup.isGrouped.symm
  | description h =>
    obtain ⟨cpus, hcpus⟩ := exists_descriptors_of_ofDescription h
    exact described hcpus
  | flat cpus =>
    refine ofParts (flat_eq_layout cpus).symm fun mask hmask => ?_
    rw [isGroup_masks_flatParts hmask]
    rfl

/-! ## The listing order of entities -/

theorem EntityKind.rank_injective : Function.Injective rank := by
  intro a b hrank
  cases a <;> cases b <;> first | rfl | cases hrank

namespace Entity

/-- The listing order goes by mask, then by cache level, then by kind, then by id. -/
theorem dumpCmp_eq_compareLex :
    dumpCmp = compareLex (fun a b => a.mask.dumpCmp b.mask)
      (compareLex (compareOn (·.level))
        (compareLex (compareOn (·.kind.rank)) (compareOn (·.id)))) := rfl

instance : Std.TransCmp dumpCmp := by
  have : Std.TransCmp fun a b : Entity => a.mask.dumpCmp b.mask :=
    transCmp_on Mask.dumpCmp Entity.mask
  rw [dumpCmp_eq_compareLex]
  infer_instance

variable {a b : Entity}

/-- What the order does not tell apart has one kind and one id. -/
theorem ref_eq_of_dumpCmp (h : a.dumpCmp b = .eq) (number : Nat) : a.ref number = b.ref number := by
  simp only [dumpCmp, dumpCmpBy, Ordering.then_eq_eq, Nat.compare_eq_eq] at h
  obtain ⟨-, -, hrank, hid⟩ := h
  rw [ref, ref, EntityKind.rank_injective hrank, hid]

theorem dumpCmp_eq_lt_of_mask (h : a.mask.dumpCmp b.mask = .lt) : a.dumpCmp b = .lt := by
  rw [dumpCmp, dumpCmpBy, h]
  rfl

/-- Masks of one family can be compared. -/
theorem dumpCmp?_eq_ok (hfamily : a.mask.sameFamily b.mask = true) :
    a.dumpCmp? b = .ok (a.dumpCmp b) := by
  rw [dumpCmp?, Mask.dumpCmp?, Mask.comparing_eq_ok hfamily]
  rfl

/-- What holds more CPUs than the one that it contains comes first. -/
theorem dumpCmp_eq_lt_of_contains (hcontains : a.contains b = true)
    (hmore : a.mask.same b.mask = false) : a.dumpCmp b = .lt := by
  refine dumpCmp_eq_lt_of_mask (Mask.dumpCmp_eq_lt_of_subset hcontains ?_)
  exact Bool.eq_false_iff.mpr fun hsame => Bool.eq_false_iff.mp hmore (Mask.same_symm hsame)

end Entity

namespace Layout

variable {l : Layout}

/-- The entities of a layout are listed once each, in an order that answers for all of them. -/
structure Listed (l : Layout) : Prop where
  perm : l.ordered.Perm (l.groups ++ l.nodes ++ l.sockets ++ l.cores ++ l.caches)
  ascending : l.ordered.Pairwise fun a b => a.dumpCmp? b = .ok .lt
  /-- Any two entities can be compared. -/
  answers : ∀ a ∈ l.entities, ∀ b ∈ l.entities, a.dumpCmp? b = .ok (a.dumpCmp b)
  distinct : ∀ a ∈ l.entities, ∀ b ∈ l.entities, a.dumpCmp? b = .ok .eq → a = b
  trans : ∀ a ∈ l.entities, ∀ b ∈ l.entities, ∀ c ∈ l.entities,
    a.dumpCmp? b = .ok .lt → b.dumpCmp? c = .ok .lt → a.dumpCmp? c = .ok .lt
  lowerGroups : l.isGrouped = true → ∀ a ∈ l.entities, ∀ b ∈ l.entities, ∃ g h,
    a.mask.groupId? = some g ∧ b.mask.groupId? = some h ∧ (g < h → [a, b].Sublist l.ordered)
  containers : ∀ a ∈ l.entities, ∀ b ∈ l.entities, a.contains b = true →
    a.mask.same b.mask = false → [a, b].Sublist l.ordered

namespace Constructed

theorem dumpCmp?_eq_ok (h : l.Constructed) {a b : Entity} (ha : a ∈ l.entities)
    (hb : b ∈ l.entities) : a.dumpCmp? b = .ok (a.dumpCmp b) := by
  refine Entity.dumpCmp?_eq_ok ?_
  rw [Mask.sameFamily, h.isGroup_entity ha, h.isGroup_entity hb, beq_self_eq_true]

theorem eq_of_ref (h : l.Constructed) {a b : Entity} (ha : a ∈ l.entities) (hb : b ∈ l.entities)
    {number : Nat} (href : a.ref number = b.ref number) : a = b :=
  List.inj_on_of_nodup_map (h.nodup_refs number) ha hb href

/-- No two entities of a layout tie in the listing order. -/
theorem eq_of_dumpCmp (h : l.Constructed) {a b : Entity} (ha : a ∈ l.entities)
    (hb : b ∈ l.entities) (hcmp : a.dumpCmp b = .eq) : a = b :=
  h.eq_of_ref ha hb (Entity.ref_eq_of_dumpCmp hcmp 0)

/-- The listing ascends strictly. -/
theorem pairwise_ordered (h : l.Constructed) :
    l.ordered.Pairwise fun a b => a.dumpCmp b = .lt := by
  have hnodup : l.entities.Nodup := (h.nodup_refs 0).of_map _
  refine pairwise_lt_sortedBy (List.Pairwise.imp_of_mem ?_ hnodup)
  exact fun ha hb hne hcmp => hne (h.eq_of_dumpCmp ha hb hcmp)

/-- In a layout with groups every entity has a group mask. -/
theorem exists_groupId? (h : l.Constructed) (hgrouped : l.isGrouped = true) {e : Entity}
    (he : e ∈ l.entities) : ∃ g bits, e.mask = .group g bits := by
  have hgroup := (h.isGroup_entity he).trans hgrouped
  cases hmask : e.mask with
  | bitset length bits =>
    rw [hmask] at hgroup
    cases hgroup
  | group g bits => exact ⟨g, bits, rfl⟩

/-- The listing of a layout has every entity once, with containers before what they contain. -/
theorem listed (h : l.Constructed) : l.Listed where
  perm := l.entities_eq_append ▸ List.mergeSort_perm _ _
  ascending := by
    refine List.Pairwise.imp_of_mem (fun {a b} ha hb hlt => ?_) h.pairwise_ordered
    rw [h.dumpCmp?_eq_ok (mem_sortedBy.mp ha) (mem_sortedBy.mp hb), hlt]
  answers _ ha _ hb := h.dumpCmp?_eq_ok ha hb
  distinct a ha b hb heq := by
    rw [h.dumpCmp?_eq_ok ha hb] at heq
    exact h.eq_of_dumpCmp ha hb (Except.ok.inj heq)
  trans a ha b hb c hc hab hbc := by
    rw [h.dumpCmp?_eq_ok ha hb] at hab
    rw [h.dumpCmp?_eq_ok hb hc] at hbc
    rw [h.dumpCmp?_eq_ok ha hc, Std.TransCmp.lt_trans (Except.ok.inj hab) (Except.ok.inj hbc)]
  lowerGroups hgrouped a ha b hb := by
    obtain ⟨g, x, hmask⟩ := h.exists_groupId? hgrouped ha
    obtain ⟨g', y, hmask'⟩ := h.exists_groupId? hgrouped hb
    refine ⟨g, g', by rw [hmask]; rfl, by rw [hmask']; rfl, fun hlt => ?_⟩
    refine pair_sublist_sortedBy ha hb (Entity.dumpCmp_eq_lt_of_mask ?_)
    rw [hmask, hmask']
    exact Mask.dumpCmp_of_groupId?_lt hlt x y
  containers a ha b hb hcontains hmore :=
    pair_sublist_sortedBy ha hb (Entity.dumpCmp_eq_lt_of_contains hcontains hmore)

end Constructed

end Layout

/-! ## Remembered locations -/

namespace Layout.Constructed

variable {l : Layout}

/-- The location of an entity of the layout is never a fault. -/
theorem location?_eq_ok (h : l.Constructed) {e : Entity} (he : e ∈ l.entities) :
    e.location? l.landmarks = .ok (e.location l.landmarks) := by
  rw [Entity.location?]
  split
  · rfl
  · next other hfind =>
    have hordered : other ∈ l.ordered := (List.mem_filter.mp (List.mem_of_find?_eq_some hfind)).1
    have hfamily : e.mask.sameFamily other.mask = true := by
      rw [Mask.sameFamily, h.isGroup_entity he, h.isGroup_entity (mem_sortedBy.mp hordered),
        beq_self_eq_true]
    rw [Entity.contains?, Mask.subset?, Mask.comparing_eq_ok hfamily]
    rfl

end Layout.Constructed

namespace LocationMemo

/-- The locations that are remembered when nothing was asked of the numbered layout but the
locations of its own entities and its listing. What was asked about entities of other layouts does
not matter. -/
inductive Asked (l : Layout) (number : Nat) : LocationMemo → Prop where
  | start : Asked l number {}
  | located {memo : LocationMemo} (h : Asked l number memo) {e : Entity} (he : e ∈ l.entities) :
    Asked l number (memo.locate l (e.ref number) e).2
  | listed {memo : LocationMemo} (h : Asked l number memo) : Asked l number (memo.dump l number).2
  | locatedElsewhere {memo : LocationMemo} (h : Asked l number memo) (m : Layout) {ref : EntityRef}
    (href : ref.layout ≠ number) (e : Entity) : Asked l number (memo.locate m ref e).2
  | listedElsewhere {memo : LocationMemo} (h : Asked l number memo) (m : Layout) {other : Nat}
    (hother : other ≠ number) : Asked l number (memo.dump m other).2

/-- What is remembered of an entity of the layout is its location in it. -/
def Knows (memo : LocationMemo) (l : Layout) (number : Nat) : Prop :=
  ∀ e ∈ l.entities, ∀ location, memo.find? (e.ref number) = some location →
    location = e.location l.landmarks

/-- What is remembered is found again, and everything else is found as before. -/
theorem find?_remember (memo : LocationMemo) (ref asked : EntityRef) (location : String) :
    (memo.remember ref location).find? asked =
      if asked = ref then some location else memo.find? asked := by
  rw [find?, remember, List.lookup_cons]
  by_cases hsame : asked = ref
  · simp [hsame]
  · rw [if_neg hsame, beq_false_of_ne hsame]
    rfl

variable {memo : LocationMemo} {l : Layout} {number : Nat}

namespace Knows

theorem start : Knows {} l number := by
  intro e he location hfind
  cases hfind

/-- A memo goes on knowing the locations of a layout when one more of them is remembered. -/
theorem remember (hknows : memo.Knows l number) (h : l.Constructed) {e : Entity}
    (he : e ∈ l.entities) :
    (memo.remember (e.ref number) (e.location l.landmarks)).Knows l number := by
  intro other hother location hfind
  rw [find?_remember] at hfind
  split at hfind
  · next hsame =>
    rw [h.eq_of_ref hother he hsame]
    exact (Option.some.inj hfind).symm
  · exact hknows other hother location hfind

/-- A memo goes on knowing the locations of a layout when those of another one are remembered. -/
theorem rememberElsewhere (hknows : memo.Knows l number) {ref : EntityRef}
    (href : ref.layout ≠ number) (location : String) :
    (memo.remember ref location).Knows l number := by
  intro e he found hfind
  have hne : e.ref number ≠ ref := fun hsame => href (congrArg EntityRef.layout hsame).symm
  rw [find?_remember, if_neg hne] at hfind
  exact hknows e he found hfind

/-- A location is the same whether it is found or worked out. -/
theorem locateOwn (hknows : memo.Knows l number) (h : l.Constructed) {e : Entity}
    (he : e ∈ l.entities) :
    (memo.locateOwn l.landmarks (e.ref number) e).1 = e.location l.landmarks ∧
      (memo.locateOwn l.landmarks (e.ref number) e).2.Knows l number := by
  rw [LocationMemo.locateOwn]
  cases hfind : memo.find? (e.ref number) with
  | some location => exact ⟨hknows e he location hfind, hknows⟩
  | none => exact ⟨rfl, hknows.remember h he⟩

/-- For an entity of the layout the checked way is the other one. -/
theorem locate (hknows : memo.Knows l number) (h : l.Constructed) {e : Entity}
    (he : e ∈ l.entities) :
    (memo.locate l (e.ref number) e).1 = .ok (e.location l.landmarks) ∧
      (memo.locate l (e.ref number) e).2.Knows l number := by
  rw [LocationMemo.locate, h.location?_eq_ok he]
  cases hfind : memo.find? (e.ref number) with
  | some location => exact ⟨congrArg Except.ok (hknows e he location hfind), hknows⟩
  | none => exact ⟨rfl, hknows.remember h he⟩

/-- Asking for a location in another layout does not make the memo wrong about this one. -/
theorem locateElsewhere (hknows : memo.Knows l number) (m : Layout) {ref : EntityRef}
    (href : ref.layout ≠ number) (e : Entity) : (memo.locate m ref e).2.Knows l number := by
  rw [LocationMemo.locate]
  split
  · exact hknows
  · split
    · next location _ => exact hknows.rememberElsewhere href location
    · exact hknows

/-- The lines of a listing have the locations of the layout, and the memo knows them afterwards. -/
theorem dumpLines (hknows : memo.Knows l number) (h : l.Constructed) {listed : List Entity}
    (hlisted : ∀ e ∈ listed, e ∈ l.entities) :
    (memo.dumpLines l.landmarks number listed).1 =
        listed.map (fun e => e.location l.landmarks ++ " " ++ e.text ++ "\n") ∧
      (memo.dumpLines l.landmarks number listed).2.Knows l number := by
  induction listed generalizing memo with
  | nil => exact ⟨rfl, hknows⟩
  | cons e rest ih =>
    obtain ⟨he, hrest⟩ := List.forall_mem_cons.mp hlisted
    obtain ⟨hlocation, hknows'⟩ := hknows.locateOwn h he
    obtain ⟨hlines, hafter⟩ := ih hknows' hrest
    refine ⟨?_, hafter⟩
    rw [LocationMemo.dumpLines, List.map_cons, ← hlines, ← hlocation]
    rfl

/-- Listing another layout does not make the memo wrong about this one. -/
theorem dumpLinesElsewhere (hknows : memo.Knows l number) (landmarks : List Entity) {other : Nat}
    (hother : other ≠ number) (listed : List Entity) :
    (memo.dumpLines landmarks other listed).2.Knows l number := by
  induction listed generalizing memo with
  | nil => exact hknows
  | cons e rest ih =>
    have hafter : (memo.locateOwn landmarks (e.ref other) e).2.Knows l number := by
      rw [LocationMemo.locateOwn]
      split
      · exact hknows
      · exact hknows.rememberElsewhere hother _
    exact ih hafter

end Knows

/-- Nothing that was asked of other layouts, and nothing that was asked of the layout itself, has
left another location behind. -/
theorem Asked.knows (hasked : memo.Asked l number) (h : l.Constructed) : memo.Knows l number := by
  induction hasked with
  | start => exact Knows.start
  | located _ he ih => exact (ih.locate h he).2
  | listed _ ih => exact (ih.dumpLines h fun e he => mem_sortedBy.mp he).2
  | locatedElsewhere _ m href e ih => exact ih.locateElsewhere m href e
  | listedElsewhere _ m hother ih => exact ih.dumpLinesElsewhere _ hother _

/-- Each entity of the layout is located in it, and the lines of the listing are made of these
locations. -/
structure Lists (memo : LocationMemo) (l : Layout) (number : Nat) : Prop where
  locate : ∀ e ∈ l.entities,
    (memo.locate l (e.ref number) e).1 = .ok (e.location l.landmarks)
  dump : (memo.dump l number).1 =
    String.join (l.ordered.map fun e => e.location l.landmarks ++ " " ++ e.text ++ "\n")

/-- However much was asked before, the listing of a layout is the same. -/
theorem Asked.lists (hasked : memo.Asked l number) (h : l.Constructed) : memo.Lists l number where
  locate _ he := ((hasked.knows h).locate h he).1
  dump := congrArg String.join ((hasked.knows h).dumpLines h fun _ he => mem_sortedBy.mp he).1

end LocationMemo

/-- The entities of a layout are listed once each, what contains others before these, and each line
begins with the location of its entity, whatever was asked of the layout before. -/
theorem listing_once_containers_first {l : Layout} (h : l.Constructed) :
    l.Listed ∧ ∀ (number : Nat) (memo : LocationMemo), memo.Asked l number → memo.Lists l number :=
  ⟨h.listed, fun _ _ hasked => hasked.lists h⟩

/-- Two groups, each a package of two cores, the one of the higher number reported first. In the
other one the cores share a cache. -/
def Record.twoGroupsWithCache : List Record :=
  [⟨.package, .group 4 3⟩, ⟨.core, .group 4 1⟩, ⟨.core, .group 4 2⟩, ⟨.package, .group 1 3⟩,
    ⟨.core, .group 1 1⟩, ⟨.core, .group 1 2⟩, ⟨.cache ⟨3, .unified, 1024, 64, 0⟩, .group 1 3⟩]

/-- Two groups of two CPUs each, with a cache in the first one. -/
theorem listing_once_containers_first_two_groups : ∃ l : Layout,
    Layout.ofRecords Record.twoGroupsWithCache = .ok l ∧
      l.ordered.map (·.label) = ["Socket#0", "Group#0", "L3#0", "Core#0", "Core#1", "Socket#1",
        "Group#1", "Core#2", "Core#3"] ∧
      l.Listed ∧ (LocationMemo.dump {} l 7).2.Lists l 7 := by
  obtain ⟨l, hl, hlabels⟩ : ∃ l, Layout.ofRecords Record.twoGroupsWithCache = .ok l ∧
      (l.ordered.map (·.label) == ["Socket#0", "Group#0", "L3#0", "Core#0", "Core#1", "Socket#1",
        "Group#1", "Core#2", "Core#3"]) = true := exists_ok_of_any (by cbv)
  obtain ⟨hlisted, hlists⟩ := listing_once_containers_first (.records hl)
  exact ⟨l, hl, beq_iff_eq.mp hlabels, hlisted, hlists 7 _ (.listed .start)⟩

end CpuPlacement
