import CpuPlacement.Proofs.Layout.Listing

/-!
# Location paths

A location is put together from masks alone: whatever contains the entity is named, by number of
CPUs and then in listing order. That it climbs the hierarchy follows from the masks of a kind
dividing the CPUs. Of one kind only one entity can contain another
(`Layout.Constructed.eq_of_contains`), so a socket that is named with a core is the one that the
core names, and this contains the core. Where the two have the same CPUs, the listing order still
puts the core first.

What is named at all is decided by counting names. A cache is never named like another kind of
hardware, so a socket counts as one of several exactly if the layout has several.
-/

set_option autoImplicit false

namespace CpuPlacement

/-! ## Names -/

/-- The name of a cache begins with a letter that no other name begins with. -/
theorem Cache.head?_name (c : Cache) : c.name.toList.head? = some 'L' := by
  rw [name]
  split <;> simp [toString]

namespace Entity

variable {a b : Entity}

/-- Apart from caches, the name is that of the kind. -/
theorem kindName_eq_iff (ha : a.kind ≠ .cache) : a.kindName = b.kindName ↔ a.kind = b.kind := by
  obtain ⟨_, _, role⟩ := a
  obtain ⟨_, _, role'⟩ := b
  cases role' with
  | cache info =>
    refine iff_of_false (fun hname => ?_) ha
    have hletter := congrArg (·.toList.head?) hname
    simp only [kindName, Cache.head?_name] at hletter
    cases role with
    | cache => exact ha rfl
    | _ => simp at hletter
  | _ => cases role <;> simp_all [kindName, kind]

/-- What is no cache has no cache data. -/
theorem cache?_eq_none (ha : a.kind ≠ .cache) : a.cache? = none := by
  obtain ⟨_, _, role⟩ := a
  cases role with
  | cache => exact absurd rfl ha
  | _ => rfl

theorem level_eq_zero (ha : a.kind ≠ .cache) : a.level = 0 := by
  rw [level, cache?_eq_none ha]
  rfl

/-- What is no cache is a cache of no level. -/
theorem isCacheLevel_eq_false (ha : a.kind ≠ .cache) (level : Nat) :
    a.isCacheLevel level = false := by
  rw [isCacheLevel, cache?_eq_none ha]
  rfl

/-! ## The order of a path -/

instance : Std.TransCmp sizeCmp :=
  inferInstanceAs (Std.TransCmp (compareLex (compareOn cardinality) dumpCmp))

/-- The order by size never puts more CPUs before fewer. -/
theorem cardinality_le_of_sizeCmp (h : (a.sizeCmp b).isLE = true) :
    a.cardinality ≤ b.cardinality := by
  rw [sizeCmp, Ordering.isLE_then_iff_or, Nat.compare_eq_lt, Nat.compare_eq_eq] at h
  exact h.elim Nat.le_of_lt fun hsame => Nat.le_of_eq hsame.1

/-- What lies in a larger kind of hardware comes before it, even with the same CPUs. -/
theorem sizeCmp_eq_lt_of_contains (h : b.contains a = true) (ha : a.kind ≠ .cache)
    (hb : b.kind ≠ .cache) (hrank : a.kind.rank < b.kind.rank) : a.sizeCmp b = .lt := by
  rw [sizeCmp, Ordering.then_eq_lt, Nat.compare_eq_lt, Nat.compare_eq_eq]
  rcases Nat.lt_or_eq_of_le (Mask.cardinality_le_of_subset h) with hsize | hsize
  · exact .inl hsize
  · refine .inr ⟨hsize, ?_⟩
    have hmasks : a.mask.dumpCmp b.mask = .eq :=
      Mask.dumpCmp_eq_eq_iff.mpr (Mask.same_of_subset_of_cardinality h hsize)
    rw [dumpCmp, dumpCmpBy, hmasks, level_eq_zero ha, level_eq_zero hb,
      Nat.compare_eq_lt.mpr hrank]
    rfl

end Entity

namespace Layout

variable {l : Layout}

namespace Constructed

/-! ## The entities of a kind -/

/-- The entities of a kind among all entities are those that are listed for the kind. -/
theorem filter_kind (h : l.Constructed) (kind : EntityKind) :
    l.entities.filter (·.kind == kind) = l.entitiesOf kind := by
  have hkinds : ∀ other, (l.entitiesOf other).filter (·.kind == kind) =
      if other = kind then l.entitiesOf other else [] := by
    intro other
    split
    · next hsame =>
      refine List.filter_eq_self.mpr fun e he => ?_
      rw [h.kind_of_mem he, hsame, beq_self_eq_true]
    · next hne =>
      refine List.filter_eq_nil_iff.mpr fun e he => ?_
      rwa [h.kind_of_mem he, beq_iff_eq]
  rw [entities, List.filter_flatMap]
  simp only [hkinds]
  cases kind <;> simp [EntityKind.all]

/-- Every entity is listed for its kind. -/
theorem mem_entitiesOf_kind (h : l.Constructed) {e : Entity} (he : e ∈ l.entities) :
    e ∈ l.entitiesOf e.kind := by
  rw [← h.filter_kind]
  exact List.mem_filter.mpr ⟨he, beq_self_eq_true _⟩

/-- What is listed for a kind is an entity. -/
theorem mem_entities (h : l.Constructed) {kind : EntityKind} {e : Entity}
    (he : e ∈ l.entitiesOf kind) : e ∈ l.entities := by
  rw [← h.filter_kind] at he
  exact (List.mem_filter.mp he).1

/-- No entity is without CPUs. -/
theorem nonempty_entity (h : l.Constructed) {e : Entity} (he : e ∈ l.entities) :
    e.mask.isEmpty = false := by
  have hmem := h.mem_entitiesOf_kind he
  by_cases hcache : e.kind = .cache
  · rw [hcache] at hmem
    exact h.nonempty_cache hmem
  · exact isEmpty_eq_false_of_cpusOf (h.cpusOf_entity hcache hmem).1

/-- Two entities of a kind have no CPU in common, so only one can contain another entity. -/
theorem eq_of_contains (h : l.Constructed) {kind : EntityKind} (hkind : kind ≠ .cache)
    {x y e : Entity} (hx : x ∈ l.entitiesOf kind) (hy : y ∈ l.entitiesOf kind)
    (he : e ∈ l.entities) (hxe : x.contains e = true) (hye : y.contains e = true) : x = y := by
  obtain ⟨hxspace, hxsub⟩ := Mask.subset_iff_indices.mp hxe
  obtain ⟨hyspace, hysub⟩ := Mask.subset_iff_indices.mp hye
  obtain ⟨bit, hbit⟩ : ∃ bit, bit ∈ e.mask.indices := by
    refine List.exists_mem_of_ne_nil _ fun hnil => ?_
    have hsome := h.nonempty_entity he
    rw [Mask.isEmpty_eq, hnil] at hsome
    cases hsome
  obtain ⟨first, hfirst⟩ := List.exists_mem_of_ne_nil _ (h.cpusOf_entity hkind hx).1
  obtain ⟨cpuAt, -, hread⟩ := exists_cpuAt hfirst
  have own : ∀ z ∈ l.entitiesOf kind, e.mask.groupId? = z.mask.groupId? → bit ∈ z.mask.indices →
      l.entityForCpu? kind (cpuAt bit) = some z := by
    intro z hz hspace hin
    have hsame : z.mask.sameSpace x.mask = true :=
      Mask.sameSpace_iff.mpr (hspace.symm.trans hxspace)
    refine (h.mem_cpusOf_iff_own hkind hz _).mp ?_
    rw [hread z.mask hsame]
    exact List.mem_map_of_mem hin
  exact Option.some.inj ((own x hx hxspace (hxsub hbit)).symm.trans (own y hy hyspace (hysub hbit)))

/-- What is named by its id is at that place among the entities of its kind. -/
theorem mem_of_named (h : l.Constructed) {kind : EntityKind} {named : Option Nat} {e : Entity}
    (he : named.bind ((l.entitiesOf kind)[·]?) = some e) :
    e ∈ l.entitiesOf kind ∧ named = some e.id := by
  obtain ⟨p, -, -, rfl⟩ := h.exists_parts
  obtain ⟨id, rfl, hplace⟩ := Option.bind_eq_some_iff.mp he
  have hids := congrArg (·[id]?) (p.map_id_entitiesOf kind)
  have hlt := (List.getElem?_eq_some_iff.mp hplace).1
  simp only [List.getElem?_map, hplace, List.getElem?_range hlt, Option.map_some] at hids
  exact ⟨List.mem_of_getElem? hplace, hids.symm⟩

/-! ## What a core and a socket name -/

/-- The socket that a core names contains it. -/
theorem exists_socket_of_core (h : l.Constructed) {core : Entity} (hcore : core ∈ l.cores) :
    ∃ socket ∈ l.sockets, core.socket? = some socket.id ∧ socket.contains core = true := by
  obtain ⟨p, htiled, hfits, rfl⟩ := h.exists_parts
  obtain ⟨socket, hnamed, hsub⟩ := (htiled.complete hfits).core_subset core hcore
  obtain ⟨hmem, hid⟩ : socket ∈ p.layout.entitiesOf .socket ∧ _ := h.mem_of_named hnamed
  exact ⟨socket, hmem, hid, hsub⟩

/-- Where there are nodes, the node that a socket names contains it. -/
theorem exists_node_of_socket (h : l.Constructed) (hnodes : l.nodes ≠ []) {socket : Entity}
    (hsocket : socket ∈ l.sockets) :
    ∃ node ∈ l.nodes, socket.node? = some node.id ∧ node.contains socket = true := by
  obtain ⟨p, htiled, hfits, rfl⟩ := h.exists_parts
  obtain ⟨node, hnamed, hsub⟩ := (htiled.complete hfits).socket_subset hnodes socket hsocket
  obtain ⟨hmem, hid⟩ : node ∈ p.layout.entitiesOf .node ∧ _ := h.mem_of_named hnamed
  exact ⟨node, hmem, hid, hsub⟩

/-- If an entity is in the one that it names, whatever lies in it lies in no other of that kind. -/
theorem named_of_contains (h : l.Constructed) {kind : EntityKind} (hkind : kind ≠ .cache)
    {named : Option Nat} {inner outer e : Entity}
    (hnamed : ∃ own ∈ l.entitiesOf kind, named = some own.id ∧ own.contains inner = true)
    (houter : outer ∈ l.entitiesOf kind) (he : e ∈ l.entities) (hinner : inner.contains e = true)
    (hcontains : outer.contains e = true) :
    named = some outer.id ∧ outer.contains inner = true := by
  obtain ⟨own, hown, hid, hholds⟩ := hnamed
  have hboth : own.contains e = true := Mask.subset_trans hinner hholds
  obtain rfl := h.eq_of_contains hkind hown houter he hboth hcontains
  exact ⟨hid, hholds⟩

/-! ## What a path names -/

/-- The name of a kind stands in the listing as often as the layout has entities of the kind. -/
theorem count_kindName (h : l.Constructed) {e : Entity} (he : e.kind ≠ .cache) :
    (l.ordered.map (·.kindName)).count e.kindName = (l.entitiesOf e.kind).length := by
  have hnamed : ∀ x ∈ l.entities, (x.kindName == e.kindName) = (x.kind == e.kind) := by
    intro x _
    rw [Bool.eq_iff_iff, beq_iff_eq, beq_iff_eq, eq_comm, Entity.kindName_eq_iff he, eq_comm]
  have hperm : l.ordered.Perm l.entities := List.mergeSort_perm _ _
  calc (l.ordered.map (·.kindName)).count e.kindName
      = (l.entities.map (·.kindName)).count e.kindName := (hperm.map _).count_eq _
    _ = (l.entities.filter fun x => x.kindName == e.kindName).length := by
        rw [List.count, List.countP_map, List.countP_eq_length_filter]
        rfl
    _ = (l.entitiesOf e.kind).length := by rw [List.filter_congr hnamed, h.filter_kind]

/-- Apart from caches, what is one of several of its kind is a landmark. -/
theorem mem_landmarks_iff (h : l.Constructed) {x : Entity} (hx : x.kind ≠ .cache) :
    x ∈ l.landmarks ↔ x ∈ l.entities ∧ 1 < (l.entitiesOf x.kind).length := by
  rw [landmarks, List.mem_filter, ordered, mem_sortedBy, ← ordered, h.count_kindName hx,
    Entity.isCacheLevel_eq_false hx]
  simp

end Constructed

theorem mem_containers_iff {x e : Entity} : x ∈ e.containers l.landmarks ↔
    x ∈ l.landmarks ∧ x.sameEntity e = false ∧ x.contains e = true := by
  rw [Entity.containers, mem_sortedBy, List.mem_filter, Bool.and_eq_true, Bool.not_eq_true']

theorem mem_entities_of_mem_containers {x e : Entity} (hx : x ∈ e.containers l.landmarks) :
    x ∈ l.entities :=
  mem_sortedBy.mp (List.mem_filter.mp (mem_containers_iff.mp hx).1).1

/-- Of two entities that are named, the one that lies in a larger kind of hardware comes first. -/
theorem pair_sublist_containers {e x y : Entity} (hx : x ∈ e.containers l.landmarks)
    (hy : y ∈ e.containers l.landmarks) (hcontains : y.contains x = true) (hxkind : x.kind ≠ .cache)
    (hykind : y.kind ≠ .cache) (hrank : x.kind.rank < y.kind.rank) :
    [x, y].Sublist (e.containers l.landmarks) :=
  pair_sublist_sortedBy (mem_sortedBy.mp hx) (mem_sortedBy.mp hy)
    (Entity.sizeCmp_eq_lt_of_contains hcontains hxkind hykind hrank)

/-- The path of an entity, after the entity itself, climbs the hierarchy of the layout. -/
structure Climbs (l : Layout) (e : Entity) (path : List Entity) : Prop where
  own : ∀ x ∈ path, x ∈ l.entities
  atMostOne : ∀ kind ≠ .cache, path.countP (·.kind == kind) ≤ 1
  otherKind : e.kind ≠ .cache → ∀ x ∈ path, x.kind ≠ e.kind
  coreFirst : ∀ core ∈ path, ∀ socket ∈ path, core.kind = .core → socket.kind = .socket →
    [core, socket].Sublist path
  socketFirst : ∀ socket ∈ path, ∀ node ∈ path, socket.kind = .socket → node.kind = .node →
    [socket, node].Sublist path
  /-- A socket that is named after a core is the one that the core names. -/
  socketOfCore : ∀ core ∈ e :: path, ∀ socket ∈ path, core.kind = .core → socket.kind = .socket →
    core.socket? = some socket.id
  nodeOfSocket : ∀ socket ∈ e :: path, ∀ node ∈ path, socket.kind = .socket → node.kind = .node →
    socket.node? = some node.id
  grows : path.Pairwise fun a b => a.cardinality ≤ b.cardinality
  /-- The socket of a core is named exactly if it is one of several. -/
  socketNamed : e.kind = .core →
    ((∃ socket ∈ path, socket.kind = .socket ∧ e.socket? = some socket.id) ↔ 1 < l.sockets.length)
  nodeNamed : e.kind = .core → ∃ socket ∈ l.sockets, e.socket? = some socket.id ∧
    ((∃ node ∈ path, node.kind = .node ∧ socket.node? = some node.id) ↔ 1 < l.nodes.length)

namespace Constructed

section Path

variable (h : l.Constructed) {e : Entity}

include h

/-- What is named of a kind is an entity of the layout. -/
theorem mem_entitiesOf_of_named {kind : EntityKind} {x : Entity}
    (hx : x ∈ e.containers l.landmarks) (hkind : x.kind = kind) : x ∈ l.entitiesOf kind :=
  hkind ▸ h.mem_entitiesOf_kind (mem_entities_of_mem_containers hx)

/-- No container comes twice. -/
theorem nodup_containers : (e.containers l.landmarks).Nodup := by
  have hordered : l.ordered.Nodup := h.pairwise_ordered.imp fun {a b} hlt heq => by
    have hrefl : a.dumpCmp a = .eq := Std.ReflCmp.compare_self
    rw [← heq, hrefl] at hlt
    cases hlt
  exact (List.mergeSort_perm _ _).nodup_iff.mpr ((hordered.filter _).filter _)

/-- What contains an entity of another kind is named if it is one of several. -/
theorem exists_named_iff {kind : EntityKind} (hkind : kind ≠ .cache) (hother : e.kind ≠ kind)
    {p : Entity → Prop} (hcontainer : l.entitiesOf kind ≠ [] →
      ∃ x ∈ l.entitiesOf kind, p x ∧ x.contains e = true) :
    (∃ x ∈ e.containers l.landmarks, x.kind = kind ∧ p x) ↔ 1 < (l.entitiesOf kind).length := by
  constructor
  · rintro ⟨x, hx, rfl, -⟩
    exact ((h.mem_landmarks_iff hkind).mp (mem_containers_iff.mp hx).1).2
  · intro hseveral
    obtain ⟨x, hx, hp, hcontains⟩ := hcontainer (List.ne_nil_of_length_pos (by omega))
    obtain rfl := h.kind_of_mem hx
    have hdiffer : x.sameEntity e = false := by simp [Entity.sameEntity, hother.symm]
    have hlandmark : x ∈ l.landmarks :=
      (h.mem_landmarks_iff hkind).mpr ⟨h.mem_entities hx, hseveral⟩
    exact ⟨x, mem_containers_iff.mpr ⟨hlandmark, hdiffer, hcontains⟩, rfl, hp⟩

variable (he : e ∈ l.entities)

include he

/-- Whatever a path names, the entity that it starts at among it, contains that entity. -/
theorem named_contains {kind : EntityKind} {x : Entity} (hx : x ∈ e :: e.containers l.landmarks)
    (hkind : x.kind = kind) : x ∈ l.entitiesOf kind ∧ x.contains e = true := by
  rcases List.mem_cons.mp hx with rfl | hx
  · exact ⟨hkind ▸ h.mem_entitiesOf_kind he, Mask.subset_refl _⟩
  · exact ⟨h.mem_entitiesOf_of_named hx hkind, (mem_containers_iff.mp hx).2.2⟩

/-- The entities of a kind that are named are one. -/
theorem countP_containers_le {kind : EntityKind} (hkind : kind ≠ .cache) :
    (e.containers l.landmarks).countP (·.kind == kind) ≤ 1 := by
  let named := (e.containers l.landmarks).filter (·.kind == kind)
  have hone : ∀ x ∈ named, ∀ y ∈ named, x = y := by
    intro x hx y hy
    obtain ⟨hx, hxkind⟩ := List.mem_filter.mp hx
    obtain ⟨hy, hykind⟩ := List.mem_filter.mp hy
    exact h.eq_of_contains hkind (h.mem_entitiesOf_of_named hx (beq_iff_eq.mp hxkind))
      (h.mem_entitiesOf_of_named hy (beq_iff_eq.mp hykind)) he (mem_containers_iff.mp hx).2.2
      (mem_containers_iff.mp hy).2.2
  have hnodup : named.Nodup := h.nodup_containers.filter _
  rw [List.countP_eq_length_filter]
  show named.length ≤ 1
  match named, hone, hnodup with
  | [], _, _ => exact Nat.zero_le 1
  | [_], _, _ => exact Nat.le_refl 1
  | x :: y :: _, hone, hnodup =>
    have hsame : x = y := hone x (by simp) y (by simp)
    exact absurd hsame (List.rel_of_pairwise_cons hnodup (by simp))

/-- Only caches lie in something of their own kind. -/
theorem kind_ne_of_mem_containers (hkind : e.kind ≠ .cache) {x : Entity}
    (hx : x ∈ e.containers l.landmarks) : x.kind ≠ e.kind := by
  intro hsame
  obtain ⟨-, hother, hcontains⟩ := mem_containers_iff.mp hx
  have heq : x = e := h.eq_of_contains hkind (h.mem_entitiesOf_of_named hx hsame)
    (h.mem_entitiesOf_kind he) he hcontains (Mask.subset_refl _)
  simp [heq, Entity.sameEntity] at hother

/-- A socket that is named along with a core belongs to it. -/
theorem socket_of_named_core {core socket : Entity} (hcore : core ∈ e :: e.containers l.landmarks)
    (hsocket : socket ∈ e.containers l.landmarks) (hcoreKind : core.kind = .core)
    (hsocketKind : socket.kind = .socket) :
    core.socket? = some socket.id ∧ socket.contains core = true := by
  obtain ⟨hinner, hinnerContains⟩ := h.named_contains he hcore hcoreKind
  obtain ⟨houter, houterContains⟩ := h.named_contains he (.tail e hsocket) hsocketKind
  have hkind : EntityKind.socket ≠ .cache := nofun
  exact h.named_of_contains hkind (h.exists_socket_of_core hinner) houter he hinnerContains
    houterContains

/-- A node that is named along with a socket is the one that the socket lies in. -/
theorem node_of_named_socket {socket node : Entity}
    (hsocket : socket ∈ e :: e.containers l.landmarks) (hnode : node ∈ e.containers l.landmarks)
    (hsocketKind : socket.kind = .socket) (hnodeKind : node.kind = .node) :
    socket.node? = some node.id ∧ node.contains socket = true := by
  obtain ⟨hinner, hinnerContains⟩ := h.named_contains he hsocket hsocketKind
  obtain ⟨houter, houterContains⟩ := h.named_contains he (.tail e hnode) hnodeKind
  have hkind : EntityKind.node ≠ .cache := nofun
  have hnodes : l.nodes ≠ [] := List.ne_nil_of_mem houter
  exact h.named_of_contains hkind (h.exists_node_of_socket hnodes hinner) houter he hinnerContains
    houterContains

/-- The location of an entity climbs through what it lies in. -/
theorem climbs : l.Climbs e (e.containers l.landmarks) where
  own _ hx := mem_entities_of_mem_containers hx
  atMostOne _ hkind := h.countP_containers_le he hkind
  otherKind hkind _ hx := h.kind_ne_of_mem_containers he hkind hx
  coreFirst core hcore socket hsocket hcoreKind hsocketKind := by
    have hinside := h.socket_of_named_core he (.tail e hcore) hsocket hcoreKind hsocketKind
    refine pair_sublist_containers hcore hsocket hinside.2 ?_ ?_ ?_ <;>
      simp [hcoreKind, hsocketKind, EntityKind.rank]
  socketFirst socket hsocket node hnode hsocketKind hnodeKind := by
    have hinside := h.node_of_named_socket he (.tail e hsocket) hnode hsocketKind hnodeKind
    refine pair_sublist_containers hsocket hnode hinside.2 ?_ ?_ ?_ <;>
      simp [hsocketKind, hnodeKind, EntityKind.rank]
  socketOfCore _ hcore _ hsocket hcoreKind hsocketKind :=
    (h.socket_of_named_core he hcore hsocket hcoreKind hsocketKind).1
  nodeOfSocket _ hsocket _ hnode hsocketKind hnodeKind :=
    (h.node_of_named_socket he hsocket hnode hsocketKind hnodeKind).1
  -- containers are sorted by size in the first place
  grows := (pairwise_sortedBy _).imp fun hle => Entity.cardinality_le_of_sizeCmp hle
  socketNamed hkind := by
    have hcore : e ∈ l.cores := (h.named_contains he List.mem_cons_self hkind).1
    obtain ⟨socket, hsocket, hid, hcontains⟩ := h.exists_socket_of_core hcore
    have hkinds : EntityKind.socket ≠ .cache ∧ e.kind ≠ .socket := by simp [hkind]
    exact h.exists_named_iff hkinds.1 hkinds.2 fun _ => ⟨socket, hsocket, hid, hcontains⟩
  nodeNamed hkind := by
    have hcore : e ∈ l.cores := (h.named_contains he List.mem_cons_self hkind).1
    obtain ⟨socket, hsocket, hid, hcontains⟩ := h.exists_socket_of_core hcore
    have hkinds : EntityKind.node ≠ .cache ∧ e.kind ≠ .node := by simp [hkind]
    refine ⟨socket, hsocket, hid, h.exists_named_iff hkinds.1 hkinds.2 fun hnodes => ?_⟩
    obtain ⟨node, hnode, hnodeId, houter⟩ := h.exists_node_of_socket hnodes hsocket
    exact ⟨node, hnode, hnodeId, Mask.subset_trans hcontains houter⟩

end Path

end Constructed

end Layout

/-- The location of an entity starts with the entity, and what follows climbs the hierarchy. It is
the same whatever was asked before. -/
theorem locations_climb {l : Layout} (h : l.Constructed) {e : Entity} (he : e ∈ l.entities) :
    l.Climbs e (e.containers l.landmarks) ∧
      ∀ (number : Nat) (memo : LocationMemo), memo.Asked l number →
        (memo.locate l (e.ref number) e).1 = .ok ("/".intercalate
          ((e :: e.containers l.landmarks).map fun x => x.kindName ++ "#" ++ toString x.id)) :=
  ⟨h.climbs he, fun _ _ hasked => (hasked.lists h).locate e he⟩

/-- Four cores in two sockets, each of which is a node and has a cache. -/
def Record.twoSocketsWithCaches : List Record :=
  [⟨.core, .bitset 4 1⟩, ⟨.core, .bitset 4 2⟩, ⟨.core, .bitset 4 4⟩, ⟨.core, .bitset 4 8⟩,
    ⟨.package, .bitset 4 3⟩, ⟨.package, .bitset 4 12⟩, ⟨.node, .bitset 4 3⟩, ⟨.node, .bitset 4 12⟩,
    ⟨.cache ⟨3, .unified, 1024, 64, 0⟩, .bitset 4 3⟩,
    ⟨.cache ⟨3, .unified, 1024, 64, 0⟩, .bitset 4 12⟩]

/-- The last core of two sockets with a node and a cache each. -/
theorem locations_climb_two_sockets : ∃ (l : Layout) (e : Entity),
    Layout.ofRecords Record.twoSocketsWithCaches = .ok l ∧ e ∈ l.entities ∧
      l.Climbs e (e.containers l.landmarks) ∧
      (LocationMemo.locate {} l (e.ref 0) e).1 = .ok "Core#3/Socket#1/Node#1/L3#1" := by
  obtain ⟨l, hl, hcore⟩ : ∃ l, Layout.ofRecords Record.twoSocketsWithCaches = .ok l ∧
      (l.cores[3]?.any fun e => e.location l.landmarks == "Core#3/Socket#1/Node#1/L3#1") = true :=
    exists_ok_of_any (by cbv)
  obtain ⟨e, hget, htext⟩ := (Option.any_eq_true _ _).mp hcore
  have hconstructed : l.Constructed := .records hl
  have hmem : e ∈ l.entitiesOf .core := List.mem_of_getElem? hget
  have he : e ∈ l.entities := hconstructed.mem_entities hmem
  obtain ⟨hclimbs, hlocate⟩ := locations_climb hconstructed he
  refine ⟨l, e, hl, he, hclimbs, (hlocate 0 {} .start).trans (congrArg Except.ok ?_)⟩
  exact beq_iff_eq.mp htext

end CpuPlacement
