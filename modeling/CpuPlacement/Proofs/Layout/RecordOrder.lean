import CpuPlacement.Proofs.Layout.GroupNumbering
import CpuPlacement.Proofs.Mask.Same
import Mathlib

/-!
# The order of records does not matter

A layout depends on which records there are, and not on their order, on how often one is listed or
on the lengths of bit-sets. The masks of a kind are listed in the numeric order, which leaves no
choice but that of the lengths, and the span of a group takes records in any order
(`foldl_eq_of_mem_iff`). From there on the two constructions go side by side, each step on masks
that select the same CPUs (`Mask.SameEach`): either both go on, and with the same numbers, or both
stop (`Corresponds`). Only the cause that is given for a misplaced record can differ.
-/

set_option autoImplicit false

namespace CpuPlacement

/-! ## Two computations side by side -/

section Corresponds

variable {ε α β : Type} {errors : ε → ε → Prop} {results : α → α → Prop} {answers : β → β → Prop}

/-- Both computations give results, which are related, or both fail, with errors that are. -/
inductive Corresponds (errors : ε → ε → Prop) (results : α → α → Prop) :
    Except ε α → Except ε α → Prop where
  | ok {a a' : α} : results a a' → Corresponds errors results (.ok a) (.ok a')
  | error {e e' : ε} : errors e e' → Corresponds errors results (.error e) (.error e')

theorem Corresponds.refl (herrors : ∀ e, errors e e) (hresults : ∀ a, results a a)
    (x : Except ε α) : Corresponds errors results x x := by
  cases x with
  | ok a => exact .ok (hresults a)
  | error e => exact .error (herrors e)

/-- Steps that correspond make computations that do. -/
theorem Corresponds.bind {x x' : Except ε α} {f f' : α → Except ε β}
    (h : Corresponds errors results x x')
    (hf : ∀ a a', results a a' → Corresponds errors answers (f a) (f' a')) :
    Corresponds errors answers (x >>= f) (x' >>= f') := by
  cases h with
  | ok hresults => exact hf _ _ hresults
  | error herrors => exact .error herrors

end Corresponds

/-! ## Lists that agree element by element -/

section Lists

variable {α β : Type} {R : α → α → Prop} {l l' : List α}

/-- Functions that agree on related elements give the same list. -/
theorem map_eq_of_forall₂ {f g : α → β} (h : List.Forall₂ R l l')
    (hf : ∀ a b, R a b → f a = g b) : l.map f = l'.map g := by
  rw [← List.forall₂_eq_eq_eq, List.forall₂_map_left_iff, List.forall₂_map_right_iff]
  exact h.imp hf

theorem isEmpty_of_forall₂ (h : List.Forall₂ R l l') : l.isEmpty = l'.isEmpty := by
  cases h <;> rfl

/-- Something is found in both of two related lists or in neither. -/
theorem isSome_findSome?_of_forall₂ {f g : α → Option β} (h : List.Forall₂ R l l')
    (hf : ∀ a b, R a b → (f a).isSome = (g b).isSome) :
    (l.findSome? f).isSome = (l'.findSome? g).isSome := by
  have hmap := map_eq_of_forall₂ (f := fun a => (f a).isSome) h hf
  have hany := congrArg (List.any · id) hmap
  simpa only [List.any_map, List.isSome_findSome?, Function.comp_def, id] using hany

end Lists

/-! ## Spans in any order -/

section Fold

variable {σ α : Type} {f : σ → α → σ} {l l' : List α}

/-- A last step can be taken first. -/
theorem foldl_step (hcomm : ∀ s a b, f (f s a) b = f (f s b) a) (s : σ) (a : α) :
    f (l.foldl f s) a = l.foldl f (f s a) := by
  induction l generalizing s with
  | nil => rfl
  | cons first rest ih => rw [List.foldl_cons, List.foldl_cons, ih, hcomm]

/-- What has been taken in once changes nothing any more. -/
theorem foldl_absorbs (hcomm : ∀ s a b, f (f s a) b = f (f s b) a)
    (hidem : ∀ s a, f (f s a) a = f s a) (hsub : l' ⊆ l) (s : σ) :
    l'.foldl f (l.foldl f s) = l.foldl f s := by
  induction l' with
  | nil => rfl
  | cons first rest ih =>
    obtain ⟨hfirst, hrest⟩ := List.cons_subset.mp hsub
    obtain ⟨before, after, rfl⟩ := List.append_of_mem hfirst
    have htaken : f ((before ++ first :: after).foldl f s) first =
        (before ++ first :: after).foldl f s := by
      rw [List.foldl_append, List.foldl_cons, foldl_step hcomm, hidem]
    rw [List.foldl_cons, htaken, ih hrest]

/-- A step that commutes with itself and may be repeated depends on what a list has, not on the
order of the list or on how often it has it. -/
theorem foldl_eq_of_mem_iff (hcomm : ∀ s a b, f (f s a) b = f (f s b) a)
    (hidem : ∀ s a, f (f s a) a = f s a) (h : ∀ a, a ∈ l ↔ a ∈ l') (s : σ) :
    l.foldl f s = l'.foldl f s :=
  calc l.foldl f s = l'.foldl f (l.foldl f s) :=
        (foldl_absorbs hcomm hidem (fun a => (h a).mpr) s).symm
    _ = l.foldl f (l'.foldl f s) := by
      rw [← List.foldl_append, ← List.foldl_append]
      exact List.perm_append_comm.foldl_eq' (fun a _ b _ s => hcomm s a b) s
    _ = l'.foldl f s := foldl_absorbs hcomm hidem (fun a => (h a).mp) s

end Fold

namespace Record

/-- Two groups take what is added to them in either order. -/
theorem addSpan_comm (i j : Nat) (x y : BitVec 64) (spans : List (Nat × BitVec 64)) :
    addSpan j y (addSpan i x spans) = addSpan i x (addSpan j y spans) := by
  -- each of the two stops before, at or behind the first span, and behind it the rest takes over
  induction spans with
  | nil => grind [addSpan, BitVec.or_comm]
  | cons first rest ih => grind [addSpan, BitVec.or_comm, BitVec.or_assoc]

/-- What is added a second time is there already. -/
theorem addSpan_addSpan (i : Nat) (x : BitVec 64) (spans : List (Nat × BitVec 64)) :
    addSpan i x (addSpan i x spans) = addSpan i x spans := by
  induction spans with
  | nil => simp [addSpan]
  | cons first rest ih => grind [addSpan]

/-- It does not matter which of two records is added first. -/
theorem addRecord_comm (spans : List (Nat × BitVec 64)) (a b : Record) :
    addRecord (addRecord spans a) b = addRecord (addRecord spans b) a := by
  unfold addRecord
  cases a.mask <;> cases b.mask <;> first | rfl | exact addSpan_comm ..

/-- Adding a record once more changes nothing. -/
theorem addRecord_addRecord (spans : List (Nat × BitVec 64)) (r : Record) :
    addRecord (addRecord spans r) r = addRecord spans r := by
  unfold addRecord
  cases r.mask with
  | bitset => rfl
  | group id bits => exact addSpan_addSpan id bits spans

end Record

/-! ## Numbers of CPUs -/

namespace CpuNumbering

variable {masks masks' : List Mask}

/-- Groups are numbered alike if their masks are the same one by one. -/
theorem ofGroups_eq (h : Mask.SameEach masks masks') (next : Nat) :
    ofGroups next masks = ofGroups next masks' := by
  induction h generalizing next with
  | nil => rfl
  | @cons m m' rest rest' hsame _ ih =>
    have hothers := ih (next + m.cardinality)
    cases m with
    | group =>
      obtain rfl := Mask.eq_of_same rfl hsame
      simp only [ofGroups, hothers]
    | bitset =>
      cases m' with
      | bitset => simpa only [ofGroups, Mask.cardinality_eq_of_same hsame] using hothers
      | group => cases hsame

/-- CPUs are numbered alike if the masks are the same one by one. -/
theorem ofBitsets_eq (h : Mask.SameEach masks masks') : ofBitsets masks = ofBitsets masks' := by
  have hmap : masks.map (fun m => m.indices.getLast?.map (· + 1)) =
      masks'.map fun m => m.indices.getLast?.map (· + 1) :=
    map_eq_of_forall₂ h fun m m' hsame => by rw [Mask.indices_eq_of_same hsame]
  have hreach := congrArg (List.filterMap id) hmap
  rw [List.filterMap_map, List.filterMap_map] at hreach
  rw [ofBitsets, ofBitsets]
  exact congrArg (fun reach : List Nat => (⟨[], reach.max?.getD 0⟩ : CpuNumbering)) hreach

/-- A group is there twice in both lists of masks or in neither. -/
theorem repeatedGroup?_eq (h : Mask.SameEach masks masks') :
    repeatedGroup? masks = repeatedGroup? masks' := by
  induction h with
  | nil => rfl
  | @cons m m' rest rest' hsame hrest ih =>
    have hnamed : ∀ id, rest.any (·.groupId? == some id) = rest'.any (·.groupId? == some id) := by
      intro id
      have hmap := map_eq_of_forall₂ hrest fun _ _ => Mask.groupId?_eq_of_same
      simpa only [List.any_map, Function.comp_def] using congrArg (List.any · (· == some id)) hmap
    simp only [repeatedGroup?, Mask.groupId?_eq_of_same hsame, hnamed, ih]

/-- Masks that select the same CPUs get the same numbers, or are both refused. -/
theorem corresponds_cpusOf (n : CpuNumbering) {m m' : Mask} (h : m.same m' = true) :
    Corresponds (fun _ _ => True) Eq (n.cpusOf m) (n.cpusOf m') := by
  have hat : Corresponds (fun _ _ => True) Eq (n.cpuAt m) (n.cpuAt m') := by
    cases m with
    | group =>
      obtain rfl := Mask.eq_of_same rfl h
      exact .refl (fun _ => trivial) (fun _ => rfl) _
    | bitset =>
      cases m' with
      | bitset => exact .ok rfl
      | group => cases h
  refine hat.bind ?_
  rintro at' _ rfl
  rw [Mask.indices_eq_of_same h]
  dsimp only
  split
  · exact .error trivial
  · exact .ok rfl

/-- Masks that are the same one by one claim the same CPUs or are refused alike. -/
theorem corresponds_claims (n : CpuNumbering) (kind : RecordKind) (h : Mask.SameEach masks masks')
    (taken : List Nat) :
    Corresponds (fun _ _ => True) Eq (n.claims kind taken masks) (n.claims kind taken masks') := by
  induction h generalizing taken with
  | nil => exact .ok rfl
  | cons hsame _ ih =>
    rw [claims, claims]
    refine (n.corresponds_cpusOf hsame).bind ?_
    rintro cpus _ rfl
    split
    · exact .error trivial
    · refine (ih _).bind ?_
      rintro others _ rfl
      exact .ok rfl

end CpuNumbering

/-- The errors are of one kind and say the same, but for what is wrong with a record that has no
place: of several such records either may be reported. -/
inductive LayoutError.Alike : LayoutError → LayoutError → Prop where
  | refl (e : LayoutError) : Alike e e
  | misplaced (cause cause' : Misplacement) : Alike (.misplaced cause) (.misplaced cause')

/-- Masks that are the same one by one own the same CPUs or are refused alike. -/
theorem CpuNumbering.corresponds_assign (n : CpuNumbering) (kind : RecordKind)
    {masks masks' : List Mask} (h : Mask.SameEach masks masks') :
    Corresponds LayoutError.Alike Eq (n.assign kind masks) (n.assign kind masks') := by
  rw [assign, assign]
  have hclaims := n.corresponds_claims kind h []
  generalize n.claims kind [] masks = claims, n.claims kind [] masks' = claims' at hclaims ⊢
  cases hclaims with
  | ok heq => exact .ok (congrArg n.owners heq)
  | error => exact .error (.misplaced _ _)

/-! ## Assembling -/

/-- The entities have the same number and lie in the same entity, and their masks select the same
CPUs. -/
structure Entity.Agrees (e e' : Entity) : Prop where
  id_eq : e.id = e'.id
  role_eq : e.role = e'.role
  mask_same : e.mask.same e'.mask = true

namespace Entity.Agrees

variable {e e' : Entity}

theorem socket?_eq (h : e.Agrees e') : e.socket? = e'.socket? := by
  rw [socket?, socket?, h.role_eq]

theorem node?_eq (h : e.Agrees e') : e.node? = e'.node? := by
  rw [node?, node?, h.role_eq]

end Entity.Agrees

/-- The layouts describe the same CPUs in the same order, by the same numbers, and agree on every
entity but for caches. -/
structure Layout.Agrees (l l' : Layout) : Prop where
  descriptors_eq : l.descriptors = l'.descriptors
  slots_eq : l.slots = l'.slots
  cpuMasks_eq : l.cpuMasks = l'.cpuMasks
  groupBases_eq : l.groupBases = l'.groupBases
  socketCount_eq : l.socketCount = l'.socketCount
  coresPerSocket_eq : l.coresPerSocket = l'.coresPerSocket
  threadsPerCore_eq : l.threadsPerCore = l'.threadsPerCore
  groups : List.Forall₂ Entity.Agrees l.groups l'.groups
  nodes : List.Forall₂ Entity.Agrees l.nodes l'.nodes
  sockets : List.Forall₂ Entity.Agrees l.sockets l'.sockets
  cores : List.Forall₂ Entity.Agrees l.cores l'.cores

namespace Layout

/-- An entity sticks out of its container if the agreeing one does. -/
theorem isSome_escapes?_eq {inner inner' : Entity} {outer outer' : Option Entity}
    (hinner : inner.Agrees inner') (houter : Option.Rel Entity.Agrees outer outer') :
    (escapes? inner outer).isSome = (escapes? inner' outer').isSome := by
  cases houter with
  | none => rfl
  | @some o o' hagrees =>
    have hcontains : o.contains inner = o'.contains inner' := by
      rw [Entity.contains, Entity.contains, Mask.subset_eq_of_same_left hinner.mask_same,
        Mask.subset_eq_of_same_right hagrees.mask_same]
    simp only [escapes?, Option.bind_some, hcontains]
    split <;> rfl

/-- Entities of the same number agree. -/
theorem rel_parent {entities entities' : List Entity}
    (h : List.Forall₂ Entity.Agrees entities entities') {parent parent' : Option Nat}
    (hparent : parent = parent') :
    Option.Rel Entity.Agrees (parent.bind (entities[·]?)) (parent'.bind (entities'[·]?)) := by
  subst hparent
  cases parent with
  | none => exact .none
  | some id => exact getElem?_of_forall₂ h id

/-- One of the layouts has an entity outside the one that should hold it if the other has. -/
theorem isSome_misplacement?_eq {l l' : Layout} (h : l.Agrees l') :
    l.misplacement?.isSome = l'.misplacement?.isSome := by
  have hcores := isSome_findSome?_of_forall₂ h.cores fun core core' hcore =>
    isSome_escapes?_eq hcore (rel_parent h.sockets hcore.socket?_eq)
  have hsockets := isSome_findSome?_of_forall₂ h.sockets fun socket socket' hsocket =>
    isSome_escapes?_eq hsocket (rel_parent h.nodes hsocket.node?_eq)
  simp only [misplacement?, Option.isSome_or, hcores, hsockets]

end Layout

/-- The parts describe the same CPUs in the same order, and their masks select the same CPUs. -/
structure Parts.Agrees (p p' : Parts) : Prop where
  descriptors_eq : p.descriptors = p'.descriptors
  slots_eq : p.slots = p'.slots
  cpuMasks_eq : p.cpuMasks = p'.cpuMasks
  groupBases_eq : p.groupBases = p'.groupBases
  groupMasks : Mask.SameEach p.groupMasks p'.groupMasks
  nodeMasks : Mask.SameEach p.nodeMasks p'.nodeMasks
  socketMasks : Mask.SameEach p.socketMasks p'.socketMasks
  coreMasks : Mask.SameEach p.coreMasks p'.coreMasks

namespace Parts

/-- Masks that are the same one by one make entities that agree one by one. -/
theorem forall₂_number {masks masks' : List Mask} (h : Mask.SameEach masks masks')
    {role role' : Mask → EntityRole}
    (hrole : ∀ m m', m.same m' = true → role m = role' m') :
    List.Forall₂ Entity.Agrees (number masks role) (number masks' role') := by
  rw [number, number, List.forall₂_map_left_iff, List.forall₂_map_right_iff]
  generalize 0 = first
  induction h generalizing first with
  | nil => exact .nil
  | cons hsame _ ih => exact .cons ⟨rfl, hrole _ _ hsame, hsame⟩ (ih (first + 1))

namespace Agrees

variable {p p' : Parts}

theorem socketCount_eq (h : p.Agrees p') : p.socketCount = p'.socketCount :=
  h.socketMasks.length_eq

theorem coresPerSocket_eq (h : p.Agrees p') : p.coresPerSocket = p'.coresPerSocket := by
  rw [coresPerSocket, coresPerSocket, h.coreMasks.length_eq, h.socketCount_eq]

theorem threadsPerCore_eq (h : p.Agrees p') : p.threadsPerCore = p'.threadsPerCore := by
  rw [threadsPerCore, threadsPerCore, h.descriptors_eq]

/-- The first CPU of two masks that select the same CPUs is the same. -/
theorem firstSlot?_eq (h : p.Agrees p') {m m' : Mask} (hsame : m.same m' = true) :
    p.firstSlot? m = p'.firstSlot? m' := by
  rw [firstSlot?, firstSlot?, h.slots_eq, h.cpuMasks_eq]
  simp only [Mask.subset_eq_of_same_right hsame]

/-- Parts that agree make layouts that agree. -/
theorem layout (h : p.Agrees p') : p.layout.Agrees p'.layout where
  descriptors_eq := h.descriptors_eq
  slots_eq := h.slots_eq
  cpuMasks_eq := h.cpuMasks_eq
  groupBases_eq := h.groupBases_eq
  socketCount_eq := h.socketCount_eq
  coresPerSocket_eq := h.coresPerSocket_eq
  threadsPerCore_eq := h.threadsPerCore_eq
  groups := forall₂_number h.groupMasks fun _ _ _ => rfl
  nodes := forall₂_number h.nodeMasks fun _ _ _ => rfl
  sockets := forall₂_number h.socketMasks fun m m' hsame => by
    rw [socketRole, socketRole, h.firstSlot?_eq hsame, isEmpty_of_forall₂ h.nodeMasks]
  cores := forall₂_number h.coreMasks fun m m' hsame => by
    rw [coreRole, coreRole, h.firstSlot?_eq hsame]

/-- Parts that agree make layouts that agree, or are refused alike. -/
theorem assemble (h : p.Agrees p') :
    Corresponds LayoutError.Alike Layout.Agrees p.assemble p'.assemble := by
  have hfills : p.fillsGrid = p'.fillsGrid := by
    rw [fillsGrid, fillsGrid, h.descriptors_eq, h.socketCount_eq, h.coresPerSocket_eq,
      h.threadsPerCore_eq]
  have hmisplaced := Layout.isSome_misplacement?_eq h.layout
  rw [Parts.assemble, Parts.assemble, hfills, h.socketCount_eq, h.coresPerSocket_eq,
    h.threadsPerCore_eq, h.descriptors_eq]
  split
  · exact .error (.refl _)
  · dsimp only
    generalize p.layout.misplacement? = cause?, p'.layout.misplacement? = cause'? at hmisplaced ⊢
    cases cause? with
    | none =>
      cases cause'? with
      | none => exact .ok h.layout
      | some cause' => cases hmisplaced
    | some cause =>
      cases cause'? with
      | none => cases hmisplaced
      | some cause' => exact .error (.misplaced cause cause')

end Agrees

end Parts

/-! ## The records -/

namespace Record

variable {records records' : List Record}

/-- The thread of a rank in the core of a number has the same mask. -/
theorem threadMask_eq {masks masks' : List Mask} (h : Mask.SameEach masks masks')
    (core thread : Nat) :
    Layout.threadMask (masks[core]?.getD (Mask.empty 0)) thread =
      Layout.threadMask (masks'[core]?.getD (Mask.empty 0)) thread := by
  have hcore := getElem?_of_forall₂ h core
  generalize masks[core]? = mask, masks'[core]? = mask' at hcore ⊢
  cases hcore with
  | none => rfl
  | some hsame =>
    simp only [Option.getD_some, Layout.threadMask, Mask.groupId?_eq_of_same hsame,
      Mask.indices_eq_of_same hsame]

section Build

variable {grouped : Bool}
  (hgroups : Mask.SameEach (groupMasks grouped records) (groupMasks grouped records'))
  (hkinds : ∀ kind, Mask.SameEach (masksOf records kind) (masksOf records' kind))

include hgroups hkinds

/-- Records that are the same set number the CPUs alike. -/
theorem numbering_eq : numbering grouped records = numbering grouped records' := by
  rw [numbering, numbering, CpuNumbering.ofGroups_eq hgroups,
    CpuNumbering.ofBitsets_eq (List.rel_append (hkinds .package) (hkinds .core))]

/-- Parts of masks that select the same CPUs agree. -/
theorem agrees_parts (coverage : Coverage) :
    (parts grouped records coverage).Agrees (parts grouped records' coverage) where
  descriptors_eq := by simp only [parts, numbering_eq hgroups hkinds]
  slots_eq := by simp only [parts, numbering_eq hgroups hkinds]
  cpuMasks_eq := by simp only [parts, numbering_eq hgroups hkinds, threadMask_eq (hkinds .core)]
  groupBases_eq := by simp only [parts, numbering_eq hgroups hkinds]
  groupMasks := hgroups
  nodeMasks := hkinds .node
  socketMasks := hkinds .package
  coreMasks := hkinds .core

/-- Records that are the same set make layouts that agree or are refused alike. -/
theorem corresponds_build :
    Corresponds LayoutError.Alike Layout.Agrees (build grouped records)
      (build grouped records') := by
  rw [build, build, numbering_eq hgroups hkinds, isEmpty_of_forall₂ hgroups,
    isEmpty_of_forall₂ (hkinds .node)]
  dsimp only
  generalize numbering grouped records' = n
  split
  · exact .error (.refl _)
  · refine (n.corresponds_assign .group hgroups).bind ?_
    rintro groups _ rfl
    refine (n.corresponds_assign .node (hkinds .node)).bind ?_
    rintro nodes _ rfl
    refine (n.corresponds_assign .package (hkinds .package)).bind ?_
    rintro packages _ rfl
    refine (n.corresponds_assign .core (hkinds .core)).bind ?_
    rintro cores _ rfl
    -- the owners of all CPUs are the same by now, and so is the gap
    split
    · exact .error (.refl _)
    · exact (agrees_parts hgroups hkinds _).assemble

end Build

/-! ## The same records in another order -/

/-- The records describe the same: equal relationships and masks that select the same CPUs. -/
def same (r r' : Record) : Bool :=
  r.relationship = r'.relationship && r.mask.same r'.mask

/-- Every record of the first list is in the second. -/
def Within (records records' : List Record) : Prop :=
  ∀ r ∈ records, ∃ r' ∈ records', r.same r' = true

/-- The lists have the same records, in whatever order and however often. -/
structure SameSet (records records' : List Record) : Prop where
  forth : Within records records'
  back : Within records' records

/-- Records are the same if they relate in one way and their masks select the same CPUs. -/
theorem same_iff {r r' : Record} :
    r.same r' = true ↔ r.relationship = r'.relationship ∧ r.mask.same r'.mask = true := by
  rw [same, Bool.and_eq_true, decide_eq_true_eq]

namespace Within

/-- A list that has what a list with records in it has is not empty. -/
theorem ne_nil (h : Within records records') (hrecords : records ≠ []) : records' ≠ [] := by
  obtain ⟨first, hfirst⟩ := List.exists_mem_of_ne_nil records hrecords
  obtain ⟨r', hr', -⟩ := h first hfirst
  exact List.ne_nil_of_mem hr'

/-- The masks of a kind are among those of the other list. -/
theorem exists_same_masksOf (h : Within records records') {kind : Relationship} {m : Mask}
    (hm : m ∈ masksOf records kind) : ∃ m' ∈ masksOf records' kind, m.same m' = true := by
  obtain ⟨r, hr, hkind, rfl⟩ := exists_record_of_mem_masksOf hm
  obtain ⟨r', hr', hsame⟩ := h r hr
  obtain ⟨hrelationship, hmask⟩ := same_iff.mp hsame
  have hlisted : r'.mask ∈ (records'.filter (·.relationship = kind)).map (·.mask) :=
    List.mem_map_of_mem
      (List.mem_filter.mpr ⟨hr', decide_eq_true (hrelationship.symm.trans hkind)⟩)
  obtain ⟨m', hm', hsame'⟩ := Mask.exists_same_orderedSet hlisted
  exact ⟨m', hm', Mask.same_trans hmask hsame'⟩

/-- What holds of all masks of a list, and of a mask with every other that selects the same, holds
of the masks of the records within the list. -/
theorem forall_mask (h : Within records records') {P : Mask → Prop}
    (hP : ∀ {m m' : Mask}, m.same m' = true → P m' → P m)
    (hall : ∀ r' ∈ records', P r'.mask) : ∀ r ∈ records, P r.mask := by
  intro r hr
  obtain ⟨r', hr', hsame⟩ := h r hr
  exact hP (same_iff.mp hsame).2 (hall r' hr')

/-- Records of group masks are only the same if they are equal. -/
theorem subset (h : Within records records') (hgroups : ∀ r ∈ records, r.mask.isGroup = true) :
    records ⊆ records' := by
  intro r hr
  obtain ⟨r', hr', hsame⟩ := h r hr
  obtain ⟨hrelationship, hmask⟩ := same_iff.mp hsame
  cases r with
  | mk relationship mask =>
    cases r' with
    | mk relationship' mask' =>
      obtain rfl : relationship = relationship' := hrelationship
      obtain rfl : mask = mask' := Mask.eq_of_same (hgroups _ hr) hmask
      exact hr'

end Within

namespace SameSet

theorem symm (h : SameSet records records') : SameSet records' records :=
  ⟨h.back, h.forth⟩

/-- Each kind of the same set of records has the same masks. -/
theorem masksOf (h : SameSet records records') (kind : Relationship) :
    Mask.SameEach (masksOf records kind) (masksOf records' kind) :=
  Mask.sameEach_of_ascends (ascends_masksOf records kind) (ascends_masksOf records' kind)
    (fun _ hm => h.forth.exists_same_masksOf hm) (fun _ hm => h.back.exists_same_masksOf hm)

/-- Masks are of one family in both lists or in neither. -/
theorem isGroup (h : SameSet records records') {grouped : Bool}
    (hfamily : ∀ r ∈ records, r.mask.isGroup = grouped) :
    ∀ r' ∈ records', r'.mask.isGroup = grouped :=
  h.back.forall_mask (P := fun m => m.isGroup = grouped)
    (fun hsame hm => (Mask.isGroup_eq_of_same hsame).trans hm) hfamily

/-- The same set of records has the same groups. -/
theorem groupMasks (h : SameSet records records') {grouped : Bool}
    (hfamily : ∀ r ∈ records, r.mask.isGroup = grouped) :
    Mask.SameEach (groupMasks grouped records) (groupMasks grouped records') := by
  rw [Record.groupMasks, Record.groupMasks, isEmpty_of_forall₂ (h.masksOf .group)]
  split
  · next hspans =>
    -- all masks are group masks here, so the lists have equal records
    obtain ⟨rfl, -⟩ := Bool.and_eq_true_iff.mp hspans
    have hmem : ∀ r, r ∈ records ↔ r ∈ records' :=
      fun r => ⟨fun hr => h.forth.subset hfamily hr, fun hr => h.back.subset (h.isGroup hfamily) hr⟩
    rw [groupSpans_eq, groupSpans_eq,
      foldl_eq_of_mem_iff addRecord_comm addRecord_addRecord hmem]
    exact List.forall₂_same.mpr fun m _ => Mask.same_refl m
  · exact h.masksOf .group

/-- The checks before the numbering pass on both lists or on neither. -/
theorem screened (h : SameSet records records') {grouped : Bool}
    (hscreened : Screened grouped records) : Screened grouped records' where
  family := h.isGroup hscreened.family
  nonempty := h.back.forall_mask (P := fun m => m.isEmpty = false)
    (fun hsame hm => (Mask.isEmpty_eq_of_same hsame).trans hm) hscreened.nonempty
  distinct hgrouped := by
    rw [← CpuNumbering.repeatedGroup?_eq (h.groupMasks hscreened.family)]
    exact hscreened.distinct hgrouped

end SameSet

end Record

/-- The order in which records are listed does not matter, nor how often one is listed, nor do the
lengths of bit-sets: two lists with the same records make layouts that agree, or both are refused
and for the same reason. -/
theorem corresponds_ofRecords {records records' : List Record}
    (h : Record.SameSet records records') :
    Corresponds LayoutError.Alike Layout.Agrees (Layout.ofRecords records)
      (Layout.ofRecords records') := by
  by_cases hrecords : records = []
  · have hrecords' : records' = [] := not_not.mp fun hne => h.back.ne_nil hne hrecords
    rw [hrecords, hrecords']
    exact .error (.refl _)
  have hrecords' := h.forth.ne_nil hrecords
  rcases Record.ofRecords_cases hrecords with ⟨grouped, hscreened, hbuild⟩ | ⟨hnot, cause, herror⟩
  · rcases Record.ofRecords_cases hrecords' with ⟨grouped', hscreened', hbuild'⟩ | ⟨hnot', -⟩
    · obtain rfl : grouped = grouped' := by
        obtain ⟨r', hr'⟩ := List.exists_mem_of_ne_nil records' hrecords'
        exact ((h.screened hscreened).family r' hr').symm.trans (hscreened'.family r' hr')
      rw [hbuild, hbuild']
      exact Record.corresponds_build (h.groupMasks hscreened.family) h.masksOf
    · exact absurd (h.screened hscreened) (hnot' grouped)
  · rcases Record.ofRecords_cases hrecords' with ⟨grouped', hscreened', -⟩ | ⟨-, cause', herror'⟩
    · exact absurd (h.symm.screened hscreened') (hnot grouped')
    · rw [herror, herror']
      exact .error (.misplaced cause cause')

/-! ## An instance -/

/-- One package with two cores, each mask as long as it has to be. -/
def Record.short : List Record :=
  [⟨.package, Mask.ofIndices 4 [0, 1, 2, 3]⟩, ⟨.core, Mask.ofIndices 2 [0, 1]⟩,
    ⟨.core, Mask.ofIndices 4 [2, 3]⟩]

/-- The same with longer masks, from the last to the first, one of the cores twice. -/
def Record.long : List Record :=
  [⟨.core, Mask.ofIndices 8 [2, 3]⟩, ⟨.core, Mask.ofIndices 8 [0, 1]⟩,
    ⟨.core, Mask.ofIndices 6 [2, 3]⟩, ⟨.package, Mask.ofIndices 8 [0, 1, 2, 3]⟩]

/-- Two lists of one set of records, in another order and with a record twice. -/
theorem corresponds_ofRecords_short_long :
    Record.SameSet Record.short Record.long ∧
      ∃ l l', Layout.ofRecords Record.short = .ok l ∧ Layout.ofRecords Record.long = .ok l' ∧
        l.Agrees l' := by
  have hsame : Record.SameSet Record.short Record.long :=
    ⟨by unfold Record.Within; decide, by unfold Record.Within; decide⟩
  have hmade : (Layout.ofRecords Record.short).isOk = true := by cbv
  have h := corresponds_ofRecords hsame
  refine ⟨hsame, ?_⟩
  generalize Layout.ofRecords Record.short = result, Layout.ofRecords Record.long = result'
    at h hmade ⊢
  cases h with
  | ok hagrees => exact ⟨_, _, rfl, rfl, hagrees⟩
  | error => cases hmade

end CpuPlacement
