import CpuPlacement.Proofs.Layout.Described
import CpuPlacement.Proofs.Layout.RecordOrder
import CpuPlacement.Proofs.Layout.Renumbering
import CpuPlacement.Strategy

/-!
# Names do not matter

A layout is made from which CPUs have equal ids, and not from the ids. Sockets, threads, nodes and
groups can be given other ids, and the cores of each socket too, as long as no two ids that occur
become one (`Descriptor.Renaming.Faithful`). All parts but the descriptors stay what they were
(`Layout.partsOfDescriptors_rename`), so everything made from them does, and an error differs in
nothing but the descriptors that it lists. The strategies that look at the sockets first match the
same CPUs. The strategy `differentCore` need not: it compares core ids of different sockets, and
those can become equal or stop being so.
-/

set_option autoImplicit false

namespace CpuPlacement

namespace Descriptor

/-! ## Other names -/

/-- Other ids; those of cores can depend on the socket. -/
structure Renaming where
  socket : Nat → Nat
  core : Nat → Nat → Nat
  thread : Nat → Nat
  node : Nat → Nat
  group : Nat → Nat

def rename (names : Renaming) (d : Descriptor) : Descriptor :=
  { d with
    socketId := names.socket d.socketId
    coreId := names.core d.socketId d.coreId
    threadId := names.thread d.threadId
    groupId := d.groupId.map names.group
    nodeId := d.nodeId.map names.node }

/-- No two ids that occur get the same new one, of cores no two in one socket. -/
structure Renaming.Faithful (names : Renaming) (cpus : List Descriptor) : Prop where
  sockets : Set.InjOn names.socket {id | id ∈ cpus.map (·.socketId)}
  cores : ∀ socket, Set.InjOn (names.core socket)
    {id | (socket, id) ∈ cpus.map fun d => (d.socketId, d.coreId)}
  threads : Set.InjOn names.thread {id | id ∈ cpus.map (·.threadId)}
  nodes : Set.InjOn names.node {id | some id ∈ cpus.map (·.nodeId)}
  groups : Set.InjOn names.group {id | some id ∈ cpus.map (·.groupId)}

namespace Renaming.Faithful

variable {names : Renaming} {cpus : List Descriptor}

/-- The sockets and the cores in them stay apart. -/
theorem places (h : names.Faithful cpus) :
    Set.InjOn (fun place : Nat × Nat => (names.socket place.1, names.core place.1 place.2))
      {place | place ∈ cpus.map fun d => (d.socketId, d.coreId)} := by
  rintro ⟨socket, core⟩ hplace ⟨socket', core'⟩ hplace' hsame
  obtain ⟨hsockets, hcores⟩ := Prod.mk.inj hsame
  have hoccurs {socket core : Nat} (hplace : (socket, core) ∈ cpus.map fun d =>
      (d.socketId, d.coreId)) : socket ∈ cpus.map (·.socketId) := by
    obtain ⟨d, hd, heq⟩ := List.mem_map.mp hplace
    exact List.mem_map.mpr ⟨d, hd, (Prod.mk.inj heq).1⟩
  obtain rfl : socket = socket' := h.sockets (hoccurs hplace) (hoccurs hplace') hsockets
  obtain rfl : core = core' := h.cores socket hplace hplace' hcores
  rfl

end Renaming.Faithful

end Descriptor

open Descriptor (Renaming rename)

namespace Layout

variable {names : Renaming} {cpus : List Descriptor}

/-! ## The same parts -/

/-- An attribute with other names is reported by the same CPUs. -/
theorem uniform?_map (attribute? : Descriptor → Option Nat) {g : Descriptor → Descriptor}
    {f : Nat → Nat} (h : ∀ d, attribute? (g d) = (attribute? d).map f) (kind : RecordKind)
    (cpus : List Descriptor) :
    uniform? attribute? kind (cpus.map g) =
      (uniform? attribute? kind cpus).map (Option.map (List.map f)) := by
  have hreported : (cpus.map g).map attribute? = (cpus.map attribute?).map (Option.map f) := by
    simp only [List.map_map, Function.comp_def, h]
  simp only [uniform?, hreported]
  generalize cpus.map attribute? = reported
  have hnone : (fun x : Option Nat => x.isNone) ∘ Option.map f = fun x => x.isNone :=
    funext fun x => by cases x <;> rfl
  have hkeys : (reported.map (Option.map f)).filterMap id = (reported.filterMap id).map f := by
    rw [List.filterMap_map, List.map_filterMap]
    rfl
  rw [List.all_map, List.findIdx?_map, hnone, hkeys]
  split
  · rfl
  · split <;> rfl

/-- The keys of an attribute are what CPUs report. -/
theorem mem_of_uniform? {attribute? : Descriptor → Option Nat} {kind : RecordKind}
    {keys : List Nat} (h : uniform? attribute? kind cpus = .ok (some keys)) {key : Nat}
    (hkey : key ∈ keys) : some key ∈ cpus.map attribute? := by
  rw [map_eq_of_uniform? h]
  exact List.mem_map_of_mem hkey

/-- Other keys that are told apart in the same way number the CPUs alike. -/
theorem optionalNumbers_map {keys : Option (List Nat)} {f : Nat → Nat}
    (hf : ∀ list, keys = some list → Set.InjOn f {key | key ∈ list}) (count : Nat) :
    optionalNumbers count (keys.map (List.map f)) = optionalNumbers count keys := by
  cases keys with
  | none => rfl
  | some list => exact congrArg (List.map some) (Numbering.numbers_map_of_injOn (hf list rfl))

/-- Other keys that are told apart in the same way make the same masks. -/
theorem optionalMasks_map {keys : Option (List Nat)} {f : Nat → Nat}
    (hf : ∀ list, keys = some list → Set.InjOn f {key | key ∈ list}) :
    optionalMasks (keys.map (List.map f)) = optionalMasks keys := by
  cases keys with
  | none => rfl
  | some list => exact Numbering.masks_map_of_injOn (hf list rfl)

/-- Other names make the same parts, but for the descriptors. -/
theorem partsOfDescriptors_rename (h : names.Faithful cpus) {nodes groups : Option (List Nat)}
    (hnodes : uniform? (·.nodeId) .node cpus = .ok nodes)
    (hgroups : uniform? (·.groupId) .group cpus = .ok groups) :
    partsOfDescriptors (cpus.map (rename names)) (nodes.map (List.map names.node))
        (groups.map (List.map names.group)) =
      { partsOfDescriptors cpus nodes groups with descriptors := cpus.map (rename names) } := by
  have hnode : ∀ list, nodes = some list → Set.InjOn names.node {key | key ∈ list} := by
    rintro list rfl
    exact h.nodes.mono fun key hkey => mem_of_uniform? hnodes hkey
  have hgroup : ∀ list, groups = some list → Set.InjOn names.group {key | key ∈ list} := by
    rintro list rfl
    exact h.groups.mono fun key hkey => mem_of_uniform? hgroups hkey
  have hsockets : (cpus.map (rename names)).map (·.socketId) =
      (cpus.map (·.socketId)).map names.socket := by
    simp only [List.map_map]
    rfl
  have hcores : (cpus.map (rename names)).map (fun d => (d.socketId, d.coreId)) =
      (cpus.map fun d => (d.socketId, d.coreId)).map
        fun place => (names.socket place.1, names.core place.1 place.2) := by
    simp only [List.map_map]
    rfl
  simp only [partsOfDescriptors, hsockets, hcores, List.length_map, optionalNumbers_map hnode,
    optionalNumbers_map hgroup, optionalMasks_map hnode, optionalMasks_map hgroup,
    Numbering.numbers_map_of_injOn h.sockets, Numbering.numbers_map_of_injOn h.places,
    Numbering.masks_map_of_injOn h.sockets, Numbering.masks_map_of_injOn h.places]

end Layout

namespace Parts

variable {p : Parts} {descriptors : List Descriptor}

/-- Other descriptors with as many thread ids make the same layout, but for the descriptors. -/
theorem layout_descriptors
    (hthreads : ({ p with descriptors } : Parts).threadsPerCore = p.threadsPerCore) :
    ({ p with descriptors } : Parts).layout = { p.layout with descriptors } := by
  rw [layout, hthreads]
  rfl

end Parts

/-! ## The same answers -/

/-- The errors differ in nothing but the descriptors that they list. -/
inductive LayoutError.SameButListing : LayoutError → LayoutError → Prop where
  | refl (e : LayoutError) : SameButListing e e
  | counts (sockets cores threads : Nat) (cpus cpus' : List Descriptor) :
    SameButListing (.inconsistentCounts sockets cores threads cpus)
      (.inconsistentCounts sockets cores threads cpus')

namespace Layout

/-- The layouts have the same entities, place every CPU in the same ones, have the same counts, and
match the same CPUs by every strategy that does not compare the cores of different sockets. -/
structure SamePlaces (l l' : Layout) : Prop where
  cpus : l.cpus = l'.cpus
  socketCount : l.socketCount = l'.socketCount
  coresPerSocket : l.coresPerSocket = l'.coresPerSocket
  threadsPerCore : l.threadsPerCore = l'.threadsPerCore
  entities : ∀ kind, l.entitiesOf kind = l'.entitiesOf kind
  physicalCore : ∀ cpu, l.physicalCore cpu = l'.physicalCore cpu
  entityForCpu : ∀ kind cpu, l.entityForCpu? kind cpu = l'.entityForCpu? kind cpu
  accepts : ∀ s : Strategy, s ≠ .differentCore → ∀ a b, s.accepts? l a b = s.accepts? l' a b

variable {names : Renaming}

/-- The layout with other names for what its descriptors name. -/
def rename (l : Layout) (names : Renaming) : Layout :=
  { l with descriptors := l.descriptors.map (Descriptor.rename names) }

/-- The descriptors of a renamed layout are the renamed descriptors. -/
theorem descriptor_rename (l : Layout) (names : Renaming) (cpu : Nat) :
    (l.rename names).descriptor cpu = (l.descriptor cpu).map (Descriptor.rename names) := by
  simp only [descriptor, atCpu, rename, List.getElem?_map, List.length_map]
  cases l.descriptors[cpu]? <;> rfl

section Rename

variable {l : Layout} (h : names.Faithful l.descriptors)

include h

/-- CPUs have one socket id after the renaming if they had one before. -/
theorem sameSocketId_rename (a b : Nat) :
    (l.rename names).sameSocketId a b = l.sameSocketId a b := by
  have hinj : ∀ {x y : Descriptor}, x ∈ l.descriptors → y ∈ l.descriptors →
      (names.socket x.socketId = names.socket y.socketId ↔ x.socketId = y.socketId) :=
    fun hx hy => h.sockets.eq_iff (List.mem_map_of_mem hx) (List.mem_map_of_mem hy)
  simp only [sameSocketId, rename, List.getElem?_map]
  cases ha : l.descriptors[a]? with
  | none => cases l.descriptors[b]? <;> rfl
  | some x =>
    cases hb : l.descriptors[b]? with
    | none => rfl
    | some y =>
      simp [Descriptor.rename, hinj (List.mem_of_getElem? ha) (List.mem_of_getElem? hb)]

/-- Within a socket, cores are told apart as before. -/
theorem sameCoreId_rename {a b : Nat} (hsocket : l.sameSocketId a b = true) :
    (l.rename names).sameCoreId a b = l.sameCoreId a b := by
  simp only [sameSocketId, beq_iff_eq] at hsocket
  simp only [sameCoreId, rename, List.getElem?_map]
  cases ha : l.descriptors[a]? with
  | none => cases l.descriptors[b]? <;> rfl
  | some x =>
    cases hb : l.descriptors[b]? with
    | none => rfl
    | some y =>
      have hsame : x.socketId = y.socketId := by simpa [ha, hb] using hsocket
      have hx : (y.socketId, x.coreId) ∈ l.descriptors.map fun d => (d.socketId, d.coreId) :=
        List.mem_map.mpr ⟨x, List.mem_of_getElem? ha, by rw [hsame]⟩
      have hy : (y.socketId, y.coreId) ∈ l.descriptors.map fun d => (d.socketId, d.coreId) :=
        List.mem_map_of_mem (List.mem_of_getElem? hb)
      simp [Descriptor.rename, hsame, (h.cores y.socketId).eq_iff hx hy]

/-- No strategy but one depends on the names of cores. -/
theorem accepts_rename {s : Strategy} (hs : s ≠ .differentCore) (a b : Nat) :
    s.accepts (l.rename names) a b = s.accepts l a b := by
  cases hsocket : l.sameSocketId a b with
  | false => cases s <;> simp_all [Strategy.accepts, sameSocketId_rename h]
  | true =>
    cases s <;>
      simp_all [Strategy.accepts, sameSocketId_rename h, sameCoreId_rename h hsocket]

/-- This holds of the checked answers too. -/
theorem accepts?_rename {s : Strategy} (hs : s ≠ .differentCore) (a b : Nat) :
    s.accepts? (l.rename names) a b = s.accepts? l a b := by
  simp only [Strategy.accepts?, descriptor_rename, accepts_rename h hs]
  cases l.descriptor a with
  | error => rfl
  | ok => cases l.descriptor b <;> rfl

/-- Other names leave every CPU in its place. -/
theorem samePlaces_rename : l.SamePlaces (l.rename names) where
  cpus := (List.length_map _).symm
  socketCount := rfl
  coresPerSocket := rfl
  threadsPerCore := rfl
  entities := fun kind => by cases kind <;> rfl
  physicalCore := fun _ => rfl
  entityForCpu := fun kind _ => by cases kind <;> rfl
  accepts := fun _ hs a b => (accepts?_rename h hs a b).symm

end Rename

/-! ## The two layouts -/

/-- Parts with other names for what their descriptors name are assembled alike. -/
theorem corresponds_assemble {p : Parts} (h : names.Faithful p.descriptors) :
    let descriptors := p.descriptors.map (Descriptor.rename names)
    Corresponds LayoutError.SameButListing SamePlaces p.assemble
      ({ p with descriptors } : Parts).assemble := by
  intro descriptors
  have hids : descriptors.map (·.threadId) = (p.descriptors.map (·.threadId)).map names.thread := by
    simp only [descriptors, List.map_map]
    rfl
  have hthreads : ({ p with descriptors } : Parts).threadsPerCore = p.threadsPerCore := by
    rw [Parts.threadsPerCore, Parts.threadsPerCore, hids,
      Numbering.classes_map_of_injOn h.threads, List.length_map]
  have hfills : ({ p with descriptors } : Parts).fillsGrid = p.fillsGrid := by
    rw [Parts.fillsGrid, hthreads]
    simp only [descriptors, List.length_map]
    rfl
  have hlayout : ({ p with descriptors } : Parts).layout = p.layout.rename names :=
    Parts.layout_descriptors hthreads
  rw [Parts.assemble, Parts.assemble, hfills, hthreads, hlayout]
  split
  · exact .error (.counts ..)
  · have hmisplaced : (p.layout.rename names).misplacement? = p.layout.misplacement? := rfl
    simp only [hmisplaced]
    cases p.layout.misplacement? with
    | none => exact .ok (samePlaces_rename h)
    | some cause => exact .error (.refl _)

end Layout

/-- What a source calls sockets, cores, threads, nodes and groups plays no part: with other names
the layout has the same entities, every CPU in the same place, and a list of descriptors is refused
for the same reason. -/
theorem corresponds_ofDescriptors_rename {names : Renaming} {cpus : List Descriptor}
    (h : names.Faithful cpus) :
    Corresponds LayoutError.SameButListing Layout.SamePlaces (Layout.ofDescriptors cpus)
      (Layout.ofDescriptors (cpus.map (rename names))) := by
  by_cases hsome : cpus = []
  · subst hsome
    exact .error (.refl _)
  rw [Layout.ofDescriptors, Layout.ofDescriptors, if_neg (by simpa using hsome),
    if_neg (by simpa using hsome),
    Layout.uniform?_map (·.nodeId) (f := names.node) fun _ => rfl,
    Layout.uniform?_map (·.groupId) (f := names.group) fun _ => rfl]
  cases hnodes : Layout.uniform? (·.nodeId) .node cpus with
  | error e => exact .error (.refl _)
  | ok nodes =>
    cases hgroups : Layout.uniform? (·.groupId) .group cpus with
    | error e => exact .error (.refl _)
    | ok groups =>
      show Corresponds _ _ (Layout.partsOfDescriptors cpus nodes groups).assemble
        (Layout.partsOfDescriptors (cpus.map (rename names)) (nodes.map (List.map names.node))
          (groups.map (List.map names.group))).assemble
      rw [Layout.partsOfDescriptors_rename h hnodes hgroups]
      exact Layout.corresponds_assemble h

/-! ## An instance -/

/-- Two sockets with two cores each, every socket a node. -/
def Descriptor.twoSockets : List Descriptor :=
  [⟨0, 0, 0, none, some 0, none⟩, ⟨0, 1, 0, none, some 0, none⟩,
    ⟨1, 0, 0, none, some 1, none⟩, ⟨1, 1, 0, none, some 1, none⟩]

/-- The sockets and the nodes the other way round, and the cores of one socket numbered on. -/
def Descriptor.Renaming.turned : Renaming where
  socket id := 1 - id
  core socket id := 2 * socket + id
  thread id := id + 7
  node id := 5 - id
  group id := id

/-- Two sockets with their ids exchanged. -/
theorem corresponds_ofDescriptors_turned :
    Renaming.turned.Faithful Descriptor.twoSockets ∧
      ∃ l l', Layout.ofDescriptors Descriptor.twoSockets = .ok l ∧
        Layout.ofDescriptors (Descriptor.twoSockets.map (rename .turned)) = .ok l' ∧
          l.SamePlaces l' := by
  have hfaithful : Renaming.turned.Faithful Descriptor.twoSockets := by
    refine ⟨?_, fun socket => ?_, ?_, ?_, ?_⟩
    all_goals
      intro a ha b hb hsame
      simp only [Descriptor.twoSockets, Renaming.turned] at ha hb hsame
      simp at ha hb <;> omega
  have hmade : (Layout.ofDescriptors Descriptor.twoSockets).isOk = true := by cbv
  have h := corresponds_ofDescriptors_rename hfaithful
  refine ⟨hfaithful, ?_⟩
  generalize Layout.ofDescriptors Descriptor.twoSockets = result,
    Layout.ofDescriptors (Descriptor.twoSockets.map (rename .turned)) = result' at h hmade ⊢
  cases h with
  | ok hsame => exact ⟨_, _, rfl, rfl, hsame⟩
  | error => cases hmade

/-- CPUs 0 and 2 have cores of one id on two sockets, until the cores of a socket are renamed. -/
example :
    let accepted (cpus : List Descriptor) :=
      (Layout.ofDescriptors cpus).toOption.map (Strategy.differentCore.accepts · 0 2)
    accepted Descriptor.twoSockets = some false ∧
      accepted (Descriptor.twoSockets.map (rename .turned)) = some true := by
  cbv

end CpuPlacement
