import CpuPlacement.Proofs.Layout.Siblings
import CpuPlacement.Proofs.Reservation.Granting
import CpuPlacement.Reservation.Checked
import Mathlib

/-!
# No operation faults

On an inventory that is in order and has a layout that there is (`Inventory.Sound`) the checked
operations do not fault, and they give what the operations give. There is one such fact for each
operation and for each part of one, and it rests on those of the parts.

Numbers that callers pass in may be any. Each operation compares the number that it is given with
the number of locks; all other numbers that it looks up come from the layout, or from a search among
the locks, and are those of CPUs that there are.
-/

set_option autoImplicit false

namespace CpuPlacement

/-! ## Lists of lookups -/

section Lists

variable {ε α β : Type} {l : List α}

/-- A traversal in which no step faults gives what its steps give. -/
theorem mapM_eq_ok {f : α → Except ε β} {g : α → β} (h : ∀ a ∈ l, f a = .ok (g a)) :
    l.mapM f = .ok (l.map g) := by
  induction l with
  | nil => rfl
  | cons first rest ih =>
    rw [List.mapM_cons, h first List.mem_cons_self,
      ih fun a ha => h a (List.mem_cons_of_mem first ha)]
    rfl

/-- A loop in which no step faults does not fault. -/
theorem forM_eq_ok {f : α → Except ε PUnit} (h : ∀ a ∈ l, f a = .ok ()) : l.forM f = .ok () := by
  induction l with
  | nil => rfl
  | cons first rest ih =>
    show (f first >>= fun _ => rest.forM f) = .ok ()
    rw [h first List.mem_cons_self]
    exact ih fun a ha => h a (List.mem_cons_of_mem first ha)

/-- A test of all elements in which no step faults is the plain one. -/
theorem allM_eq_ok {f : α → Except ε Bool} {p : α → Bool} (h : ∀ a ∈ l, f a = .ok (p a)) :
    l.allM f = .ok (l.all p) := by
  induction l with
  | nil => rfl
  | cons first rest ih =>
    rw [List.allM, h first List.mem_cons_self, List.all_cons]
    cases p first with
    | false => rfl
    | true => exact ih fun a ha => h a (List.mem_cons_of_mem first ha)

/-- A search in which no step faults is the plain one. -/
theorem findM?_eq_ok {f : α → Except ε Bool} {p : α → Bool} (h : ∀ a ∈ l, f a = .ok (p a)) :
    l.findM? f = .ok (l.find? p) := by
  induction l with
  | nil => rfl
  | cons first rest ih =>
    rw [List.findM?, h first List.mem_cons_self, List.find?_cons]
    cases p first with
    | true => rfl
    | false => exact ih fun a ha => h a (List.mem_cons_of_mem first ha)

/-- A search for a value in which no step faults is the plain one. -/
theorem findSomeM?_eq_ok {f : α → Except ε (Option β)} {g : α → Option β}
    (h : ∀ a ∈ l, f a = .ok (g a)) : l.findSomeM? f = .ok (l.findSome? g) := by
  induction l with
  | nil => rfl
  | cons first rest ih =>
    rw [List.findSomeM?, h first List.mem_cons_self, List.findSome?_cons]
    cases g first with
    | some found => rfl
    | none => exact ih fun a ha => h a (List.mem_cons_of_mem first ha)

/-- Sorting by keys that were looked up before is sorting by the keys. -/
theorem map_mergeSort_keyed (key : α → Nat) (l : List α) :
    ((l.map fun a => (key a, a)).mergeSort fun a b => a.1 ≤ b.1).map (·.2) =
      l.mergeSort fun a b => key a ≤ key b := by
  rw [List.map_mergeSort (s := fun a b => decide (key a ≤ key b)), List.map_map]
  · exact congrArg (List.mergeSort · _) (List.map_id l)
  · intro a ha b hb
    obtain ⟨x, -, rfl⟩ := List.mem_map.mp ha
    obtain ⟨y, -, rfl⟩ := List.mem_map.mp hb
    rfl

end Lists

/-! ## Layouts -/

namespace Layout

variable {l : Layout}

theorem physicalCore_eq_ok {cpu : Nat} {slot : Slot} (hslot : l.slots[cpu]? = some slot) :
    l.physicalCore cpu = .ok slot.core :=
  physicalCore_eq_ok_iff.mpr ⟨slot, hslot, rfl⟩

/-- Asking every CPU for its core goes through the slots. -/
theorem Constructed.mapM_physicalCore (h : l.Constructed) :
    (List.range l.cpus).mapM (fun cpu => return (← l.physicalCore cpu, cpu)) =
      (.ok (l.slots.zipIdx.map fun (slot, cpu) => (slot.core, cpu)) : Except Fault _) := by
  have hrange : List.range l.cpus = l.slots.zipIdx.map Prod.snd := by
    rw [List.zipIdx_map_snd, h.length_slots, List.range_eq_range']
  rw [hrange, List.mapM_map]
  apply mapM_eq_ok
  intro pair hpair
  show (do return (← l.physicalCore pair.2, pair.2)) = _
  rw [physicalCore_eq_ok (List.mem_zipIdx_iff_getElem?.mp hpair)]
  rfl

/-- The siblings of a core are found without a fault. -/
theorem Constructed.siblings?_eq_ok (h : l.Constructed) (core : Nat) :
    l.siblings? core = .ok (l.siblings core) := by
  let threadId (cpu : Nat) : Nat := (l.descriptors[cpu]?.map (·.threadId)).getD 0
  let members : List Nat := l.slots.zipIdx.filterMap fun (slot, cpu) =>
    if slot.core = core then some cpu else none
  have hthreads : members.mapM (fun cpu => return ((← l.descriptor cpu).threadId, cpu)) =
      (.ok (members.map fun cpu => (threadId cpu, cpu)) : Except Fault _) := by
    apply mapM_eq_ok
    intro cpu hcpu
    have hsibling : cpu ∈ l.siblings core := (List.mergeSort_perm _ _).mem_iff.mpr hcpu
    obtain ⟨d, hd⟩ := exists_descriptor_iff.mpr (h.siblings.lt_cpus hsibling)
    rw [hd]
    simp only [threadId, descriptor_eq_ok_iff.mp hd, Option.map_some, Option.getD_some]
    rfl
  refine bind_eq_ok_iff.mpr ⟨_, h.mapM_physicalCore, ?_⟩
  dsimp only
  rw [List.filterMap_map]
  exact bind_eq_ok_iff.mpr ⟨_, hthreads, congrArg Except.ok (map_mergeSort_keyed threadId members)⟩

end Layout

/-- Two CPUs of a layout can be compared. -/
theorem Strategy.accepts?_eq_ok (s : Strategy) {l : Layout} {a b : Nat} (ha : a < l.cpus)
    (hb : b < l.cpus) : s.accepts? l a b = .ok (s.accepts l a b) := by
  obtain ⟨x, hx⟩ := Layout.exists_descriptor_iff.mpr ha
  obtain ⟨y, hy⟩ := Layout.exists_descriptor_iff.mpr hb
  unfold accepts?
  by_cases hany : s = any
  · rw [if_pos hany, hany]
    rfl
  · rw [if_neg hany, hx, hy]
    rfl

/-! ## Inventories -/

namespace Inventory

/-- The inventory is in order, and its layout is one that there is. -/
structure Sound (inv : Inventory) : Prop where
  wellFormed : inv.WellFormed
  constructed : inv.layout.Constructed

namespace Sound

variable {inv : Inventory}

theorem cpus_eq (h : inv.Sound) : inv.cpus = inv.layout.cpus :=
  h.wellFormed.length_eq

/-- All that a handle stands for has a lock, if the CPU that it names does. -/
theorem lt_of_mem_covered (h : inv.Sound) {handle : Handle} {named cpu : Nat}
    (hnamed : handle.cpu? = some named) (hlt : named < inv.cpus)
    (hcpu : cpu ∈ inv.covered handle) : cpu < inv.cpus := by
  cases handle with
  | none => cases hnamed
  | cpu index =>
    obtain rfl := Option.some.inj hnamed
    rwa [List.mem_singleton.mp hcpu]
  | wholeCore first =>
    obtain rfl := Option.some.inj hnamed
    obtain ⟨core, -, hcore⟩ := h.constructed.siblings.exists_core first (h.cpus_eq ▸ hlt)
    obtain ⟨core, -, hin⟩ := covers_of_mem_covered hcore hcpu
    rw [h.cpus_eq]
    exact h.constructed.siblings.lt_cpus (Layout.mem_siblings.mpr hin)

/-- A handle stands for no CPU twice. -/
theorem nodup_covered (inv : Inventory) (handle : Handle) : (inv.covered handle).Nodup := by
  unfold covered
  split
  · exact List.nodup_nil
  · exact List.nodup_singleton _
  · split
    · exact Layout.nodup_siblings _ _
    · exact List.nodup_singleton _

end Sound

namespace Checked

variable {σ : Type} {inv : Inventory} {backend : Backend σ} {native : σ} {alive : ThreadId → Bool}
  {me : ThreadId}

/-! ### Locks -/

theorem lock_eq_ok {cpu : Nat} {found : Lock} (h : inv.locks[cpu]? = some found) :
    lock inv cpu = .ok found := by
  rw [lock, Layout.atCpu, h]

/-- Changing one lock and then others is changing them all. -/
theorem update_set (change : Lock → Lock) {cpu : Nat} {rest : List Nat} {found : Lock}
    (hfound : inv.locks[cpu]? = some found) (hnot : cpu ∉ rest) :
    ({ inv with locks := inv.locks.set cpu (change found) } : Inventory).update rest change =
      inv.update (cpu :: rest) change := by
  refine congrArg (fun locks => ({ inv with locks } : Inventory))
    (List.ext_getElem? fun other => ?_)
  refine (getElem?_update _ rest change other).trans (Eq.trans ?_
    (getElem?_update inv (cpu :: rest) change other).symm)
  dsimp only
  by_cases hsame : cpu = other
  · subst hsame
    have hlt := (List.getElem?_eq_some_iff.mp hfound).1
    rw [List.getElem?_set_self hlt, hfound, Option.map_some, Option.map_some, if_neg hnot,
      if_pos List.mem_cons_self]
  · rw [List.getElem?_set_ne hsame]
    simp only [List.mem_cons, Ne.symm hsame, false_or]

/-- Locks that are there are changed one by one without a fault. -/
theorem update_eq_ok (change : Lock → Lock) {cpus : List Nat} (hnodup : cpus.Nodup)
    (hlt : ∀ cpu ∈ cpus, cpu < inv.cpus) :
    update inv change cpus = .ok (inv.update cpus change) := by
  induction cpus generalizing inv with
  | nil =>
    have hsame : inv.update [] change = inv :=
      congrArg (fun locks => ({ inv with locks } : Inventory)) (List.ext_getElem? fun cpu => by
        rw [List.getElem?_mapIdx]
        cases inv.locks[cpu]? <;> rfl)
    rw [update, hsame]
  | cons cpu rest ih =>
    obtain ⟨hnot, hrest⟩ := List.nodup_cons.mp hnodup
    have hfound := List.getElem?_eq_getElem (hlt cpu List.mem_cons_self)
    refine bind_eq_ok_iff.mpr ⟨_, lock_eq_ok hfound, ?_⟩
    rw [ih hrest fun other hother => ?_, update_set change hfound hnot]
    show other < (inv.locks.set _ _).length
    rw [List.length_set]
    exact hlt other (List.mem_cons_of_mem cpu hother)

/-- What a handle stands for is found without a fault. -/
theorem covered_eq_ok (h : inv.Sound) {handle : Handle} {named : Nat}
    (hnamed : handle.cpu? = some named) (hlt : named < inv.cpus) :
    covered inv handle = .ok (inv.covered handle) := by
  cases handle with
  | none => cases hnamed
  | cpu index => rfl
  | wholeCore first =>
    obtain rfl := Option.some.inj hnamed
    obtain ⟨core, -, hcore⟩ := h.constructed.siblings.exists_core first (h.cpus_eq ▸ hlt)
    obtain ⟨slot, hslot, rfl⟩ := Layout.physicalCore_eq_ok_iff.mp hcore
    refine bind_eq_ok_iff.mpr ⟨_, hcore, ?_⟩
    rw [h.constructed.siblings?_eq_ok, Inventory.covered, hslot]

/-- The caller becomes the owner of what a handle stands for, and is marked as bound or not. -/
theorem assign_eq_ok (h : inv.Sound) {handle : Handle} {named : Nat}
    (hnamed : handle.cpu? = some named) (hlt : named < inv.cpus) :
    assign inv (inv.covered handle) me = .ok (inv.assign (inv.covered handle) me) :=
  update_eq_ok _ (Sound.nodup_covered inv handle) fun _ hcpu => h.lt_of_mem_covered hnamed hlt hcpu

/-- Marking what a handle stands for is no fault. -/
theorem setBound_eq_ok (h : inv.Sound) {handle : Handle} {named : Nat}
    (hnamed : handle.cpu? = some named) (hlt : named < inv.cpus) (bound : Bool) :
    setBound (inv.assign (inv.covered handle) me) (inv.covered handle) bound =
      .ok ((inv.assign (inv.covered handle) me).setBound (inv.covered handle) bound) := by
  refine update_eq_ok _ (Sound.nodup_covered inv handle) ?_
  intro cpu hcpu
  rw [cpus, Inventory.assign, length_locks_update]
  exact h.lt_of_mem_covered hnamed hlt hcpu

/-- Pinning to a CPU of the table is no fault. -/
theorem pin_eq_ok (h : inv.Sound) (given : List Nat) {cpu : Nat} (hlt : cpu < inv.cpus) :
    pin (inv.assign given me) backend native me cpu =
      .ok ((inv.assign given me).pin backend native me cpu) := by
  obtain ⟨single, hsingle⟩ := h.constructed.exists_cpuMask_iff.mpr (h.cpus_eq ▸ hlt)
  have hlayout : (inv.assign given me).layout = inv.layout := rfl
  refine bind_eq_ok_iff.mpr ⟨single, hsingle, ?_⟩
  rw [Inventory.pin, hlayout, Layout.cpuMask_eq_ok_iff.mp hsingle]
  rfl

/-! ### Searching -/

/-- Asking for a CPU of the table is no fault. -/
theorem available_eq_ok {cpu : Nat} (hlt : cpu < inv.cpus) :
    available inv alive cpu = .ok (inv.available alive cpu) := by
  have hfound := List.getElem?_eq_getElem hlt
  refine bind_eq_ok_iff.mpr ⟨_, lock_eq_ok hfound, ?_⟩
  rw [Inventory.available, hfound]
  rfl

/-- Trying a strategy on a CPU of the table is no fault. -/
theorem fits_eq_ok (h : inv.Sound) (s : Strategy) (ids : List Int) {cpu : Nat}
    (hlt : cpu < inv.cpus) :
    fits inv alive s ids cpu = .ok (inv.available alive cpu && inv.suits s ids cpu) := by
  have hsuits : ((inv.known ids).allM fun other => s.accepts? inv.layout other cpu) =
      .ok (inv.suits s ids cpu) := by
    apply allM_eq_ok
    intro other hother
    obtain ⟨id, -, hknown⟩ := List.mem_filterMap.mp hother
    rw [Option.ite_none_right_eq_some] at hknown
    obtain ⟨⟨hpos, hbelow⟩, hid⟩ := hknown
    have hother : other < inv.cpus := by
      rw [← Option.some.inj hid]
      omega
    exact s.accepts?_eq_ok (h.cpus_eq ▸ hother) (h.cpus_eq ▸ hlt)
  refine bind_eq_ok_iff.mpr ⟨_, available_eq_ok hlt, ?_⟩
  cases inv.available alive cpu with
  | false => rfl
  | true => exact hsuits

/-- The search for the highest CPU faults only where one of its tests does. -/
theorem highest?_eq_ok {f : Nat → Except Fault Bool} {p : Nat → Bool}
    (h : ∀ cpu < inv.cpus, f cpu = .ok (p cpu)) : highest? inv f = .ok (inv.highest? p) := by
  apply findM?_eq_ok
  intro cpu hcpu
  have hlt := List.mem_range.mp (List.mem_reverse.mp hcpu)
  by_cases hpos : 1 ≤ cpu
  · rw [if_pos hpos, h cpu hlt, decide_eq_true hpos, Bool.true_and]
  · rw [if_neg hpos, decide_eq_false hpos, Bool.false_and]

/-- The choice of a CPU is no fault. -/
theorem choose?_eq_ok (h : inv.Sound) (strategies : List Strategy) (ids : List Int) :
    choose? inv alive strategies ids = .ok (inv.choose? alive strategies ids) := by
  have hsuitable : (strategies.findSomeM? fun s => highest? inv (fits inv alive s ids)) =
      .ok (strategies.findSome? fun s =>
        inv.highest? fun cpu => inv.available alive cpu && inv.suits s ids cpu) :=
    findSomeM?_eq_ok fun s _ => highest?_eq_ok fun cpu hcpu => fits_eq_ok h s ids hcpu
  refine bind_eq_ok_iff.mpr ⟨_, hsuitable, ?_⟩
  unfold Inventory.choose?
  cases strategies.findSome? fun s =>
    inv.highest? fun cpu => inv.available alive cpu && inv.suits s ids cpu with
  | some cpu => rfl
  | none => exact highest?_eq_ok fun cpu hcpu => available_eq_ok hcpu

/-- Trying a strategy on a core is no fault. -/
theorem coreSuits_eq_ok (h : inv.Sound) (s : Strategy) (ids : List Int) (core : Nat) :
    coreSuits inv alive s ids core = .ok (inv.coreSuits alive s ids core) := by
  refine bind_eq_ok_iff.mpr ⟨_, h.constructed.siblings?_eq_ok core, ?_⟩
  unfold Inventory.coreSuits
  dsimp only
  by_cases hnone : (inv.layout.siblings core).isEmpty = true
  · rw [if_pos hnone, hnone]
    rfl
  · rw [if_neg hnone, Bool.eq_false_iff.mpr hnone]
    refine allM_eq_ok fun cpu hcpu => fits_eq_ok h s ids ?_
    rw [h.cpus_eq]
    exact h.constructed.siblings.lt_cpus hcpu

theorem chooseCore?_eq_ok (h : inv.Sound) (strategies : List Strategy) (ids : List Int) :
    chooseCore? inv alive strategies ids = .ok (inv.chooseCore? alive strategies ids) :=
  findSomeM?_eq_ok fun s _ => findM?_eq_ok fun core _ => coreSuits_eq_ok h s ids core

/-! ### Operations -/

/-- A handle that names a CPU with a lock is taken without a fault. -/
theorem take_eq_ok (h : inv.Sound) (pinned : Bool) {handle : Handle} {cpu : Nat}
    (hnamed : handle.cpu? = some cpu) (hlt : cpu < inv.cpus) :
    take inv backend native me pinned handle cpu =
      .ok (inv.take backend native me pinned handle cpu) := by
  refine bind_eq_ok_iff.mpr
    ⟨_, covered_eq_ok h hnamed hlt, bind_eq_ok_iff.mpr ⟨_, assign_eq_ok h hnamed hlt, ?_⟩⟩
  unfold Inventory.take
  cases pinned with
  | false => rfl
  | true =>
    simp only [if_true]
    refine bind_eq_ok_iff.mpr ⟨_, pin_eq_ok h _ hlt, ?_⟩
    generalize (inv.assign (inv.covered handle) me).pin backend native me cpu = answer
    obtain ⟨refusal | _, after⟩ := answer
    · rfl
    · exact bind_eq_ok_iff.mpr ⟨_, setBound_eq_ok h hnamed hlt true, rfl⟩

/-- Reserving a CPU is no fault, whatever is asked for. -/
theorem acquire_eq_ok (h : inv.Sound) (pinned : Bool) (strategies : List Strategy)
    (ids : List Int) :
    acquire inv backend native alive me pinned strategies ids =
      .ok (inv.acquire backend native alive me pinned strategies ids) := by
  refine bind_eq_ok_iff.mpr ⟨_, choose?_eq_ok h strategies ids, ?_⟩
  unfold Inventory.acquire
  cases hchoose : inv.choose? alive strategies ids with
  | none => rfl
  | some cpu =>
    obtain ⟨lock, hlock, -⟩ := available_iff.mp (choose?_eq_some hchoose).2
    exact take_eq_ok h pinned rfl (List.getElem?_eq_some_iff.mp hlock).1

/-- A core that was chosen has a first sibling. -/
theorem acquireCore_eq_ok (h : inv.Sound) (pinned : Bool) (strategies : List Strategy)
    (ids : List Int) :
    acquireCore inv backend native alive me pinned strategies ids =
      .ok (inv.acquireCore backend native alive me pinned strategies ids) := by
  refine bind_eq_ok_iff.mpr ⟨_, chooseCore?_eq_ok h strategies ids, ?_⟩
  unfold Inventory.acquireCore
  cases hchoose : inv.chooseCore? alive strategies ids with
  | none => exact acquire_eq_ok h pinned strategies ids
  | some core =>
    obtain ⟨_, s, _, -, hfound, -⟩ := List.findSome?_eq_some_iff.mp hchoose
    have hcore := List.mem_range.mp (List.mem_reverse.mp (List.mem_of_find?_eq_some hfound))
    obtain ⟨first, rest, hsiblings⟩ :=
      List.exists_cons_of_ne_nil (h.constructed.siblings.nonempty core hcore)
    have hfirst : first < inv.cpus := by
      rw [h.cpus_eq]
      exact h.constructed.siblings.lt_cpus (hsiblings ▸ List.mem_cons_self)
    refine bind_eq_ok_iff.mpr ⟨_, h.constructed.siblings?_eq_ok core, ?_⟩
    rw [hsiblings]
    dsimp only
    rw [Option.bind_some, hsiblings]
    exact take_eq_ok h pinned rfl hfirst

/-- Binding is no fault, whatever handle it is given. -/
theorem bind_eq_ok (h : inv.Sound) (handle : Handle) :
    bind inv backend native alive me handle = .ok (inv.bind backend native alive me handle) := by
  unfold bind Inventory.bind
  dsimp only
  cases hnamed : handle.cpu? with
  | none => rfl
  | some cpu =>
    dsimp only
    by_cases hlt : cpu < inv.cpus
    · have hfound := List.getElem?_eq_getElem hlt
      rw [if_neg (Nat.not_le_of_lt hlt), hfound]
      refine bind_eq_ok_iff.mpr ⟨_, lock_eq_ok hfound, ?_⟩
      dsimp only
      split
      · rfl
      · refine bind_eq_ok_iff.mpr
          ⟨_, covered_eq_ok h hnamed hlt, bind_eq_ok_iff.mpr ⟨_, assign_eq_ok h hnamed hlt, ?_⟩⟩
        refine bind_eq_ok_iff.mpr ⟨_, pin_eq_ok h _ hlt, ?_⟩
        generalize (inv.assign (inv.covered handle) me).pin backend native me cpu = answer
        obtain ⟨refusal | _, after⟩ := answer
        · exact bind_eq_ok_iff.mpr ⟨_, setBound_eq_ok h hnamed hlt false, rfl⟩
        · exact bind_eq_ok_iff.mpr ⟨_, setBound_eq_ok h hnamed hlt true, rfl⟩
    · rw [if_pos (Nat.le_of_not_lt hlt), List.getElem?_eq_none (Nat.le_of_not_lt hlt)]
      rfl

/-- Binding to a whole core is no fault, whatever CPU is named. -/
theorem bindWholeCore_eq_ok (h : inv.Sound) (cpu : Int) :
    bindWholeCore inv alive me cpu = .ok (inv.bindWholeCore alive me cpu) := by
  unfold bindWholeCore Inventory.bindWholeCore
  by_cases hrange : 0 ≤ cpu ∧ cpu < inv.cpus
  · rw [if_pos hrange, if_pos hrange]
    have hlt : cpu.toNat < inv.cpus := by omega
    refine bind_eq_ok_iff.mpr ⟨_, covered_eq_ok h rfl hlt, ?_⟩
    exact update_eq_ok _ (Sound.nodup_covered inv _) fun _ hmem => h.lt_of_mem_covered rfl hlt hmem
  · rw [if_neg hrange, if_neg hrange]
    rfl

/-- Releasing a CPU is no fault, whatever CPU is named. -/
theorem releaseCpu_eq_ok (inv : Inventory) (me : ThreadId) (cpu : Int) :
    releaseCpu inv me cpu = .ok (inv.releaseCpu me cpu) := by
  unfold releaseCpu Inventory.releaseCpu
  by_cases hrange : 0 ≤ cpu ∧ cpu < inv.cpus
  · rw [if_pos hrange, if_pos hrange]
    have hlt : cpu.toNat < inv.cpus := by omega
    have hfound := List.getElem?_eq_getElem hlt
    refine bind_eq_ok_iff.mpr ⟨_, lock_eq_ok hfound, ?_⟩
    rw [hfound, Option.any_some]
    split
    · have hcleared : update inv Lock.clear [cpu.toNat] = .ok (inv.update [cpu.toNat] Lock.clear) :=
        update_eq_ok _ (List.nodup_singleton _) fun other hother =>
          (List.mem_singleton.mp hother).trans_lt hlt
      exact bind_eq_ok_iff.mpr ⟨_, hcleared, rfl⟩
    · rfl
  · rw [if_neg hrange, if_neg hrange]
    rfl

/-- The locks of a layout that there is are built without a fault. -/
theorem new_eq_ok {layout : Layout} (hlayout : layout.Constructed) (policy : Policy) :
    new layout policy = .ok (Inventory.new layout policy) := by
  refine bind_eq_ok_iff.mpr ⟨_, forM_eq_ok fun cpu hcpu => ?_, rfl⟩
  obtain ⟨core, -, hcore⟩ := hlayout.siblings.exists_core cpu (List.mem_range.mp hcpu)
  exact bind_eq_ok_iff.mpr
    ⟨core, hcore, bind_eq_ok_iff.mpr ⟨_, hlayout.siblings?_eq_ok core, rfl⟩⟩

/-- Installing a layout that was constructed is no fault. -/
theorem install_eq_ok (inv : Inventory) {layout : Layout} (hlayout : layout.Constructed) :
    install inv layout = .ok (inv.install layout) := by
  unfold install Inventory.install
  split
  · rfl
  · exact new_eq_ok hlayout inv.policy

end Checked

end Inventory

end CpuPlacement
