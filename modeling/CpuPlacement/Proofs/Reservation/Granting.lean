import CpuPlacement.Proofs.Reservation.Table

/-!
# What reserving gives

Both ways of reserving end in one of two ways. Either nothing could be reserved and the inventory is
as it was, or the caller takes what a handle stands for, all of which was available
(`acquire_cases`, `acquireCore_cases`). A CPU with a live owner is not available, so no reservation
touches its lock and none is for it.
-/

set_option autoImplicit false

namespace CpuPlacement

variable {σ : Type}

/-- The operation had the caller pinned natively. -/
def Outcome.pinned {α : Type} (o : Outcome σ α) : Bool :=
  match o.call with
  | some (.ok _) => true
  | _ => false

namespace Inventory

/-- All that the handle stands for can be reserved now. -/
structure Grantable (inv : Inventory) (alive : ThreadId → Bool) (h : Handle) : Prop where
  covers : ∀ cpu, cpu ∈ inv.covered h → h.Covers inv.layout cpu
  available : ∀ cpu, cpu ∈ inv.covered h → inv.available alive cpu = true

/-- What such a handle stands for in the inventory is what it stands for in the layout. -/
theorem Grantable.mem_covered_iff {inv : Inventory} {alive : ThreadId → Bool} {h : Handle}
    (hgrant : inv.Grantable alive h) {cpu : Nat} :
    cpu ∈ inv.covered h ↔ h.Covers inv.layout cpu :=
  ⟨hgrant.covers cpu, mem_covered_of_covers⟩

/-! ## The search -/

/-- The CPU that is found qualifies and is not CPU 0. -/
theorem highest?_eq_some {inv : Inventory} {p : Nat → Bool} {cpu : Nat}
    (h : inv.highest? p = some cpu) : 1 ≤ cpu ∧ p cpu = true := by
  have hfound := List.find?_some h
  simpa only [Bool.and_eq_true, decide_eq_true_eq] using hfound

/-- A CPU is chosen among the available ones, and it is not CPU 0. -/
theorem choose?_eq_some {inv : Inventory} {alive : ThreadId → Bool} {strategies : List Strategy}
    {ids : List Int} {cpu : Nat} (h : inv.choose? alive strategies ids = some cpu) :
    1 ≤ cpu ∧ inv.available alive cpu = true := by
  unfold choose? at h
  rcases Option.or_eq_some_iff.mp h with hsuitable | ⟨-, hany⟩
  · obtain ⟨_, s, _, -, hs, -⟩ := List.findSome?_eq_some_iff.mp hsuitable
    obtain ⟨hpos, hp⟩ := highest?_eq_some hs
    exact ⟨hpos, (Bool.and_eq_true_iff.mp hp).1⟩
  · exact highest?_eq_some hany

/-- A core is chosen if all its CPUs are available. -/
theorem chooseCore?_eq_some {inv : Inventory} {alive : ThreadId → Bool}
    {strategies : List Strategy} {ids : List Int} {core : Nat}
    (h : inv.chooseCore? alive strategies ids = some core) :
    ∀ cpu ∈ inv.layout.siblings core, inv.available alive cpu = true := by
  unfold chooseCore? at h
  obtain ⟨_, s, _, -, hs, -⟩ := List.findSome?_eq_some_iff.mp h
  have hsuits := List.find?_some hs
  simp only [coreSuits, Bool.and_eq_true, List.all_eq_true] at hsuits
  exact fun cpu hcpu => (hsuits.2 cpu hcpu).1

/-- A CPU that is available can be granted. -/
theorem grantable_cpu {inv : Inventory} {alive : ThreadId → Bool} {cpu : Nat}
    (h : inv.available alive cpu = true) : inv.Grantable alive (.cpu cpu) where
  covers _ hmem := List.mem_singleton.mp hmem
  available other hmem := by rwa [List.mem_singleton.mp hmem]

/-- A core whose CPUs are all available can be granted. -/
theorem grantable_wholeCore {inv : Inventory} {alive : ThreadId → Bool} {core first : Nat}
    (hfirst : first ∈ inv.layout.siblings core)
    (h : ∀ cpu ∈ inv.layout.siblings core, inv.available alive cpu = true) :
    inv.Grantable alive (.wholeCore first) where
  covers _ hmem := covers_of_mem_covered (Layout.mem_siblings.mp hfirst) hmem
  available cpu hmem := by
    have hcore := Layout.mem_siblings.mp hfirst
    obtain ⟨core', hcore', hcpu⟩ := covers_of_mem_covered hcore hmem
    obtain rfl : core' = core := Except.ok.inj (hcore'.symm.trans hcore)
    exact h cpu (Layout.mem_siblings.mpr hcpu)

/-! ## Taking what was found -/

section Take

variable (inv : Inventory) (backend : Backend σ) (native : σ) (me : ThreadId) (bind : Bool)
  (h : Handle) (cpu : Nat)

@[simp] theorem take_result : (inv.take backend native me bind h cpu).result = h := by
  unfold take
  dsimp only
  split
  · split <;> rfl
  · rfl

/-- The caller becomes the owner of all that the handle stands for. The mark of being bound is set
if the native call was made and succeeded, and stays what it was otherwise. -/
theorem take_inventory :
    (inv.take backend native me bind h cpu).inventory =
      inv.update (inv.covered h) fun lock =>
        { lock with
          owner := some me
          bound := lock.bound || (inv.take backend native me bind h cpu).pinned } := by
  unfold take
  dsimp only
  cases bind with
  | false =>
    simp only [Bool.false_eq_true, if_false, Outcome.pinned, Bool.or_false]
    rfl
  | true =>
    simp only [if_true]
    split
    · simp only [setBound, assign, update_update, Outcome.pinned, Bool.or_true]
    · simp only [assign, Outcome.pinned, Bool.or_false]

/-- Nobody is pinned without being asked to. -/
theorem and_pinned_take :
    (bind && (inv.take backend native me bind h cpu).pinned) =
      (inv.take backend native me bind h cpu).pinned := by
  cases bind with
  | false => rfl
  | true => exact Bool.true_and _

end Take

/-! ## The two operations -/

section Acquire

variable (inv : Inventory) (backend : Backend σ) (native : σ) (alive : ThreadId → Bool)
  (me : ThreadId) (bind : Bool) (strategies : List Strategy) (ids : List Int)

/-- A reservation of one CPU: nothing, or a CPU other than 0. -/
theorem acquire_cases :
    inv.acquire backend native alive me bind strategies ids = ⟨.none, inv, native, none⟩ ∨
      ∃ cpu, 1 ≤ cpu ∧ inv.Grantable alive (.cpu cpu) ∧
        inv.acquire backend native alive me bind strategies ids =
          inv.take backend native me bind (.cpu cpu) cpu := by
  unfold acquire
  cases hchoose : inv.choose? alive strategies ids with
  | none => exact Or.inl rfl
  | some cpu =>
    obtain ⟨hpos, havailable⟩ := choose?_eq_some hchoose
    exact Or.inr ⟨cpu, hpos, grantable_cpu havailable, rfl⟩

/-- A reservation of one CPU is never for CPU 0. -/
theorem acquire_ne_zero :
    (inv.acquire backend native alive me bind strategies ids).result.cpu? ≠ some 0 := by
  rcases inv.acquire_cases backend native alive me bind strategies ids with
    hnone | ⟨cpu, hpos, -, htake⟩
  · rw [hnone]
    exact nofun
  · rw [htake, take_result]
    intro hzero
    obtain rfl := Option.some.inj hzero
    exact absurd hpos (Nat.not_succ_le_zero 0)

/-- A reservation of a core: a whole core, or else what a reservation of one CPU gives. -/
theorem acquireCore_cases :
    (∃ first, inv.Grantable alive (.wholeCore first) ∧
      inv.acquireCore backend native alive me bind strategies ids =
        inv.take backend native me bind (.wholeCore first) first) ∨
      inv.acquireCore backend native alive me bind strategies ids =
        inv.acquire backend native alive me bind strategies ids := by
  unfold acquireCore
  dsimp only
  split
  · next first hfirst =>
    obtain ⟨core, hcore, hhead⟩ := Option.bind_eq_some_iff.mp hfirst
    have hmem : first ∈ inv.layout.siblings core := List.mem_of_head? hhead
    exact Or.inl ⟨first, grantable_wholeCore hmem (chooseCore?_eq_some hcore), rfl⟩
  · exact Or.inr rfl

end Acquire

/-! ## What reserving leaves alone -/

section Revises

variable (inv : Inventory) (backend : Backend σ) (native : σ) (alive : ThreadId → Bool)
  (me : ThreadId) (bind : Bool) (strategies : List Strategy) (ids : List Int)

/-- Taking a CPU changes owners only. -/
theorem revises_take (h : Handle) (cpu : Nat) :
    inv.Revises (inv.take backend native me bind h cpu).inventory := by
  rw [take_inventory]
  exact Revises.update fun _ _ hfits => hfits.give me _

/-- Reserving a CPU changes owners only. -/
theorem revises_acquire :
    inv.Revises (inv.acquire backend native alive me bind strategies ids).inventory := by
  rcases inv.acquire_cases backend native alive me bind strategies ids with
    hnone | ⟨cpu, -, -, htake⟩
  · rw [hnone]
    exact Revises.refl inv
  · rw [htake]
    exact revises_take ..

/-- Reserving a core changes owners only. -/
theorem revises_acquireCore :
    inv.Revises (inv.acquireCore backend native alive me bind strategies ids).inventory := by
  rcases inv.acquireCore_cases backend native alive me bind strategies ids with
    ⟨first, -, htake⟩ | hone
  · rw [htake]
    exact revises_take ..
  · rw [hone]
    exact revises_acquire ..

end Revises

/-! ## Locks with a live owner -/

/-- The thread owns the lock of the CPU. -/
def Owns (inv : Inventory) (owner : ThreadId) (cpu : Nat) : Prop :=
  inv.locks[cpu]?.bind (·.owner) = some owner

theorem owns_iff {inv : Inventory} {owner : ThreadId} {cpu : Nat} :
    inv.Owns owner cpu ↔ ∃ lock, inv.locks[cpu]? = some lock ∧ lock.owner = some owner :=
  Option.bind_eq_some_iff

/-- A CPU is available if its lock is. -/
theorem available_iff {inv : Inventory} {alive : ThreadId → Bool} {cpu : Nat} :
    inv.available alive cpu = true ↔
      ∃ lock, inv.locks[cpu]? = some lock ∧ lock.available alive = true :=
  Option.any_eq_true _ _

/-- A CPU with a live owner cannot be reserved. -/
theorem not_available_of_owns {inv : Inventory} {alive : ThreadId → Bool} {owner : ThreadId}
    {cpu : Nat} (howns : inv.Owns owner cpu) (halive : alive owner = true) :
    inv.available alive cpu = false := by
  obtain ⟨lock, hlock, howner⟩ := owns_iff.mp howns
  simp [available, hlock, Lock.available, Lock.liveOwner?, howner, halive]

/-- No reservation is for a CPU with a live owner. -/
theorem Grantable.not_mem_covered {inv : Inventory} {alive : ThreadId → Bool} {h : Handle}
    (hg : inv.Grantable alive h) {owner : ThreadId} {cpu : Nat} (howns : inv.Owns owner cpu)
    (halive : alive owner = true) : cpu ∉ inv.covered h := by
  intro hmem
  have havailable := hg.available cpu hmem
  rw [not_available_of_owns howns halive] at havailable
  exact Bool.noConfusion havailable

/-- What can be reserved is reservable by the policy. -/
theorem Grantable.reservable {inv : Inventory} {alive : ThreadId → Bool} {h : Handle}
    (hg : inv.Grantable alive h) (hwf : inv.WellFormed) {cpu : Nat} (hmem : cpu ∈ inv.covered h) :
    inv.policy.isReservable cpu = true := by
  obtain ⟨lock, hlock, havailable⟩ := available_iff.mp (hg.available cpu hmem)
  rw [← (hwf.fits cpu lock hlock).reservable_eq]
  exact (Bool.and_eq_true_iff.mp havailable).1

end Inventory

end CpuPlacement
