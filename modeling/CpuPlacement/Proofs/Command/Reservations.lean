import CpuPlacement.Command.Run
import CpuPlacement.Proofs.Layout.Tiling
import CpuPlacement.Proofs.Reservation.Series
import Mathlib

/-!
# The reservations of the command

On a layout that its arguments give, the command begins with a table in which nobody owns anything.
What it may reserve one CPU at a time are then the reservable CPUs from 1 on (`free_new`), and what
its table shows at the end is what the row of reservations has given to its thread
(`Series.Accounts.text_eq`). `reservations_exact` says of a whole run that no CPU is lost and none
is given twice.
-/

set_option autoImplicit false

namespace CpuPlacement

/-- The CPUs from 1 on that may be reserved. -/
def Policy.reservables (policy : Policy) (cpus : Nat) : List Nat :=
  (List.range cpus).filter fun cpu => 1 ≤ cpu && policy.isReservable cpu

/-- They are the CPUs of the layout, except for CPU 0, that the policy lets be reserved. -/
theorem Policy.mem_reservables {policy : Policy} {cpus cpu : Nat} :
    cpu ∈ policy.reservables cpus ↔
      1 ≤ cpu ∧ cpu < cpus ∧ policy.isReservable cpu = true := by
  simp only [reservables, List.mem_filter, List.mem_range, Bool.and_eq_true, decide_eq_true_eq]
  exact and_left_comm

/-! ## The table -/

namespace Inventory

/-- The lock of a CPU at the start. -/
theorem getElem?_locks_new {layout : Layout} {policy : Policy} {cpu : Nat}
    (hcpu : cpu < layout.cpus) : (Inventory.new layout policy).locks[cpu]? =
      some (Lock.new cpu (policy.isBase cpu) (policy.isReservable cpu)) := by
  simp only [Inventory.new, List.getElem?_map, List.getElem?_range hcpu, Option.map_some]

theorem cpus_new (layout : Layout) (policy : Policy) :
    (Inventory.new layout policy).cpus = layout.cpus :=
  (WellFormed.new layout policy).length_eq

/-- At the start nobody owns anything. -/
theorem owner?_new (layout : Layout) (policy : Policy) (cpu : Nat) :
    (Inventory.new layout policy).owner? cpu = none := by
  unfold owner?
  by_cases hcpu : cpu < layout.cpus
  · rw [getElem?_locks_new hcpu]
    rfl
  · have hlength : (Inventory.new layout policy).locks.length ≤ cpu :=
      Nat.le_trans (Nat.le_of_eq (cpus_new layout policy)) (Nat.le_of_not_lt hcpu)
    rw [List.getElem?_eq_none hlength]
    rfl

/-- At the start everything that is reservable can be taken. -/
theorem free_new (layout : Layout) (policy : Policy) (alive : ThreadId → Bool) :
    (Inventory.new layout policy).free alive = policy.reservables layout.cpus := by
  unfold free Policy.reservables
  rw [cpus_new]
  apply List.filter_congr
  intro cpu hcpu
  have hlock : (new layout policy).locks[cpu]? = _ := getElem?_locks_new (List.mem_range.mp hcpu)
  simp only [available, hlock, Option.any_some, Lock.available, Lock.liveOwner?, Lock.new,
    Option.filter_none, Option.isNone_none, Bool.and_true]

/-- The table has a line for each CPU, which depends on its owner and on the policy. -/
theorem WellFormed.text_eq {inv : Inventory} (hwf : inv.WellFormed) (r : Roster) :
    inv.text r = String.join ((List.range inv.layout.cpus).map fun cpu =>
      let lock := Lock.new cpu (inv.policy.isBase cpu) (inv.policy.isReservable cpu)
      s!"{cpu}: {({ lock with owner := inv.owner? cpu } : Lock).text r}\n") := by
  unfold text
  congr 1
  refine List.ext_getElem (by simp [hwf.length_eq]) ?_
  intro cpu hcpu _
  have hlt : cpu < inv.locks.length := by simpa using hcpu
  have hlock : inv.locks[cpu]? = some inv.locks[cpu] := List.getElem?_eq_getElem hlt
  have hfits := hwf.fits cpu _ hlock
  simp only [List.getElem_map, List.getElem_zipIdx, List.getElem_range, Nat.zero_add, owner?, hlock,
    Option.bind_some, Lock.text, Lock.new, hfits.base_eq, hfits.reservable_eq]

end Inventory

/-! ## A row from the start -/

namespace Series.Accounts

variable {σ : Type} {s : Series σ} {layout : Layout} {policy : Policy} {alive : ThreadId → Bool}
  {me : ThreadId} {count : Nat} (h : s.Accounts (Inventory.new layout policy) alive me count)

include h

/-- What a handle was granted for is what it stands for in the layout. -/
theorem mem_covered_iff {handle : Handle} (hmem : handle ∈ s.handles) {cpu : Nat} :
    cpu ∈ (Inventory.new layout policy).covered handle ↔ handle.Covers layout cpu :=
  (h.granted handle hmem).mem_covered_iff

/-- No two handles stand for one CPU. -/
theorem pairwise_covers : s.handles.Pairwise fun first second =>
    ∀ cpu, first.Covers layout cpu → ¬ second.Covers layout cpu := by
  apply h.apart.imp_of_mem
  intro first second hfirst hsecond hapart cpu hcovers hagain
  exact hapart cpu ((h.mem_covered_iff hfirst).mpr hcovers) ((h.mem_covered_iff hsecond).mpr hagain)

/-- A handle stands for the CPU that it names. -/
theorem exists_covers {handle : Handle} (hmem : handle ∈ s.handles) :
    ∃ cpu, handle.cpu? = some cpu ∧ handle.Covers layout cpu := by
  obtain ⟨cpu, hcpu⟩ := Option.isSome_iff_exists.mp (List.mem_filter.mp hmem).2
  exact ⟨cpu, hcpu, (h.mem_covered_iff hmem).mp (Inventory.mem_covered_of_named hcpu)⟩

/-- It stands for CPUs of the layout that may be reserved, and for no others. -/
theorem reservable_of_covers {handle : Handle} (hmem : handle ∈ s.handles) {cpu : Nat}
    (hcovers : handle.Covers layout cpu) :
    cpu < layout.cpus ∧ policy.isReservable cpu = true := by
  have hgrant := h.granted handle hmem
  have hcovered := (h.mem_covered_iff hmem).mpr hcovers
  obtain ⟨lock, hlock, -⟩ := Inventory.available_iff.mp (hgrant.available cpu hcovered)
  have hlt : cpu < (Inventory.new layout policy).cpus := (List.getElem?_eq_some_iff.mp hlock).1
  rw [Inventory.cpus_new] at hlt
  exact ⟨hlt, hgrant.reservable (.new layout policy) hcovered⟩

/-- At the end the thread owns what the handles stand for, and nobody owns anything else. -/
theorem owner?_eq_ite (cpu : Nat) : s.inventory.owner? cpu =
    if ∃ handle ∈ s.handles, handle.Covers layout cpu then some me else none := by
  refine (h.owner?_eq cpu).trans (if_congr ?_ rfl (Inventory.owner?_new layout policy cpu))
  exact exists_congr fun handle => and_congr_right fun hmem => h.mem_covered_iff hmem

/-- A row that ended early has left no CPU from 1 on that may be reserved. -/
theorem owner?_of_exhausted (hexhausted : s.exhausted = true) {cpu : Nat}
    (hcpu : cpu ∈ policy.reservables layout.cpus) : s.inventory.owner? cpu = some me := by
  -- it was free at the start, so a handle stands for it by now
  rw [← Inventory.free_new layout policy alive] at hcpu
  obtain ⟨handle, hmem, hcovered⟩ := h.left hexhausted cpu hcpu
  rw [h.owner?_eq_ite, if_pos ⟨handle, hmem, (h.mem_covered_iff hmem).mp hcovered⟩]

/-- The table at the end shows the owner of what the handles stand for, and of all else only what
the policy says. -/
theorem text_eq (r : Roster) :
    s.inventory.text r = String.join ((List.range layout.cpus).map fun cpu =>
      let lock := Lock.new cpu (policy.isBase cpu) (policy.isReservable cpu)
      let entry :=
        if ∃ handle ∈ s.handles, handle.Covers layout cpu then
          ({ lock with owner := some me } : Lock).text r
        else lock.text r
      s!"{cpu}: {entry}\n") := by
  rw [(h.revises.wellFormed (.new layout policy)).text_eq, h.revises.layout_eq,
    h.revises.policy_eq]
  apply congrArg String.join
  apply List.map_congr_left
  intro cpu _
  dsimp only
  rw [h.owner?_eq_ite]
  split <;> rfl

end Series.Accounts

namespace Command

/-- The reservations that the command makes on a layout that its arguments give. -/
def reservations (a : Arguments) (layout : Layout) (policy : Policy) : Series Simulated :=
  (Inventory.new layout policy).acquireSeries Simulated.backend (.forLayout layout)
    mainRoster.alive mainThread ⟨a.cores, a.bind, a.strategies⟩ [] a.acquire

/-- A CPU that the command's thread holds is shown as its own. -/
theorem text_owned (lock : Lock) :
    ({ lock with owner := some mainThread } : Lock).text mainRoster =
      "Thread[main] alive=true" := by
  show s!"{mainRoster.text mainThread} alive={mainRoster.alive mainThread}" = _
  decide

/-- What a report on reservations prints: a line if they ran out, then the CPUs that are held if
there are any, then the table if it is asked for or a CPU is held. -/
structure Reports {σ : Type} (a : Arguments) (s : Series σ) (shortage listed table : String) :
    Prop where
  shortage_eq : s.exhausted = true → shortage = s!"No CPU left after {s.held.length} reservations\n"
  shortage_eq_empty : s.exhausted = false → shortage = ""
  listed_eq : s.held ≠ [] →
    listed = "Reserved cpus: [" ++ ", ".intercalate (s.held.map toString) ++ "]\n\n"
  listed_eq_empty : s.held = [] → listed = ""
  table_eq : a.locks = true ∨ s.held ≠ [] → table = s.inventory.text mainRoster ++ "\n"
  table_eq_empty : a.locks = false → s.held = [] → table = ""

/-- The report has these three parts, each where it is due. -/
theorem reports_lockReport {σ : Type} (a : Arguments) (s : Series σ) :
    ∃ shortage listed table, lockReport a s = shortage ++ listed ++ table ∧
      Reports a s shortage listed table := by
  refine ⟨_, _, _, rfl, ?_⟩
  constructor
  case shortage_eq => exact fun hexhausted => if_pos hexhausted
  case shortage_eq_empty => exact fun hexhausted => if_neg (Bool.eq_false_iff.mp hexhausted)
  case listed_eq =>
    intro hheld
    rw [if_neg (mt List.isEmpty_iff.mp hheld)]
    show "Reserved cpus: " ++ ("[" ++ ", ".intercalate (s.held.map toString) ++ "]") ++ "\n\n" =
      ("Reserved cpus: " ++ "[") ++ ", ".intercalate (s.held.map toString) ++ ("]" ++ "\n\n")
    simp only [String.append_assoc]
  case listed_eq_empty => exact fun hheld => if_pos (List.isEmpty_iff.mpr hheld)
  case table_eq =>
    intro hprinted
    refine if_pos ?_
    rw [Bool.or_eq_true, Bool.not_eq_true', List.isEmpty_eq_false_iff]
    exact hprinted
  case table_eq_empty =>
    intro hlocks hheld
    simp only [hlocks, hheld, List.isEmpty_nil, Bool.not_true, Bool.or_self, Bool.false_eq_true,
      if_false]

section Run

variable {arguments : List String} {around : Surroundings} {a : Arguments} {source : LayoutSource}
  {layout : Layout} {policy : Policy}

/-- What the command prints once it has a layout and a policy. -/
theorem run_eq (hrequest : Request.ofArguments arguments around.reserved = .ok (.run a))
    (hsource : a.source = some source) (hlayout : describedLayout around.files source = .ok layout)
    (hpolicy : Policy.resolve layout.cpus none a.reserved = .ok policy) :
    (run arguments around).exitCode = 0 ∧
    (run arguments around).output =
      layout.text ++ "\n" ++ layout.dump ++ "\n" ++
        lockReport a (reservations a layout policy) := by
  show (carryOut arguments around).exitCode = 0 ∧ (carryOut arguments around).output = _
  unfold carryOut workDescribed
  simp only [hrequest, hsource, hlayout, hpolicy]
  exact ⟨rfl, rfl⟩

/-- The reservations of the command are a row from a table in which nobody owns anything. -/
theorem accounts_reservations (a : Arguments) (layout : Layout) (policy : Policy) :
    (reservations a layout policy).Accounts (Inventory.new layout policy) mainRoster.alive
      mainThread a.acquire :=
  Inventory.acquireSeries_accounts rfl _ _ _ _ _

/-- On a layout that is given to it, the command reserves CPUs without losing or duplicating one.

Without whole cores it goes through the CPUs from 1 on that may be reserved, in an order that does
not depend on how many it is to reserve, and reserves as many of them as it is told to; it runs out
just if it is told to reserve more than there are. In either mode no two handles stand for one CPU
and none stands for a CPU that may not be reserved, the command runs out only after it has reserved
every CPU from 1 on that may be, and the table that it prints afterwards has its thread as the owner
of just the CPUs that the handles stand for. The table is printed whenever a CPU is held or the
locks are asked for, after a line that says how many reservations there are if it ran out, and after
the CPUs that the handles name if there are any. -/
theorem reservations_exact
    (hrequest : Request.ofArguments arguments around.reserved = .ok (.run a))
    (hsource : a.source = some source) (hlayout : describedLayout around.files source = .ok layout)
    (hpolicy : Policy.resolve layout.cpus none a.reserved = .ok policy) :
    let s := reservations a layout policy
    let reservables := policy.reservables layout.cpus
    (run arguments around).exitCode = 0 ∧
    (run arguments around).output =
      layout.text ++ "\n" ++ layout.dump ++ "\n" ++ lockReport a s ∧
    (∃ shortage listed table, lockReport a s = shortage ++ listed ++ table ∧
      Reports a s shortage listed table) ∧
    s.handles.map (·.cpu?) = s.held.map some ∧
    (s.exhausted = true ↔ s.handles.length < a.acquire) ∧
    (a.cores = false →
      s.handles = s.held.map .cpu ∧ s.held.Nodup ∧ (∀ cpu ∈ s.held, cpu ∈ reservables) ∧
      s.held.length = min a.acquire reservables.length ∧
      (s.exhausted = true ↔ reservables.length < a.acquire) ∧
      ∃ order : List Nat, order.Perm reservables ∧ ∀ count,
        (reservations { a with acquire := count } layout policy).held = order.take count) ∧
    s.handles.Pairwise (fun first second =>
      ∀ cpu, first.Covers layout cpu → ¬ second.Covers layout cpu) ∧
    (∀ h ∈ s.handles, (∃ cpu, h.cpu? = some cpu ∧ h.Covers layout cpu) ∧
      ∀ cpu, h.Covers layout cpu → cpu < layout.cpus ∧ policy.isReservable cpu = true) ∧
    (s.exhausted = true → ∀ cpu, 1 ≤ cpu → cpu < layout.cpus → policy.isReservable cpu = true →
      s.inventory.owner? cpu = some mainThread) ∧
    (∀ cpu, s.inventory.owner? cpu =
      if ∃ h ∈ s.handles, h.Covers layout cpu then some mainThread else none) ∧
    s.inventory.text mainRoster = String.join ((List.range layout.cpus).map fun cpu =>
      let entry :=
        if ∃ h ∈ s.handles, h.Covers layout cpu then "Thread[main] alive=true"
        else if policy.isReservable cpu then "Reserved for this application"
        else if policy.isBase cpu then "General use CPU"
        else "CPU not available"
      s!"{cpu}: {entry}\n") := by
  intro s reservables
  -- everything but the order is read off the account of the row
  have h : s.Accounts (Inventory.new layout policy) mainRoster.alive mainThread a.acquire :=
    accounts_reservations a layout policy
  obtain ⟨hexit, houtput⟩ := run_eq hrequest hsource hlayout hpolicy
  refine ⟨hexit, houtput, reports_lockReport a s, s.map_cpu?_handles, h.exhausted_iff, ?single,
    h.pairwise_covers, ?reservable, ?left, h.owner?_eq_ite, ?table⟩
  case single =>
    intro hsingle
    -- every handle is for one CPU, so handles can be counted as CPUs
    have hone : s.Single := Inventory.acquireSeries_single hsingle _ _ _ _
    have hfree : (Inventory.new layout policy).free mainRoster.alive = reservables :=
      Inventory.free_new layout policy mainRoster.alive
    rw [← hfree]
    refine ⟨hone.handles_eq, hone.nodup_held h, fun cpu hcpu => hone.held_subset h hcpu,
      hone.length_held h, hone.exhausted_iff h, ?order⟩
    case order =>
      exact (Inventory.new layout policy).exists_order Simulated.backend (.forLayout layout)
        mainRoster.alive mainThread ⟨a.cores, a.bind, a.strategies⟩ [] hsingle rfl
  case reservable =>
    intro handle hmem
    exact ⟨h.exists_covers hmem, fun cpu hcovers => h.reservable_of_covers hmem hcovers⟩
  case left =>
    intro hexhausted cpu hpos hlt hreservable
    exact h.owner?_of_exhausted hexhausted (Policy.mem_reservables.mpr ⟨hpos, hlt, hreservable⟩)
  case table =>
    rw [h.text_eq]
    simp only [text_owned]
    rfl

end Run

/-- Nothing to go by but the arguments. -/
def Surroundings.bare : Surroundings :=
  ⟨fun _ => .error .missing, .plain 1, none, none⟩

/-- Five reservations, each away from the cores that are held, where three CPUs may be reserved. -/
def Arguments.fiveOfThree : Arguments where
  source := some (.description "1/2/2")
  reserved := some "e"
  acquire := 5
  strategies := [.differentCore]

/-- The command reserves all three CPUs, although two of them share a core, says that there are no
more, and shows them as its own. -/
theorem reservations_exact_five_of_three : ∃ layout,
    Layout.ofDescription "1/2/2" = .ok layout ∧
    let s := reservations .fiveOfThree layout ⟨.full 4, .bitset 4 14⟩
    (run ["--desc", "1/2/2", "--reserved", "e", "--acquire", "5", "--strategy",
      "different-core"] .bare).output =
        layout.text ++ "\n" ++ layout.dump ++ "\n" ++ lockReport .fiveOfThree s ∧
    s.held.Perm [1, 2, 3] ∧ s.exhausted = true ∧
    lockReport .fiveOfThree s =
      "No CPU left after 3 reservations\n" ++
      ("Reserved cpus: [" ++ ", ".intercalate (s.held.map toString) ++ "]\n\n") ++
      ("0: General use CPU\n1: Thread[main] alive=true\n2: Thread[main] alive=true\n" ++
        "3: Thread[main] alive=true\n" ++ "\n") := by
  have hrequest : Request.ofArguments ["--desc", "1/2/2", "--reserved", "e", "--acquire", "5",
      "--strategy", "different-core"] none = .ok (.run .fiveOfThree) := by cbv
  obtain ⟨layout, hlayout, hcpus⟩ : ∃ layout, Layout.ofDescription "1/2/2" = .ok layout ∧
      (layout.cpus == 4) = true := exists_ok_of_any (by cbv)
  replace hcpus : layout.cpus = 4 := beq_iff_eq.mp hcpus
  have hdescribed : describedLayout Surroundings.bare.files (.description "1/2/2") =
      .ok layout := by
    rw [describedLayout, hlayout]
    rfl
  let policy : Policy := ⟨.full 4, .bitset 4 14⟩
  have hpolicy : Policy.resolve layout.cpus none (some "e") = .ok policy := by
    rw [hcpus]
    cbv
  have hreservables : policy.reservables layout.cpus = [1, 2, 3] := by
    rw [hcpus]
    cbv
  obtain ⟨-, houtput, ⟨shortage, listed, table, hreport, hparts⟩, -, -, hsingle, -, -, -, -,
    htext⟩ := reservations_exact hrequest rfl hdescribed hpolicy
  -- which CPU comes first is left to the strategy: the order is known as a permutation only
  obtain ⟨hhandles, -, -, -, hexhausted, order, hperm, htake⟩ := hsingle rfl
  rw [hreservables] at hexhausted hperm
  have hheld : (reservations .fiveOfThree layout policy).held = order :=
    (htake 5).trans (List.take_of_length_le (hperm.length_eq ▸ by decide))
  rw [← hheld] at hperm
  have hran : (reservations .fiveOfThree layout policy).exhausted = true :=
    hexhausted.mpr (by decide)
  have hsome : (reservations .fiveOfThree layout policy).held ≠ [] :=
    fun hnil => by simpa [hnil] using hperm.length_eq
  have hcovered (cpu : Nat) : (∃ h ∈ (reservations .fiveOfThree layout policy).handles,
      h.Covers layout cpu) ↔ cpu ∈ [1, 2, 3] := by
    rw [← hperm.mem_iff, hhandles]
    simp [Handle.Covers]
  have htable : (reservations .fiveOfThree layout policy).inventory.text mainRoster =
      "0: General use CPU\n1: Thread[main] alive=true\n2: Thread[main] alive=true\n" ++
        "3: Thread[main] alive=true\n" := by
    rw [htext, hcpus]
    simp only [hcovered]
    decide +kernel
  refine ⟨layout, hlayout, houtput, hperm, hran, ?_⟩
  rw [hreport, hparts.shortage_eq hran, hparts.listed_eq hsome, hparts.table_eq (.inr hsome),
    htable, hperm.length_eq]
  rfl

end Command

end CpuPlacement
