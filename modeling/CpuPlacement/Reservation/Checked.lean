import CpuPlacement.Reservation.Acquire
import CpuPlacement.Reservation.Bind
import CpuPlacement.Reservation.Release

/-!
# Checked operations

The operations on an inventory look up locks, cores, thread ids and masks by the number of a CPU,
and the first sibling of a core. They are total, and what is not there says nothing. Here they are
once more in the form in which looking up what is not there is a fault, with the lookups in their
order: locks are changed one after the other, and a search looks no further than to where it finds
something.

The numbers that callers pass in are compared with the number of CPUs first; these comparisons are
part of the operations and not faults.
-/

set_option autoImplicit false

namespace CpuPlacement

/-- The siblings of a core. Every CPU is asked for its core, and those of the core for their thread
ids. -/
def Layout.siblings? (l : Layout) (core : Nat) : Except Fault (List Nat) := do
  let owners ← (List.range l.cpus).mapM fun cpu => return (← l.physicalCore cpu, cpu)
  let members := owners.filterMap fun (owner, cpu) => if owner = core then some cpu else none
  let keyed ← members.mapM fun cpu => return ((← l.descriptor cpu).threadId, cpu)
  return (keyed.mergeSort fun a b => a.1 ≤ b.1).map (·.2)

namespace Inventory.Checked

variable {σ : Type}

/-- The lock of a CPU. -/
def lock (inv : Inventory) (cpu : Nat) : Except Fault Lock :=
  Layout.atCpu inv.locks cpu

/-- The inventory of a layout, whose CPUs are sorted by their cores. -/
def new (layout : Layout) (policy : Policy) : Except Fault Inventory := do
  (List.range layout.cpus).forM fun cpu => do
    let _ ← layout.siblings? (← layout.physicalCore cpu)
  return Inventory.new layout policy

def install (inv : Inventory) (layout : Layout) : Except Fault Inventory :=
  if inv.layout.sameMachine layout then .ok inv else new layout inv.policy

/-- Changes the locks of some CPUs, one after the other. -/
def update (inv : Inventory) (change : Lock → Lock) : List Nat → Except Fault Inventory
  | [] => .ok inv
  | cpu :: rest => do
    let found ← lock inv cpu
    update { inv with locks := inv.locks.set cpu (change found) } change rest

def assign (inv : Inventory) (cpus : List Nat) (owner : ThreadId) : Except Fault Inventory :=
  update inv (fun lock => { lock with owner := some owner }) cpus

def setBound (inv : Inventory) (cpus : List Nat) (bound : Bool) : Except Fault Inventory :=
  update inv (fun lock => { lock with bound }) cpus

/-- The CPUs that a handle stands for; for a whole core those of the core of its first CPU. -/
def covered (inv : Inventory) (h : Handle) : Except Fault (List Nat) :=
  match h with
  | .none => .ok []
  | .cpu cpu => .ok [cpu]
  | .wholeCore first => do inv.layout.siblings? (← inv.layout.physicalCore first)

def pin (inv : Inventory) (backend : Backend σ) (native : σ) (me : ThreadId) (cpu : Nat) :
    Except Fault (Except AffinityError Unit × σ) := do
  return backend.apply native me (← inv.layout.cpuMask cpu)

/-! ## Searching -/

def available (inv : Inventory) (alive : ThreadId → Bool) (cpu : Nat) : Except Fault Bool := do
  return (← lock inv cpu).available alive

/-- The CPU can be reserved now, and the strategy accepts it relative to every CPU among the ids. -/
def fits (inv : Inventory) (alive : ThreadId → Bool) (s : Strategy) (ids : List Int) (cpu : Nat) :
    Except Fault Bool := do
  if ← available inv alive cpu then
    (inv.known ids).allM fun other => s.accepts? inv.layout other cpu
  else return false

def highest? (inv : Inventory) (p : Nat → Except Fault Bool) : Except Fault (Option Nat) :=
  (List.range inv.cpus).reverse.findM? fun cpu => if 1 ≤ cpu then p cpu else .ok false

def choose? (inv : Inventory) (alive : ThreadId → Bool) (strategies : List Strategy)
    (ids : List Int) : Except Fault (Option Nat) := do
  match ← strategies.findSomeM? fun s => highest? inv (fits inv alive s ids) with
  | some cpu => return some cpu
  | none => highest? inv (available inv alive)

def coreSuits (inv : Inventory) (alive : ThreadId → Bool) (s : Strategy) (ids : List Int)
    (core : Nat) : Except Fault Bool := do
  let siblings ← inv.layout.siblings? core
  if siblings.isEmpty then return false
  siblings.allM (fits inv alive s ids)

def chooseCore? (inv : Inventory) (alive : ThreadId → Bool) (strategies : List Strategy)
    (ids : List Int) : Except Fault (Option Nat) :=
  let strategies := if strategies.isEmpty then [Strategy.any] else strategies
  strategies.findSomeM? fun s =>
    (List.range inv.layout.cores.length).reverse.findM? (coreSuits inv alive s ids)

/-! ## Reserving -/

def take (inv : Inventory) (backend : Backend σ) (native : σ) (me : ThreadId) (bind : Bool)
    (h : Handle) (cpu : Nat) : Except Fault (Outcome σ Handle) := do
  let cpus ← covered inv h
  let inv ← assign inv cpus me
  if bind then
    match ← pin inv backend native me cpu with
    | (.ok (), native) => return ⟨h, ← setBound inv cpus true, native, some (.ok ())⟩
    | (.error refusal, native) => return ⟨h, inv, native, some (.error refusal)⟩
  else return ⟨h, inv, native, none⟩

def acquire (inv : Inventory) (backend : Backend σ) (native : σ) (alive : ThreadId → Bool)
    (me : ThreadId) (bind : Bool) (strategies : List Strategy) (ids : List Int) :
    Except Fault (Outcome σ Handle) := do
  match ← choose? inv alive strategies ids with
  | some cpu => take inv backend native me bind (.cpu cpu) cpu
  | none => return ⟨.none, inv, native, none⟩

def acquireCore (inv : Inventory) (backend : Backend σ) (native : σ) (alive : ThreadId → Bool)
    (me : ThreadId) (bind : Bool) (strategies : List Strategy) (ids : List Int) :
    Except Fault (Outcome σ Handle) := do
  match ← chooseCore? inv alive strategies ids with
  | some core =>
    let first ← Layout.atCpu (← inv.layout.siblings? core) 0
    take inv backend native me bind (.wholeCore first) first
  | none => acquire inv backend native alive me bind strategies ids

/-! ## Binding and releasing -/

def bind (inv : Inventory) (backend : Backend σ) (native : σ) (alive : ThreadId → Bool)
    (me : ThreadId) (h : Handle) : Except Fault (Outcome σ Bool) := do
  let refused : Outcome σ Bool := ⟨false, inv, native, none⟩
  match h.cpu? with
  | none => return refused
  | some cpu =>
    if inv.cpus ≤ cpu then return refused
    let found ← lock inv cpu
    if found.owner.isNone || found.boundToOther alive me then return refused
    let cpus ← covered inv h
    let inv ← assign inv cpus me
    match ← pin inv backend native me cpu with
    | (.ok (), native) => return ⟨true, ← setBound inv cpus true, native, some (.ok ())⟩
    | (.error refusal, native) =>
      return ⟨false, ← setBound inv cpus false, native, some (.error refusal)⟩

def bindWholeCore (inv : Inventory) (alive : ThreadId → Bool) (me : ThreadId) (cpu : Int) :
    Except Fault Inventory := do
  if 0 ≤ cpu ∧ cpu < inv.cpus then
    let cpus ← covered inv (.wholeCore cpu.toNat)
    let change (lock : Lock) : Lock :=
      if lock.boundToOther alive me then lock else { lock with owner := some me, bound := true }
    update inv change cpus
  else return inv

def releaseCpu (inv : Inventory) (me : ThreadId) (cpu : Int) :
    Except Fault (Except ReleaseError Inventory) := do
  if 0 ≤ cpu ∧ cpu < inv.cpus then
    if (← lock inv cpu.toNat).owner == some me then
      return .ok (← update inv Lock.clear [cpu.toNat])
    else return .error (.notHeld cpu)
  else return .error (.outOfRange cpu inv.cpus)

end Inventory.Checked

end CpuPlacement
