import CpuPlacement.Layout.Grid
import CpuPlacement.Proofs.Layout.ConsistentDescriptors
import CpuPlacement.Proofs.Text.Numeral

/-!
# Regular machines in closed form

A description is a text of three positive counts. Its machine numbers CPUs with the thread
outermost, so that dividing the number of a CPU gives its core, its socket and its thread, as long
as the counts are ids (`Layout.gridDescriptors_eq`). Sockets, cores and threads get the numbers that
they are counted with, since the last CPUs of two of them are in the order of these numbers, and the
cores are numbered through the whole machine. Every description of such counts makes a layout: the
grid is full by its making, and nothing in it reports a node or a group.
-/

set_option autoImplicit false

namespace CpuPlacement

/-! ## Reading a description -/

namespace Layout

/-- The text is a numeral with or without blanks around it, of a positive number that fits a word.
-/
structure Counts (part : List Char) (n : Nat) : Prop where
  writes : Numeral.Writes (Text.trim part) n
  lt_wordLimit : n < Numeral.wordLimit
  pos : 0 < n

/-- The text has three parts, and these are the counts. -/
def Describes (text : List Char) (sockets cores threads : Nat) : Prop :=
  ∃ first second third, Text.parts '/' text = [first, second, third] ∧
    Counts first sockets ∧ Counts second cores ∧ Counts third threads

/-- A part of a description is read if it is a positive number that fits a word. -/
theorem read_trim_eq_ok_iff {part : List Char} {n : Nat} :
    Numeral.read Numeral.wordLimit (Text.trim part) = .ok n ∧ 0 < n ↔ Counts part n := by
  rw [Numeral.read_eq_ok_iff (by decide)]
  exact ⟨fun h => ⟨h.1.1, h.1.2, h.2⟩, fun h => ⟨⟨h.writes, h.lt_wordLimit⟩, h.pos⟩⟩

/-- Three counts are read of a text just if it describes them. -/
theorem descriptionCounts_eq_ok_iff {text : List Char} {sockets cores threads : Nat} :
    descriptionCounts text = .ok (sockets, cores, threads) ↔
      Describes text sockets cores threads := by
  rw [descriptionCounts, bind_eq_ok_iff]
  simp only [mapError_eq_ok_iff, mapM_eq_ok_iff, Describes, ← read_trim_eq_ok_iff]
  constructor
  · rintro ⟨counts, hparts, hcounts⟩
    split at hcounts
    · next s c t =>
      obtain ⟨hpos, heq⟩ := check_eq_ok_iff.mp hcounts
      cases heq
      generalize Text.parts '/' text = parts at hparts ⊢
      obtain _ | ⟨hfirst, _ | ⟨hsecond, _ | ⟨hthird, _ | _⟩⟩⟩ := hparts
      exact ⟨_, _, _, rfl, ⟨hfirst, by omega⟩, ⟨hsecond, by omega⟩, hthird, by omega⟩
    · cases hcounts
  · rintro ⟨first, second, third, hparts, ⟨hfirst, hs⟩, ⟨hsecond, hc⟩, hthird, ht⟩
    refine ⟨[sockets, cores, threads], ?_, ?_⟩
    · rw [hparts]
      exact .cons hfirst (.cons hsecond (.cons hthird .nil))
    · exact check_eq_ok_iff.mpr ⟨by omega, rfl⟩

/-- A text describes one machine at most. -/
theorem Describes.unique {text : List Char} {sockets cores threads sockets' cores' threads' : Nat}
    (h : Describes text sockets cores threads) (h' : Describes text sockets' cores' threads') :
    sockets = sockets' ∧ cores = cores' ∧ threads = threads' := by
  have hcounts := (descriptionCounts_eq_ok_iff.mpr h).symm.trans
    (descriptionCounts_eq_ok_iff.mpr h')
  simpa only [Except.ok.injEq, Prod.mk.injEq] using hcounts

/-! ## Rows of one size -/

section Rows

variable {row rows place size : Nat}

theorem div_row (hplace : place < size) : (row * size + place) / size = row := by
  rw [Nat.mul_comm, Nat.mul_add_div (Nat.zero_lt_of_lt hplace), Nat.div_eq_of_lt hplace,
    Nat.add_zero]

theorem mod_row (hplace : place < size) : (row * size + place) % size = place := by
  rw [Nat.mul_add_mod_self_right, Nat.mod_eq_of_lt hplace]

/-- What is in a row that there is comes before the end of all rows. -/
theorem row_lt (hrow : row < rows) (hplace : place < size) : row * size + place < rows * size := by
  have hle : (row + 1) * size ≤ rows * size := Nat.mul_le_mul_right size hrow
  rw [Nat.succ_mul] at hle
  omega

/-- The last number with a remainder is in the last row. -/
theorem isGreatest_mod {p : Nat → Prop} (hrows : 0 < rows)
    (h : IsGreatest {r | r < size ∧ p r} place) :
    IsGreatest {n | n < rows * size ∧ p (n % size)} ((rows - 1) * size + place) := by
  obtain ⟨⟨hlt, hplace⟩, hupper⟩ := h
  constructor
  · refine ⟨row_lt (by omega) hlt, ?_⟩
    rwa [mod_row hlt]
  · rintro n ⟨hn, hp⟩
    have hsize : 0 < size := Nat.zero_lt_of_lt hlt
    have hmod : n % size ≤ place := hupper ⟨Nat.mod_lt n hsize, hp⟩
    have hdiv : n / size ≤ rows - 1 := Nat.le_sub_one_of_lt ((Nat.div_lt_iff_lt_mul hsize).mpr hn)
    calc n = n / size * size + n % size := (Nat.div_add_mod' n size).symm
      _ ≤ (rows - 1) * size + place := Nat.add_le_add (Nat.mul_le_mul_right size hdiv) hmod

/-- The last number with a quotient is at the end of its row. -/
theorem isGreatest_div (hsize : 0 < size) (hrow : row < rows) :
    IsGreatest {n | n < rows * size ∧ n / size = row} (row * size + (size - 1)) := by
  have hend : size - 1 < size := Nat.sub_one_lt_of_lt hsize
  constructor
  · exact ⟨row_lt hrow hend, div_row hend⟩
  · rintro n ⟨-, rfl⟩
    have hmod : n % size < size := Nat.mod_lt n hsize
    calc n = n / size * size + n % size := (Nat.div_add_mod' n size).symm
      _ ≤ n / size * size + (size - 1) := by omega

/-- One range inside another is a range of their product. -/
theorem flatMap_flatMap_range {α : Type} (f : Nat → Nat → List α) (rows size : Nat) :
    ((List.range rows).flatMap fun row => (List.range size).flatMap (f row)) =
      (List.range (rows * size)).flatMap fun n => f (n / size) (n % size) := by
  -- one row more appends the places of that row
  induction rows with
  | zero => simp
  | succ rows ih =>
    have hlast : (List.range size).flatMap (f rows) = (List.range size).flatMap fun place =>
        f ((rows * size + place) / size) ((rows * size + place) % size) := by
      refine List.flatMap_congr fun place hplace => ?_
      rw [div_row (List.mem_range.mp hplace), mod_row (List.mem_range.mp hplace)]
    rw [List.range_succ, List.flatMap_append, ih, Nat.succ_mul, List.range_add,
      List.flatMap_append, List.flatMap_map, List.flatMap_singleton, hlast]

/-- A list of keys over a range has at each index the key of that index. -/
theorem getElem?_map_range {total cpu id : Nat} {key : Nat → Nat} :
    ((List.range total).map key)[cpu]? = some id ↔ cpu < total ∧ key cpu = id := by
  rw [List.getElem?_map, Option.map_eq_some_iff]
  constructor
  · rintro ⟨other, hother, hkey⟩
    obtain ⟨hlt, rfl⟩ := List.getElem?_eq_some_iff.mp hother
    rw [List.length_range] at hlt
    rw [List.getElem_range] at hkey
    exact ⟨hlt, hkey⟩
  · rintro ⟨hlt, hkey⟩
    exact ⟨cpu, List.getElem?_range hlt, hkey⟩

end Rows

/-! ## Dividing the number of a CPU -/

/-- The number of a CPU, by its thread, its socket and its core within the socket. -/
def gridCpu (sockets cores thread socket core : Nat) : Nat :=
  thread * sockets * cores + socket * cores + core

/-- The descriptor of a CPU, by its number. The remainder counts the cores of the machine. -/
def gridPlace (sockets cores cpu : Nat) : Descriptor :=
  let core := cpu % (sockets * cores)
  { socketId := core / cores, coreId := core % cores, threadId := cpu / (sockets * cores) }

/-- The core of each CPU, counted through the sockets. -/
def gridCores (sockets cores threads : Nat) : List Nat :=
  (List.range (threads * (sockets * cores))).map (· % (sockets * cores))

/-- The descriptors of the CPUs, by their numbers. -/
def gridPlaces (sockets cores threads : Nat) : List Descriptor :=
  (List.range (threads * (sockets * cores))).map (gridPlace sockets cores)

/-- The counts are ids and the CPUs can be counted. -/
structure Sizes (sockets cores threads : Nat) : Prop where
  sockets_lt : sockets < Numeral.idLimit
  cores_lt : cores < Numeral.idLimit
  threads_lt : threads < Numeral.idLimit
  cpus_lt : sockets * cores * threads < Numeral.wordLimit

/-- Where the counts are ids, no id of a descriptor is cut off. -/
theorem gridDescriptors_eq {sockets cores threads : Nat} (hsizes : Sizes sockets cores threads) :
    gridDescriptors sockets cores threads = gridPlaces sockets cores threads := by
  have hid {id count : Nat} (hcount : count < Numeral.idLimit) (hid : id ∈ List.range count) :
      id % Numeral.idLimit = id :=
    Nat.mod_eq_of_lt (Nat.lt_trans (List.mem_range.mp hid) hcount)
  calc gridDescriptors sockets cores threads
      = (List.range threads).flatMap fun thread => (List.range sockets).flatMap fun socket =>
          (List.range cores).map fun core =>
            { socketId := socket, coreId := core, threadId := thread } := by
        refine List.flatMap_congr fun thread hthread => List.flatMap_congr fun socket hsocket =>
          List.map_congr_left fun core hcore => ?_
        rw [hid hsizes.sockets_lt hsocket, hid hsizes.cores_lt hcore, hid hsizes.threads_lt hthread]
    _ = gridPlaces sockets cores threads := by
        simp only [List.map_eq_flatMap, flatMap_flatMap_range, gridPlaces, gridPlace]

/-- The threads are rows of cores. -/
theorem gridCpu_eq (sockets cores thread socket core : Nat) :
    gridCpu sockets cores thread socket core =
      thread * (sockets * cores) + (socket * cores + core) := by
  rw [gridCpu, Nat.mul_assoc, Nat.add_assoc]

section Places

variable {sockets cores threads thread socket core : Nat}

/-- What is in the grid has a number below the product of the counts. -/
theorem gridCpu_lt (hthread : thread < threads) (hsocket : socket < sockets)
    (hcore : core < cores) :
    gridCpu sockets cores thread socket core < threads * (sockets * cores) := by
  rw [gridCpu_eq]
  exact row_lt hthread (row_lt hsocket hcore)

/-- The CPU at a place has the ids of that place. -/
theorem getElem?_gridPlaces (hthread : thread < threads) (hsocket : socket < sockets)
    (hcore : core < cores) :
    (gridPlaces sockets cores threads)[gridCpu sockets cores thread socket core]? =
      some { socketId := socket, coreId := core, threadId := thread } := by
  have hplace : socket * cores + core < sockets * cores := row_lt hsocket hcore
  rw [gridPlaces, List.getElem?_map,
    List.getElem?_range (gridCpu_lt hthread hsocket hcore), Option.map_some, gridCpu_eq, gridPlace,
    div_row hplace, mod_row hplace, div_row hcore, mod_row hcore]

/-- The CPU at a place is of the core that is counted through the sockets. -/
theorem getElem?_gridCores (hthread : thread < threads) (hsocket : socket < sockets)
    (hcore : core < cores) :
    (gridCores sockets cores threads)[gridCpu sockets cores thread socket core]? =
      some (socket * cores + core) := by
  refine getElem?_map_range.mpr ⟨gridCpu_lt hthread hsocket hcore, ?_⟩
  rw [gridCpu_eq]
  exact mod_row (row_lt hsocket hcore)

/-- A core has the CPUs that are at its place in each of the rows. -/
theorem mem_gridCpus_iff (hsocket : socket < sockets) (hcore : core < cores) {cpu : Nat} :
    cpu ∈ (List.range threads).map (fun other => gridCpu sockets cores other socket core) ↔
      (gridCores sockets cores threads)[cpu]? = some (socket * cores + core) := by
  have hsize : 0 < sockets * cores := Nat.zero_lt_of_lt (row_lt hsocket hcore)
  rw [List.mem_map]
  constructor
  · rintro ⟨other, hother, rfl⟩
    exact getElem?_gridCores (List.mem_range.mp hother) hsocket hcore
  · intro hcpu
    obtain ⟨hlt, hmod⟩ := getElem?_map_range.mp hcpu
    refine ⟨cpu / (sockets * cores), ?_, ?_⟩
    · exact List.mem_range.mpr ((Nat.div_lt_iff_lt_mul hsize).mpr hlt)
    · rw [gridCpu_eq, ← hmod, Nat.div_add_mod']

/-- The CPUs of a core ascend with their threads. -/
theorem pairwise_gridCpus (hsocket : socket < sockets) (hcore : core < cores) :
    ((List.range threads).map fun other => gridCpu sockets cores other socket core).Pairwise
      (· < ·) := by
  refine List.pairwise_map.mpr (List.pairwise_lt_range.imp fun {a b} hlt => ?_)
  have hrow := row_lt hlt (row_lt hsocket hcore)
  rw [gridCpu_eq, gridCpu_eq]
  omega

end Places

end Layout

/-! ## The order of the last CPUs -/

/-- Keys of a range are their own classes if their last occurrences are in ascending order. -/
theorem Numbering.classes_map_range {total count : Nat} {key : Nat → Nat} (last : Nat → Nat)
    (hkey : ∀ cpu < total, key cpu < count)
    (hlast : ∀ id < count, IsGreatest {cpu | cpu < total ∧ key cpu = id} (last id))
    (hordered : ∀ a b, a < b → b < count → last a < last b) :
    classes ((List.range total).map key) = List.range count := by
  refine classes_eq_range (fun id => ?_) fun a b hlt hb => ?_
  · constructor
    · intro hid
      obtain ⟨cpu, hcpu, rfl⟩ := List.mem_map.mp hid
      exact hkey cpu (List.mem_range.mp hcpu)
    · intro hid
      exact List.mem_of_getElem? (Layout.getElem?_map_range.mpr (hlast id hid).1)
  · refine ⟨last b, Layout.getElem?_map_range.mpr (hlast b hb).1, fun cpu hcpu => ?_⟩
    have hle : cpu ≤ last a := (hlast a (Nat.lt_trans hlt hb)).2 (Layout.getElem?_map_range.mp hcpu)
    exact Nat.lt_of_le_of_lt hle (hordered a b hlt hb)

namespace Layout

section Grid

variable {sockets cores threads : Nat}

/-- Sockets get the numbers that they are counted with. -/
theorem classes_socketIds (hcores : 0 < cores) (hthreads : 0 < threads) :
    Numbering.classes ((gridPlaces sockets cores threads).map (·.socketId)) =
      List.range sockets := by
  rw [gridPlaces, List.map_map]
  -- the last CPU of a socket is its last core in the last row of threads
  refine Numbering.classes_map_range
    (fun socket => (threads - 1) * (sockets * cores) + (socket * cores + (cores - 1)))
    (fun cpu hcpu => ?_) (fun socket hsocket => ?_) fun a b hlt _ => ?_
  · have hsize : 0 < sockets * cores := Nat.pos_of_ne_zero fun hzero => by simp [hzero] at hcpu
    exact (Nat.div_lt_iff_lt_mul hcores).mpr (Nat.mod_lt cpu hsize)
  · exact isGreatest_mod hthreads (isGreatest_div hcores hsocket)
  · have hrow := row_lt hlt (Nat.sub_one_lt_of_lt hcores)
    omega

/-- Threads get the numbers that they are counted with. -/
theorem classes_threadIds (hsize : 0 < sockets * cores) :
    Numbering.classes ((gridPlaces sockets cores threads).map (·.threadId)) =
      List.range threads := by
  rw [gridPlaces, List.map_map]
  -- a thread is a row, which its last core ends
  refine Numbering.classes_map_range
    (fun thread => thread * (sockets * cores) + (sockets * cores - 1))
    (fun cpu hcpu => ?_) (fun thread hthread => ?_) fun a b hlt _ => ?_
  · exact (Nat.div_lt_iff_lt_mul hsize).mpr hcpu
  · exact isGreatest_div hsize hthread
  · have hrow := row_lt hlt (Nat.sub_one_lt_of_lt hsize)
    omega

/-! ## Cores, numbered through the whole machine -/

/-- The keys of a core are quotient and remainder of its number. -/
theorem coreKeys_eq (sockets cores threads : Nat) :
    ((gridPlaces sockets cores threads).map fun d => (d.socketId, d.coreId)) =
      (gridCores sockets cores threads).map fun core => (core / cores, core % cores) := by
  rw [gridPlaces, gridCores, List.map_map, List.map_map]
  rfl

/-- Quotient and remainder tell the cores apart. -/
theorem injective_div_mod (cores : Nat) :
    Function.Injective fun core => (core / cores, core % cores) := by
  intro a b hsame
  obtain ⟨hdiv, hmod⟩ := Prod.mk.inj hsame
  rw [← Nat.div_add_mod a cores, hdiv, hmod, Nat.div_add_mod]

/-- Cores get the numbers that they are counted with. -/
theorem classes_gridCores (hthreads : 0 < threads) :
    Numbering.classes (gridCores sockets cores threads) = List.range (sockets * cores) := by
  refine Numbering.classes_map_range (fun core => (threads - 1) * (sockets * cores) + core)
    (fun cpu hcpu => ?_) (fun core hcore => ?_) fun a b hlt _ => ?_
  · exact Nat.mod_lt cpu (Nat.pos_of_ne_zero fun hzero => by simp [hzero] at hcpu)
  · have hself : IsGreatest {r | r < sockets * cores ∧ r = core} core :=
      ⟨⟨hcore, rfl⟩, fun r hr => Nat.le_of_eq hr.2⟩
    exact isGreatest_mod hthreads hself
  · omega

/-- Cores are numbered through the sockets, as they are counted. -/
theorem numbers_coreKeys (hthreads : 0 < threads) :
    Numbering.numbers
        ((gridPlaces sockets cores threads).map fun d => (d.socketId, d.coreId)) =
      gridCores sockets cores threads := by
  rw [coreKeys_eq, Numbering.numbers_map (injective_div_mod cores),
    Numbering.numbers_eq_self (classes_gridCores hthreads)]

/-! ## The grid is consistent -/

theorem length_gridPlaces (sockets cores threads : Nat) :
    (gridPlaces sockets cores threads).length = threads * (sockets * cores) := by
  rw [gridPlaces, List.length_map, List.length_range]

/-- A grid has as many socket ids as sockets. -/
theorem distinctSockets_grid (hcores : 0 < cores) (hthreads : 0 < threads) :
    Descriptor.distinctSockets (gridPlaces sockets cores threads) = sockets := by
  rw [Descriptor.distinctSockets, ← Numbering.length_classes, classes_socketIds hcores hthreads,
    List.length_range]

/-- A grid has as many pairs of socket id and core id as cores. -/
theorem distinctCores_grid (hthreads : 0 < threads) :
    Descriptor.distinctCores (gridPlaces sockets cores threads) = sockets * cores := by
  rw [Descriptor.distinctCores, ← Numbering.length_classes, coreKeys_eq,
    Numbering.classes_map_of_injOn (injective_div_mod cores).injOn, List.length_map,
    classes_gridCores hthreads, List.length_range]

/-- A grid has as many thread ids as threads. -/
theorem distinctThreads_grid (hsize : 0 < sockets * cores) :
    Descriptor.distinctThreads (gridPlaces sockets cores threads) = threads := by
  rw [Descriptor.distinctThreads, ← Numbering.length_classes, classes_threadIds hsize,
    List.length_range]

/-- No CPU of a grid reports a node or a group. -/
theorem nodeId_of_mem_grid {d : Descriptor} (hd : d ∈ gridPlaces sockets cores threads) :
    d.nodeId = none ∧ d.groupId = none := by
  rw [gridPlaces] at hd
  obtain ⟨cpu, -, rfl⟩ := List.mem_map.mp hd
  exact ⟨rfl, rfl⟩

/-- No regular machine is refused. -/
theorem consistent_gridPlaces (hsockets : 0 < sockets) (hcores : 0 < cores)
    (hthreads : 0 < threads) :
    Descriptor.Consistent (gridPlaces sockets cores threads) where
  nonempty := by
    refine List.ne_nil_of_length_pos ?_
    rw [length_gridPlaces]
    exact Nat.mul_pos hthreads (Nat.mul_pos hsockets hcores)
  nodes := .inl fun d hd => (nodeId_of_mem_grid hd).1
  groups := .inl fun d hd => (nodeId_of_mem_grid hd).2
  fillsGrid := by
    rw [Descriptor.FillsGrid, distinctSockets_grid hcores hthreads, distinctCores_grid hthreads,
      distinctThreads_grid (Nat.mul_pos hsockets hcores), length_gridPlaces,
      Nat.mul_div_cancel_left cores hsockets, Nat.mul_comm]
  socketsInNodes := by
    intro a ha b hb _
    rw [(nodeId_of_mem_grid ha).1, (nodeId_of_mem_grid hb).1]

/-- So each makes a layout. -/
theorem exists_layout_grid (hsockets : 0 < sockets) (hcores : 0 < cores) (hthreads : 0 < threads) :
    ∃ l, ofDescriptors (gridPlaces sockets cores threads) = .ok l := by
  rcases ofDescriptors_cases (gridPlaces sockets cores threads) with
    ⟨-, hl⟩ | ⟨e, hrefused, -⟩
  · exact hl
  · exact absurd (consistent_gridPlaces hsockets hcores hthreads) hrefused.not_consistent

end Grid

/-! ## The layout of a grid -/

/-- What the CPU at a place of the grid is and belongs to. -/
structure InGrid (l : Layout) (sockets cores threads thread socket core : Nat) : Prop where
  descriptor : l.descriptor (gridCpu sockets cores thread socket core) =
    .ok { socketId := socket, coreId := core, threadId := thread }
  socketOf? : ∃ e, l.socketOf? (gridCpu sockets cores thread socket core) = some e ∧ e.id = socket
  physicalCore : l.physicalCore (gridCpu sockets cores thread socket core) =
    .ok (socket * cores + core)
  /-- The core has one CPU for each thread. -/
  coreOf? : ∃ e, l.coreOf? (gridCpu sockets cores thread socket core) = some e ∧
    e.id = socket * cores + core ∧
    l.cpusOf e.mask = (List.range threads).map fun other => gridCpu sockets cores other socket core

/-- The layout is that of a regular machine. -/
structure IsGrid (l : Layout) (sockets cores threads : Nat) : Prop where
  cpus_eq : l.cpus = sockets * cores * threads
  socketCount_eq : l.socketCount = sockets
  coresPerSocket_eq : l.coresPerSocket = cores
  threadsPerCore_eq : l.threadsPerCore = threads
  inGrid : ∀ thread < threads, ∀ socket < sockets, ∀ core < cores,
    l.InGrid sockets cores threads thread socket core

section Parts

variable {sockets cores threads thread socket core : Nat}

/-- Slots hold the numbers that are counted with. -/
theorem exists_slot_grid {nodes groups : Option (List Nat)}
    (hnodes : Keyed (gridPlaces sockets cores threads).length nodes)
    (hgroups : Keyed (gridPlaces sockets cores threads).length groups)
    (hthread : thread < threads) (hsocket : socket < sockets) (hcore : core < cores) :
    ∃ slot, (partsOfDescriptors (gridPlaces sockets cores threads) nodes groups).slots[gridCpu
        sockets cores thread socket core]? = some slot ∧
      slot.socket = socket ∧ slot.core = socket * cores + core := by
  have hthreads : 0 < threads := Nat.zero_lt_of_lt hthread
  have hcores : 0 < cores := Nat.zero_lt_of_lt hcore
  obtain ⟨hsockets, hcoreNumbers, -⟩ := slots_partsOfDescriptors hnodes hgroups
  rw [Numbering.numbers_eq_self (classes_socketIds hcores hthreads)] at hsockets
  rw [numbers_coreKeys hthreads] at hcoreNumbers
  have hplace := getElem?_gridPlaces hthread hsocket hcore
  have hnumber := getElem?_gridCores hthread hsocket hcore
  have hslotSocket := congrArg (·[gridCpu sockets cores thread socket core]?) hsockets
  have hslotCore := congrArg (·[gridCpu sockets cores thread socket core]?) hcoreNumbers
  simp only [List.getElem?_map, hplace, hnumber, Option.map_some, Option.map_eq_some_iff]
    at hslotSocket hslotCore
  obtain ⟨slot, hslot, hsame⟩ := hslotSocket
  obtain ⟨other, hother, hsameCore⟩ := hslotCore
  cases Option.some.inj (hslot.symm.trans hother)
  exact ⟨slot, hslot, hsame, hsameCore⟩

/-- The parts of a grid have every CPU in its place. -/
theorem inGrid_partsOfDescriptors {nodes groups : Option (List Nat)}
    (hnodes : Keyed (gridPlaces sockets cores threads).length nodes)
    (hgroups : Keyed (gridPlaces sockets cores threads).length groups)
    (hthread : thread < threads) (hsocket : socket < sockets) (hcore : core < cores) :
    (partsOfDescriptors (gridPlaces sockets cores threads) nodes groups).layout.InGrid
      sockets cores threads thread socket core := by
  obtain ⟨slot, hslot, hslotSocket, hslotCore⟩ :=
    exists_slot_grid hnodes hgroups hthread hsocket hcore
  have htiled := tiled_partsOfDescriptors hnodes hgroups
  obtain ⟨socketMask, hsocketMask⟩ := htiled.exists_socket hslot
  obtain ⟨coreMask, hcoreMask⟩ := htiled.exists_core hslot
  have hbitset : coreMask.isGroup = false :=
    Numbering.isGroup_of_mem_masks (List.mem_of_getElem? hcoreMask)
  have hcpus : ∀ cpu, coreMask.test cpu = true ↔
      (gridCores sockets cores threads)[cpu]? = some (socket * cores + core) := by
    intro cpu
    rw [Numbering.test_getElem?_masks hcoreMask, numbers_coreKeys (Nat.zero_lt_of_lt hthread),
      hslotCore]
  exact
    { descriptor := descriptor_eq_ok_iff.mpr (getElem?_gridPlaces hthread hsocket hcore)
      socketOf? := ⟨_, Parts.socketOf?_of hslot hsocketMask, hslotSocket⟩
      physicalCore := physicalCore_eq_ok_iff.mpr ⟨slot, hslot, hslotCore⟩
      coreOf? := by
        refine ⟨_, Parts.coreOf?_of hslot hcoreMask, hslotCore, ?_⟩
        refine (pairwise_cpusOf _ _).eq_of_mem_iff (pairwise_gridCpus hsocket hcore) fun cpu => ?_
        rw [mem_cpusOf_bitset hbitset, hcpus, mem_gridCpus_iff hsocket hcore] }

/-- A layout that is made of a grid has every CPU at its place, with the counts that were given. -/
theorem isGrid_of_ofDescriptors (hsockets : 0 < sockets) (hcores : 0 < cores)
    (hthreads : 0 < threads) {l : Layout}
    (h : ofDescriptors (gridPlaces sockets cores threads) = .ok l) :
    l.IsGrid sockets cores threads := by
  obtain ⟨hsome, nodes, groups, hnodes, hgroups, hassemble⟩ := ofDescriptors_eq_ok_iff.mp h
  obtain ⟨-, -, rfl⟩ := Parts.assemble_eq_ok_iff.mp hassemble
  have hkeyedNodes := keyed_of_uniform? hnodes
  have hkeyedGroups := keyed_of_uniform? hgroups
  exact
    { cpus_eq := (length_gridPlaces ..).trans (Nat.mul_comm ..)
      socketCount_eq :=
        (socketCount_partsOfDescriptors _).trans (distinctSockets_grid hcores hthreads)
      coresPerSocket_eq := by
        refine (coresPerSocket_partsOfDescriptors hsome).trans ?_
        rw [distinctCores_grid hthreads, distinctSockets_grid hcores hthreads,
          Nat.mul_div_cancel_left cores hsockets]
      threadsPerCore_eq :=
        (threadsPerCore_partsOfDescriptors _).trans
          (distinctThreads_grid (Nat.mul_pos hsockets hcores))
      inGrid := fun _ hthread _ hsocket _ hcore =>
        inGrid_partsOfDescriptors hkeyedNodes hkeyedGroups hthread hsocket hcore }

end Parts

/-- A description makes the layout of its grid. -/
theorem ofDescription_eq_ok_iff {text : String} {l : Layout} :
    ofDescription text = .ok l ↔ ∃ sockets cores threads,
      Describes text.toList sockets cores threads ∧
        ofDescriptors (gridDescriptors sockets cores threads) = .ok l := by
  simp only [← descriptionCounts_eq_ok_iff, ofDescription]
  cases descriptionCounts text.toList with
  | error cause => simp
  | ok counts =>
    obtain ⟨sockets, cores, threads⟩ := counts
    simp

end Layout

/-- A text is read as the description of a machine exactly if it has three parts, each of them a
numeral of a positive number with or without blanks around it, as long as the sizes that it
describes are in the range of a machine. The layout is then the grid of these numbers, with the
thread outermost, and its cores are numbered through the sockets. -/
theorem ofDescription_enumerates (text : String)
    (hsizes : ∀ sockets cores threads, Layout.Describes text.toList sockets cores threads →
      Layout.Sizes sockets cores threads) :
    ((∃ l, Layout.ofDescription text = .ok l) ↔
      ∃ sockets cores threads, Layout.Describes text.toList sockets cores threads) ∧
    ∀ sockets cores threads, Layout.Describes text.toList sockets cores threads →
      ∃ l, Layout.ofDescription text = .ok l ∧ l.IsGrid sockets cores threads := by
  have hgrid : ∀ sockets cores threads, Layout.Describes text.toList sockets cores threads →
      ∃ l, Layout.ofDescription text = .ok l ∧ l.IsGrid sockets cores threads := by
    intro sockets cores threads hdescribes
    obtain ⟨_, _, _, -, hsockets, hcores, hthreads⟩ := id hdescribes
    obtain ⟨l, hl⟩ := Layout.exists_layout_grid hsockets.pos hcores.pos hthreads.pos
    refine ⟨l, Layout.ofDescription_eq_ok_iff.mpr ⟨_, _, _, hdescribes, ?_⟩,
      Layout.isGrid_of_ofDescriptors hsockets.pos hcores.pos hthreads.pos hl⟩
    rw [Layout.gridDescriptors_eq (hsizes _ _ _ hdescribes), hl]
  refine ⟨⟨?_, ?_⟩, hgrid⟩
  · rintro ⟨l, hl⟩
    obtain ⟨sockets, cores, threads, hdescribes, -⟩ := Layout.ofDescription_eq_ok_iff.mp hl
    exact ⟨sockets, cores, threads, hdescribes⟩
  · rintro ⟨sockets, cores, threads, hdescribes⟩
    obtain ⟨l, hl, -⟩ := hgrid sockets cores threads hdescribes
    exact ⟨l, hl⟩

/-- Blanks, a plus sign and leading zeros make no difference. -/
theorem ofDescription_enumerates_spelled_out :
    (∀ sockets cores threads, Layout.Describes " 2/+03/ 2\t".toList sockets cores threads →
      Layout.Sizes sockets cores threads) ∧
    Layout.Describes " 2/+03/ 2\t".toList 2 3 2 ∧
      ∃ l, Layout.ofDescription " 2/+03/ 2\t" = .ok l ∧ l.IsGrid 2 3 2 := by
  have hlimit : 3 < Numeral.wordLimit := by simp [Numeral.wordLimit, Numeral.limit]
  have htwo : Numeral.decimal? ['2'] = some 2 := by simp [Numeral.decimal?, Nat.ofDigitChars]
  have hthree : Numeral.decimal? ['0', '3'] = some 3 := by
    simp [Numeral.decimal?, Nat.ofDigitChars]
  have hdescribes : Layout.Describes " 2/+03/ 2\t".toList 2 3 2 := by
    refine ⟨" 2".toList, "+03".toList, " 2\t".toList, by cbv, ?_, ?_, ?_⟩
    · exact ⟨⟨['2'], .inl (by cbv), htwo⟩, by omega, by omega⟩
    · exact ⟨⟨['0', '3'], .inr (by cbv), hthree⟩, hlimit, by omega⟩
    · exact ⟨⟨['2'], .inl (by cbv), htwo⟩, by omega, by omega⟩
  have hsizes : ∀ sockets cores threads,
      Layout.Describes " 2/+03/ 2\t".toList sockets cores threads →
        Layout.Sizes sockets cores threads := by
    intro sockets cores threads hother
    obtain ⟨rfl, rfl, rfl⟩ := hother.unique hdescribes
    exact ⟨by decide, by decide, by decide, by decide⟩
  exact ⟨hsizes, hdescribes, (ofDescription_enumerates " 2/+03/ 2\t" hsizes).2 2 3 2 hdescribes⟩

end CpuPlacement
