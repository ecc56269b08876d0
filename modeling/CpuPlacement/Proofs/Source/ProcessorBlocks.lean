import CpuPlacement.Proofs.Source.ProcessorLines
import CpuPlacement.Proofs.Text.Numeral
import CpuPlacement.Proofs.Traversal

/-!
# What is read of processor blocks

A text of processor blocks is read unless some line gives one of the three id keys a value that is
no id (`exists_parse_eq_ok_iff`). What is read is a CPU for each run of lines that has a colon in
it. Each of its ids is what the last line with the key says, or what stands in for the key where no
line has it (`Gives`): a run is folded field by field, and `IdKey` makes one lemma of the three
keys. Threads are counted among the CPUs of one core that come before, which numbers the threads of
each core from 0 (`CountsThreads`).
-/

set_option autoImplicit false

namespace CpuPlacement

namespace ProcessorBlocks

/-! ## Lines -/

/-- The line has the key before its first colon and the value after it, apart from blanks. -/
def Sets (line key value : List Char) : Prop :=
  ∃ before after, line = before ++ ':' :: after ∧ ':' ∉ before ∧
    Text.trim before = key ∧ Text.trim after = value

/-- A field is read of a line just where the line sets it. -/
theorem field?_eq_some_iff {line key value : List Char} :
    field? line = some (key, value) ↔ Sets line key value := by
  rw [field?, Option.map_eq_some_iff]
  constructor
  · rintro ⟨⟨before, after⟩, hcut, heq⟩
    obtain ⟨hline, hcolon⟩ := Text.cut_eq_some_iff.mp hcut
    cases heq
    exact ⟨before, after, hline, hcolon, rfl, rfl⟩
  · rintro ⟨before, after, hline, hcolon, rfl, rfl⟩
    exact ⟨(before, after), Text.cut_eq_some_iff.mpr ⟨hline, hcolon⟩, rfl⟩

/-- The value is a numeral of the number, which fits an id. -/
structure IsId (value : List Char) (n : Nat) : Prop where
  writes : Numeral.Writes value n
  lt_idLimit : n < Numeral.idLimit

/-- A value is read just where it is an id. -/
theorem number_eq_ok_iff {key value : List Char} {n : Nat} :
    number key value = .ok n ↔ IsId value n := by
  rw [number, mapError_eq_ok_iff, Numeral.read_eq_ok_iff (by decide)]
  exact ⟨fun h => ⟨h.1, h.2⟩, fun h => ⟨h.writes, h.lt_idLimit⟩⟩

/-! ## Fields -/

/-- The keys whose values are ids. -/
inductive IdKey where
  | socket
  | core
  | apic
deriving DecidableEq

def IdKey.text : IdKey → String
  | .socket => "physical id"
  | .core => "core id"
  | .apic => "apicid"

theorem IdKey.eq_of_text_eq {key other : IdKey} (h : key.text.toList = other.text.toList) :
    key = other := by
  cases key <;> cases other <;> first | rfl | exact absurd h (by decide)

/-- The line has the key of an id and a value that is none. -/
def Faulty (line : List Char) : Prop :=
  ∃ (key : IdKey) (value : List Char), Sets line key.text.toList value ∧ ¬ ∃ n, IsId value n

/-- The id that a processor has for a key. -/
def Processor.get (p : Processor) : IdKey → Option Nat
  | .socket => some p.socketId
  | .core => some p.coreId
  | .apic => p.apicId

def Processor.put (p : Processor) (key : IdKey) (n : Nat) : Processor :=
  match key with
  | .socket => { p with socketId := n }
  | .core => { p with coreId := n }
  | .apic => { p with apicId := some n }

theorem get_put (p : Processor) (key : IdKey) (n : Nat) : (p.put key n).get key = some n := by
  cases key <;> rfl

theorem get_put_of_ne (p : Processor) {key other : IdKey} (n : Nat) (h : key ≠ other) :
    (p.put other n).get key = p.get key := by
  cases key <;> cases other <;> first | rfl | exact absurd rfl h

/-- A field with the key of an id puts the id, provided that its value is one. -/
theorem set_eq_ok_iff {p q : Processor} {key : IdKey} {value : List Char} :
    p.set (key.text.toList, value) = .ok q ↔ ∃ n, IsId value n ∧ p.put key n = q := by
  have hput {put : Nat → Processor} :
      (do return put (← number key.text.toList value) : Except SourceFault Processor) = .ok q ↔
        ∃ n, IsId value n ∧ put n = q := by
    simp only [bind_eq_ok_iff, number_eq_ok_iff]
    exact exists_congr fun n => and_congr_right fun _ =>
      ⟨fun h => Except.ok.inj h, fun h => h ▸ rfl⟩
  rw [Processor.set]
  cases key with
  | socket => exact hput
  | core => exact hput
  | apic => exact hput

/-- A field with any other key changes nothing. -/
theorem set_of_ne {p : Processor} {other value : List Char}
    (h : ∀ key : IdKey, other ≠ key.text.toList) : p.set (other, value) = .ok p := by
  have hsocket : other ≠ "physical id".toList := h .socket
  have hcore : other ≠ "core id".toList := h .core
  have hapic : other ≠ "apicid".toList := h .apic
  simp only [Processor.set]
  rw [if_neg hsocket, if_neg hcore, if_neg hapic]
  rfl

/-- Whether a field is accepted does not depend on the processor. -/
theorem exists_set_eq_ok_iff (p : Processor) (field : List Char × List Char) :
    (∃ q, p.set field = .ok q) ↔
      ∀ key : IdKey, field.1 = key.text.toList → ∃ n, IsId field.2 n := by
  obtain ⟨other, value⟩ := field
  by_cases hid : ∃ key : IdKey, other = key.text.toList
  · obtain ⟨key, rfl⟩ := hid
    simp only [set_eq_ok_iff]
    constructor
    · rintro ⟨_, n, hn, -⟩ _ -
      exact ⟨n, hn⟩
    · intro h
      obtain ⟨n, hn⟩ := h key rfl
      exact ⟨_, n, hn, rfl⟩
  · rw [not_exists] at hid
    exact iff_of_true ⟨p, set_of_ne hid⟩ fun key hkey => absurd hkey (hid key)

/-- What a field does to the id of a key. -/
theorem get_of_set (key : IdKey) {p q : Processor} {text value : List Char}
    (h : p.set (text, value) = .ok q) :
    (text = key.text.toList ∧ ∃ n, IsId value n ∧ q.get key = some n) ∨
      (text ≠ key.text.toList ∧ q.get key = p.get key) := by
  by_cases hid : ∃ other : IdKey, text = other.text.toList
  · obtain ⟨other, rfl⟩ := hid
    obtain ⟨n, hn, rfl⟩ := set_eq_ok_iff.mp h
    by_cases hsame : key = other
    · subst hsame
      exact .inl ⟨rfl, n, hn, get_put p key n⟩
    · exact .inr ⟨fun htext => hsame (IdKey.eq_of_text_eq htext).symm, get_put_of_ne p n hsame⟩
  · rw [not_exists] at hid
    cases (set_of_ne hid).symm.trans h
    exact .inr ⟨hid key, rfl⟩

/-! ## The ids of a block -/

/-- What the last line of a block with the key says, or what stands in for it. -/
inductive Gives (key : IdKey) (missing : Option Nat) :
    List (List Char) → Option Nat → Prop where
  | missing {block : List (List Char)}
    (hlacks : ∀ line ∈ block, ∀ value, ¬ Sets line key.text.toList value) :
    Gives key missing block missing
  | last {before after : List (List Char)} {line value : List Char} {n : Nat}
    (hline : Sets line key.text.toList value) (hvalue : IsId value n)
    (hafter : ∀ other ∈ after, ∀ value, ¬ Sets other key.text.toList value) :
    Gives key missing (before ++ line :: after) (some n)

section Gives

variable {key : IdKey} {missing found : Option Nat} {block : List (List Char)} {line : List Char}

/-- A line without the key in front changes nothing. -/
theorem Gives.cons (hline : ∀ value, ¬ Sets line key.text.toList value)
    (h : Gives key missing block found) : Gives key missing (line :: block) found := by
  cases h with
  | missing hlacks => exact .missing (List.forall_mem_cons.mpr ⟨hline, hlacks⟩)
  | last hlast hvalue hafter =>
    rw [← List.cons_append]
    exact .last hlast hvalue hafter

/-- A line with the key in front counts where no later line has the key. -/
theorem Gives.cons_set {value : List Char} {n : Nat} (hline : Sets line key.text.toList value)
    (hvalue : IsId value n) (h : Gives key (some n) block found) :
    Gives key missing (line :: block) found := by
  cases h with
  | missing hlacks =>
    rw [← List.nil_append (line :: block)]
    exact .last hline hvalue hlacks
  | last hlast hvalue hafter =>
    rw [← List.cons_append]
    exact .last hlast hvalue hafter

/-- Of all lines with a key the last one counts. -/
theorem gives_of_foldlM (key : IdKey) {p q : Processor}
    (h : (block.filterMap field?).foldlM Processor.set p = .ok q) :
    Gives key (p.get key) block (q.get key) := by
  -- induction from the front: a later line with the key replaces whatever the first one has put
  induction block generalizing p with
  | nil =>
    cases h
    exact .missing (List.forall_mem_nil _)
  | cons line block ih =>
    cases hfield : field? line with
    | none =>
      rw [List.filterMap_cons_none hfield] at h
      refine (ih h).cons fun value hline => ?_
      cases hfield.symm.trans (field?_eq_some_iff.mpr hline)
    | some field =>
      obtain ⟨text, value⟩ := field
      rw [List.filterMap_cons_some hfield, List.foldlM_cons] at h
      obtain ⟨p', hp', hq⟩ := bind_eq_ok_iff.mp h
      rcases get_of_set key hp' with ⟨rfl, n, hn, hget⟩ | ⟨htext, hget⟩
      · exact .cons_set (field?_eq_some_iff.mp hfield) hn (hget ▸ ih hq)
      · rw [← hget]
        refine (ih hq).cons fun value hline => htext ?_
        cases hfield.symm.trans (field?_eq_some_iff.mpr hline)
        rfl

end Gives

/-- The descriptor of the block at a position, its thread apart. -/
structure Describes (block : List (List Char)) (position : Nat) (d : Descriptor) : Prop where
  socketId : Gives .socket (some 0) block (some d.socketId)
  coreId : Gives .core (some position) block (some d.coreId)
  apicId : Gives .apic none block d.apicId
  nodeId : d.nodeId = none
  groupId : d.groupId = none

/-! ## Blocks -/

/-- A line with a colon is not blank. -/
theorem isAllBlank_of_field? {line : List Char} {field : List Char × List Char}
    (h : field? line = some field) : Text.isAllBlank line = false := by
  have hcolon : ':' ∈ line := by
    rw [← List.contains_iff_mem, ← isSome_field?, h, Option.isSome_some]
  rw [Bool.eq_false_iff, Ne, Text.isAllBlank_iff]
  exact fun hblank => absurd (hblank ':' hcolon) (by decide)

/-- Every line with a colon is in a block, since such a line is not blank. -/
theorem exists_mem_blocks_iff {text : List Char} {field : List Char × List Char} :
    (∃ block ∈ blocks text, field ∈ block) ↔
      ∃ line ∈ Text.lines text, field? line = some field := by
  have hruns := Text.runs_pieces Text.isAllBlank (Text.lines text)
  rw [blocks_eq hruns]
  constructor
  · rintro ⟨_, hblock, hfield⟩
    obtain ⟨run, hrun, rfl⟩ := List.mem_map.mp hblock
    obtain ⟨line, hline, hline'⟩ := List.mem_filterMap.mp hfield
    exact ⟨line, (hruns.exists_mem_iff.mp ⟨run, List.mem_of_mem_filter hrun, hline⟩).1, hline'⟩
  · rintro ⟨line, hline, hfield⟩
    obtain ⟨run, hrun, hmem⟩ := hruns.exists_mem_iff.mpr ⟨hline, isAllBlank_of_field? hfield⟩
    have hcolon : line.contains ':' = true := by rw [← isSome_field?, hfield, Option.isSome_some]
    refine ⟨run.filterMap field?, List.mem_map_of_mem (List.mem_filter.mpr ⟨hrun, ?_⟩), ?_⟩
    · exact List.any_eq_true.mpr ⟨line, hmem, hcolon⟩
    · exact List.mem_filterMap.mpr ⟨line, hmem, hfield⟩

/-! ## Which texts are read -/

/-- A line is not faulty if its field, should it have one, would be accepted. -/
theorem not_faulty_iff {line : List Char} :
    ¬ Faulty line ↔ ∀ field, field? line = some field →
      ∀ key : IdKey, field.1 = key.text.toList → ∃ n, IsId field.2 n := by
  constructor
  · rintro hline ⟨text, value⟩ hfield key rfl
    by_contra hvalue
    exact hline ⟨key, value, field?_eq_some_iff.mp hfield, hvalue⟩
  · rintro h ⟨key, value, hsets, hvalue⟩
    exact hvalue (h _ (field?_eq_some_iff.mpr hsets) key rfl)

/-- A text is read if each block is, and then as the descriptors of their processors. -/
theorem parse_eq_ok_iff {text : String} {cpus : List Descriptor} :
    parse text = .ok cpus ↔ ∃ processors,
      List.Forall₂ (fun block p => processor block.1 block.2 = .ok p)
        (blocks text.toList).zipIdx processors ∧ describe processors = cpus := by
  rw [parse_eq, bind_eq_ok_iff]
  simp only [mapM_eq_ok_iff]
  exact exists_congr fun processors => and_congr_right fun _ =>
    ⟨fun h => Except.ok.inj h, fun h => h ▸ rfl⟩

/-- A text is read exactly if none of its lines is faulty. -/
theorem exists_parse_eq_ok_iff {text : String} :
    (∃ cpus, parse text = .ok cpus) ↔ ∀ line ∈ Text.lines text.toList, ¬ Faulty line := by
  have haccepted (block : List (List Char × List Char)) (position : Nat) :
      (∃ p, processor block position = .ok p) ↔
        ∀ field ∈ block, ∀ key : IdKey, field.1 = key.text.toList → ∃ n, IsId field.2 n :=
    exists_foldlM_eq_ok_iff exists_set_eq_ok_iff
  calc (∃ cpus, parse text = .ok cpus)
      ↔ ∃ processors, (blocks text.toList).zipIdx.mapM
          (fun block => processor block.1 block.2) = .ok processors := by
        simp only [parse_eq_ok_iff, mapM_eq_ok_iff]
        exact ⟨fun ⟨_, ps, hps, _⟩ => ⟨ps, hps⟩, fun ⟨ps, hps⟩ => ⟨_, ps, hps, rfl⟩⟩
    _ ↔ ∀ block ∈ (blocks text.toList).zipIdx, ∃ p, processor block.1 block.2 = .ok p :=
        exists_mapM_eq_ok_iff
    _ ↔ ∀ block ∈ blocks text.toList, ∀ field ∈ block, ∀ key : IdKey,
          field.1 = key.text.toList → ∃ n, IsId field.2 n := by
        simp only [haccepted]
        constructor
        · intro h block hblock
          obtain ⟨i, hi⟩ := List.mem_iff_getElem?.mp hblock
          exact h (block, i) (List.mem_zipIdx_iff_getElem?.mpr hi)
        · rintro h ⟨block, i⟩ hblock
          exact h block (List.mem_of_getElem? (List.mem_zipIdx_iff_getElem?.mp hblock))
    _ ↔ ∀ line ∈ Text.lines text.toList, ¬ Faulty line := by
        simp only [not_faulty_iff]
        constructor
        · intro h line hline field hfield
          obtain ⟨block, hblock, hmem⟩ := exists_mem_blocks_iff.mpr ⟨line, hline, hfield⟩
          exact h block hblock field hmem
        · intro h block hblock field hmem
          obtain ⟨line, hline, hfield⟩ := exists_mem_blocks_iff.mp ⟨block, hblock, hmem⟩
          exact h line hline field hfield

/-! ## Threads -/

/-- The descriptor names the core. -/
def onCore (socket core : Nat) (d : Descriptor) : Bool :=
  d.socketId == socket && d.coreId == core

/-- Each CPU is the next thread of its core. -/
def CountsThreads (cpus : List Descriptor) : Prop :=
  ∀ (cpu : Nat) (d : Descriptor), cpus[cpu]? = some d →
    d.threadId = (cpus.take cpu).countP (onCore d.socketId d.coreId)

/-- Counting threads changes neither sockets nor cores. -/
theorem map_describe (processors : List Processor) :
    (describe processors).map (fun d => (d.socketId, d.coreId)) =
      processors.map fun p => (p.socketId, p.coreId) := by
  refine List.ext_getElem? fun cpu => ?_
  rw [List.getElem?_map, List.getElem?_map, describe, List.getElem?_map, List.getElem?_zipIdx]
  cases processors[cpu]? <;> rfl

/-- In the descriptors each CPU is the next thread of its core. -/
theorem countsThreads_describe (processors : List Processor) :
    CountsThreads (describe processors) := by
  intro cpu d hd
  obtain ⟨p, -, rfl⟩ := getElem?_describe.mp hd
  have hcount := congrArg (fun cores => (cores.take cpu).countP fun core : Nat × Nat =>
    core.1 == p.socketId && core.2 == p.coreId) (map_describe processors)
  simp only [← List.map_take, List.countP_map] at hcount
  exact hcount.symm

namespace CountsThreads

variable {cpus : List Descriptor}

/-- The threads of a core are numbered from 0 in the order of the CPUs. -/
theorem threadIds (h : CountsThreads cpus) (socket core : Nat) :
    (cpus.filter (onCore socket core)).map (·.threadId) =
      List.range (cpus.countP (onCore socket core)) := by
  induction cpus using List.reverseRecOn with
  | nil => rfl
  | append_singleton cpus last ih =>
    have hearlier : CountsThreads cpus := by
      intro cpu d hd
      have hlt : cpu < cpus.length := (List.getElem?_eq_some_iff.mp hd).1
      have hcount := h cpu d (by rw [List.getElem?_append_left hlt, hd])
      rwa [List.take_append_of_le_length hlt.le] at hcount
    have hlast : last.threadId = cpus.countP (onCore last.socketId last.coreId) := by
      have hcount := h cpus.length last List.getElem?_concat_length
      rwa [List.take_left] at hcount
    rw [List.filter_append, List.map_append, ih hearlier, List.countP_append]
    by_cases hcore : onCore socket core last = true
    · obtain ⟨rfl, rfl⟩ : last.socketId = socket ∧ last.coreId = core := by
        simpa [onCore] using hcore
      rw [List.filter_cons_of_pos hcore, List.countP_cons_of_pos hcore, List.countP_nil,
        List.range_succ, List.filter_nil, List.map_singleton, hlast]
    · rw [List.filter_cons_of_neg hcore, List.countP_cons_of_neg hcore, List.countP_nil,
        Nat.add_zero, List.filter_nil, List.map_nil, List.append_nil]

/-- So no two CPUs are one thread of one core. -/
theorem nodup (h : CountsThreads cpus) :
    (cpus.map fun d => (d.socketId, d.coreId, d.threadId)).Nodup := by
  refine List.pairwise_map.mpr (List.pairwise_iff_getElem.mpr fun i j hi hj hlt hsame => ?_)
  obtain ⟨hsocket, hcore, hthread⟩ : cpus[i].socketId = cpus[j].socketId ∧
      cpus[i].coreId = cpus[j].coreId ∧ cpus[i].threadId = cpus[j].threadId := by
    simpa using hsame
  have hself : onCore cpus[j].socketId cpus[j].coreId cpus[i] = true := by
    simp [onCore, hsocket, hcore]
  -- the later of the two counts the earlier one too
  have hprefix : cpus.take (i + 1) <+: cpus.take j := List.take_prefix_take_left (by omega)
  have hcount := hprefix.sublist.countP_le (p := onCore cpus[j].socketId cpus[j].coreId)
  rw [List.take_succ_eq_append_getElem hi, List.countP_append,
    List.countP_cons_of_pos hself] at hcount
  rw [h i _ (List.getElem?_eq_getElem hi), h j _ (List.getElem?_eq_getElem hj), hsocket,
    hcore] at hthread
  omega

end CountsThreads

/-! ## What is read -/

/-- The descriptors are those of the blocks, in their order. -/
structure Lists (lines : List (List Char)) (cpus : List Descriptor) : Prop where
  /-- There is one CPU for each run of lines that has a colon in it. -/
  blocks : ∃ runs, Text.Runs Text.isAllBlank lines runs ∧
    cpus.length = (runs.filter hasColon).length ∧
    ∀ cpu block d, (runs.filter hasColon)[cpu]? = some block → cpus[cpu]? = some d →
      Describes block cpu d
  threads : CountsThreads cpus
  /-- The threads of a core are numbered from 0 in the order of the CPUs. -/
  threadIds : ∀ socket core, (cpus.filter (onCore socket core)).map (·.threadId) =
    List.range (cpus.countP (onCore socket core))
  nodup : (cpus.map fun d => (d.socketId, d.coreId, d.threadId)).Nodup

/-- The processor of a block has the ids that the last lines of the block give. -/
theorem describes_of_processor {block : List (List Char)} {cpu threadId : Nat} {p : Processor}
    (h : processor (block.filterMap field?) cpu = .ok p) :
    Describes block cpu
      { socketId := p.socketId, coreId := p.coreId, threadId, apicId := p.apicId } where
  socketId := gives_of_foldlM .socket h
  coreId := gives_of_foldlM .core h
  apicId := gives_of_foldlM .apic h
  nodeId := rfl
  groupId := rfl

/-- The descriptors that are read are those of the runs with a colon, thread by thread. -/
theorem lists_of_parse {text : String} {cpus : List Descriptor} (h : parse text = .ok cpus) :
    Lists (Text.lines text.toList) cpus := by
  obtain ⟨processors, hprocessors, rfl⟩ := parse_eq_ok_iff.mp h
  have hruns := Text.runs_pieces Text.isAllBlank (Text.lines text.toList)
  have hthreads := countsThreads_describe processors
  rw [blocks_eq hruns] at hprocessors
  refine ⟨⟨_, hruns, ?_, fun cpu block d hblock hd => ?_⟩, hthreads, hthreads.threadIds,
    hthreads.nodup⟩
  · rw [length_describe, ← hprocessors.length_eq, List.length_zipIdx, List.length_map]
  · obtain ⟨p, hp, rfl⟩ := getElem?_describe.mp hd
    have hprocessor := getElem?_of_forall₂ hprocessors cpu
    rw [hp, List.getElem?_zipIdx, List.getElem?_map, hblock] at hprocessor
    cases hprocessor with
    | some hprocessor => exact describes_of_processor (by simpa using hprocessor)

/-! ## Blocks of processors -/

/-- Some line of the block has the key. -/
def hasKey (key : String) (block : List (List Char)) : Bool :=
  block.any fun line => (field? line).any (·.1 == key.toList)

/-- A block has a key if one of its lines sets it. -/
theorem hasKey_iff {key : String} {block : List (List Char)} :
    hasKey key block = true ↔ ∃ line ∈ block, ∃ value, Sets line key.toList value := by
  simp only [hasKey, List.any_eq_true, Option.any_eq_true, Prod.exists, field?_eq_some_iff,
    beq_iff_eq]
  exact exists_congr fun line => and_congr_right fun _ =>
    ⟨fun ⟨_, value, hline, hkey⟩ => ⟨value, hkey ▸ hline⟩,
      fun ⟨value, hline⟩ => ⟨_, value, hline, rfl⟩⟩

/-- A block with a key has a colon in it. -/
theorem hasColon_of_hasKey {key : String} {block : List (List Char)} (h : hasKey key block = true) :
    hasColon block = true := by
  obtain ⟨line, hline, value, hsets⟩ := hasKey_iff.mp h
  refine List.any_eq_true.mpr ⟨line, hline, ?_⟩
  rw [← isSome_field?, field?_eq_some_iff.mpr hsets, Option.isSome_some]

/-- There are as many descriptors as runs with a colon. -/
theorem Lists.length_eq {lines : List (List Char)} {cpus : List Descriptor} (h : Lists lines cpus)
    {blocks : List (List (List Char))} (hblocks : Text.Runs Text.isAllBlank lines blocks) :
    cpus.length = (blocks.filter hasColon).length := by
  obtain ⟨runs, hruns, hlength, -⟩ := h.blocks
  rw [hlength, hruns.eq_pieces, hblocks.eq_pieces]

end ProcessorBlocks

/-- A text that is read has at least as many CPUs as blocks with a `processor` line. It has as many
exactly if no other block has a colon in it, since any block with a colon is a CPU. -/
theorem one_cpu_per_processor_block_iff (text : String) (cpus : List Descriptor)
    (blocks : List (List (List Char))) (hparse : ProcessorBlocks.parse text = .ok cpus)
    (hblocks : Text.Runs Text.isAllBlank (Text.lines text.toList) blocks) :
    blocks.countP (ProcessorBlocks.hasKey "processor") ≤ cpus.length ∧
      (cpus.length = blocks.countP (ProcessorBlocks.hasKey "processor") ↔
        ∀ block ∈ blocks, (∃ line ∈ block, ':' ∈ line) →
          ∃ line ∈ block, ∃ value, ProcessorBlocks.Sets line "processor".toList value) := by
  have hcount : (blocks.filter ProcessorBlocks.hasColon).countP
      (ProcessorBlocks.hasKey "processor") =
        blocks.countP (ProcessorBlocks.hasKey "processor") := by
    rw [List.countP_filter]
    refine List.countP_congr fun block _ => ?_
    rw [Bool.and_eq_true, and_iff_left_of_imp ProcessorBlocks.hasColon_of_hasKey]
  rw [(ProcessorBlocks.lists_of_parse hparse).length_eq hblocks, ← hcount]
  refine ⟨List.countP_le_length, eq_comm.trans (List.countP_eq_length.trans ?_)⟩
  simp only [List.mem_filter, and_imp, ProcessorBlocks.hasKey_iff, ProcessorBlocks.hasColon,
    List.any_eq_true, List.contains_iff_mem]

/-- The second block has no blank line after it. -/
theorem one_cpu_per_processor_block_two :
    ∃ cpus blocks, ProcessorBlocks.parse "processor: 0\n\nprocessor: 1\ncore id: 4" = .ok cpus ∧
      Text.Runs Text.isAllBlank
        (Text.lines "processor: 0\n\nprocessor: 1\ncore id: 4".toList) blocks ∧
      cpus.length = blocks.countP (ProcessorBlocks.hasKey "processor") := by
  have hlines : Text.lines "processor: 0\n\nprocessor: 1\ncore id: 4".toList =
      ["processor: 0".toList, [], "processor: 1".toList, "core id: 4".toList] := rfl
  have hparse : ProcessorBlocks.parse "processor: 0\n\nprocessor: 1\ncore id: 4" =
      .ok [{ socketId := 0, coreId := 0, threadId := 0 },
        { socketId := 0, coreId := 4, threadId := 0 }] := by
    rw [ProcessorBlocks.parse, hlines]
    decide +kernel
  have hruns := Text.runs_pieces Text.isAllBlank
    (Text.lines "processor: 0\n\nprocessor: 1\ncore id: 4".toList)
  refine ⟨_, _, hparse, hruns, (one_cpu_per_processor_block_iff _ _ _ hparse hruns).2.mpr ?_⟩
  have hkeys : ∀ block ∈ (Text.pieces Text.isAllBlank ["processor: 0".toList, [],
      "processor: 1".toList, "core id: 4".toList]).filter (!·.isEmpty),
        ProcessorBlocks.hasKey "processor" block = true := by decide +kernel
  rw [hlines]
  exact fun block hblock _ => ProcessorBlocks.hasKey_iff.mp (hkeys block hblock)

/-- What some machines say of the board after the last processor is a CPU too. -/
theorem not_one_cpu_per_processor_block :
    ∃ cpus blocks,
      ProcessorBlocks.parse "processor\t: 0\n\nHardware\t: BCM2835\n" = .ok cpus ∧
      Text.Runs Text.isAllBlank
        (Text.lines "processor\t: 0\n\nHardware\t: BCM2835\n".toList) blocks ∧
      blocks.countP (ProcessorBlocks.hasKey "processor") = 1 ∧ cpus.length = 2 := by
  have hlines : Text.lines "processor\t: 0\n\nHardware\t: BCM2835\n".toList =
      ["processor\t: 0".toList, [], "Hardware\t: BCM2835".toList] := rfl
  have hparse : ProcessorBlocks.parse "processor\t: 0\n\nHardware\t: BCM2835\n" =
      .ok [{ socketId := 0, coreId := 0, threadId := 0 },
        { socketId := 0, coreId := 1, threadId := 0 }] := by
    rw [ProcessorBlocks.parse, hlines]
    decide +kernel
  refine ⟨_, _, hparse, Text.runs_pieces _ _, ?_, rfl⟩
  rw [hlines]
  decide +kernel

end CpuPlacement
