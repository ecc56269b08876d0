import CpuPlacement.Proofs.Text.Lines
import CpuPlacement.Source.ProcessorBlocks

/-!
# Processor blocks line by line

Processor blocks are read line by line, with the CPU of the open block and the counters of the cores
as state. Here what comes of it is said without that state (`parse_eq`): each run of lines that has
a colon in it is folded field by field into a processor, and threads are counted among the
processors of one core that come before.

Between two blocks the state is that of the processors so far (`Progress.Closed`). Closing a CPU
makes it that of one processor more (`Progress.Closed.finish`), within a block the lines are folded
into the CPU that is being read (`Progress.foldlM_read_of_some`), and so a whole text is read run by
run (`Progress.foldlM_read`).
-/

set_option autoImplicit false

namespace CpuPlacement.ProcessorBlocks

/-! ## Blocks -/

/-- The lines that say something are those with a colon. -/
theorem isSome_field? (line : List Char) : (field? line).isSome = line.contains ':' := by
  rw [field?, Option.isSome_map, Text.isSome_cut]

/-- The fields of every block that has any. -/
def blocks (text : List Char) : List (List (List Char × List Char)) :=
  ((Text.pieces Text.isAllBlank (Text.lines text)).map (·.filterMap field?)).filter (!·.isEmpty)

/-- The processor of the block at a position. -/
def processor (block : List (List Char × List Char)) (position : Nat) :
    Except SourceFault Processor :=
  block.foldlM Processor.set ⟨0, position, none⟩

/-- The block has a line with a colon. -/
def hasColon (block : List (List Char)) : Bool :=
  block.any (·.contains ':')

/-- Only a block without a colon has no field. -/
theorem isEmpty_filterMap_field? (block : List (List Char)) :
    (block.filterMap field?).isEmpty = !hasColon block := by
  rw [Bool.eq_iff_iff, List.isEmpty_iff, List.filterMap_eq_nil_iff, hasColon, Bool.not_eq_true',
    List.any_eq_false]
  simp only [← isSome_field?, Option.isSome_iff_ne_none, ne_eq, not_not]

/-- The blocks are the runs of lines with a colon in them. -/
theorem blocks_eq {text : List Char} {runs : List (List (List Char))}
    (h : Text.Runs Text.isAllBlank (Text.lines text) runs) :
    blocks text = (runs.filter hasColon).map (·.filterMap field?) := by
  rw [blocks, List.filter_map, h.eq_pieces, List.filter_filter]
  congr 1
  refine List.filter_congr fun piece _ => ?_
  rw [Function.comp_apply, isEmpty_filterMap_field?, Bool.not_not]
  cases piece with
  | nil => rfl
  | cons line piece => rw [List.isEmpty_cons, Bool.not_false, Bool.and_true]

/-! ## Threads of processors -/

/-- The descriptors of the processors: each is the next thread of its core. -/
def describe (processors : List Processor) : List Descriptor :=
  processors.zipIdx.map fun (p, position) =>
    p.thread ((processors.take position).countP fun earlier =>
      earlier.socketId == p.socketId && earlier.coreId == p.coreId)

/-- A descriptor is that of the processor at its place, with the threads before it counted. -/
theorem getElem?_describe {processors : List Processor} {cpu : Nat} {d : Descriptor} :
    (describe processors)[cpu]? = some d ↔ ∃ p, processors[cpu]? = some p ∧
      p.thread ((processors.take cpu).countP fun earlier =>
        earlier.socketId == p.socketId && earlier.coreId == p.coreId) = d := by
  rw [describe, List.getElem?_map, List.getElem?_zipIdx]
  cases processors[cpu]? <;> simp

theorem length_describe (processors : List Processor) :
    (describe processors).length = processors.length := by
  rw [describe, List.length_map, List.length_zipIdx]

/-- One processor more leaves the threads of those before it as they are. -/
theorem describe_concat (processors : List Processor) (p : Processor) :
    describe (processors ++ [p]) = describe processors ++
      [p.thread (processors.countP fun earlier =>
        earlier.socketId == p.socketId && earlier.coreId == p.coreId)] := by
  rw [describe, List.zipIdx_append, List.map_append, describe]
  congr 1
  · -- threads are counted among the processors before, and these are the same
    refine List.map_congr_left fun (q, position) hq => ?_
    have hlt : position < processors.length :=
      (List.getElem?_eq_some_iff.mp (List.mem_zipIdx_iff_getElem?.mp hq)).1
    simp only [List.take_append_of_le_length hlt.le]
  · simp only [List.zipIdx_singleton, List.map_singleton, Nat.zero_add, List.take_left]

/-! ## Line by line -/

namespace Progress

variable {s : Progress} {processors : List Processor} {lines : List (List Char)}

/-- The CPUs that are closed are those of the processors, and the counters say how many of these are
on each core. -/
structure Closed (s : Progress) (processors : List Processor) : Prop where
  cpus : s.cpus = describe processors
  count : ∀ core, s.count core = processors.countP fun p => (p.socketId, p.coreId) == core

theorem closed_start : start.Closed [] :=
  ⟨rfl, fun _ => rfl⟩

theorem finish_of_none (h : s.current = none) : s.finish = s := by
  rw [finish, h]

/-- The CPU that is being read goes behind the others, and the counter of its core goes up. -/
theorem finish_of_some {p : Processor} (h : s.current = some p) :
    s.finish =
      { cpus := s.cpus ++ [p.thread (s.count (p.socketId, p.coreId))]
        counts := ((p.socketId, p.coreId), s.count (p.socketId, p.coreId) + 1) :: s.counts
        current := none } := by
  rw [finish, h]

/-- Afterwards no CPU is being read. -/
theorem current_finish (s : Progress) : s.finish.current = none := by
  rw [finish]
  split
  · assumption
  · rfl

/-- What is closed twice is closed once. -/
theorem finish_finish (s : Progress) : s.finish.finish = s.finish :=
  finish_of_none s.current_finish

theorem Closed.reading (h : s.Closed processors) (p : Processor) :
    { s with current := some p }.Closed processors :=
  ⟨h.cpus, h.count⟩

/-- Closing a CPU is one processor more: the counter of its core says which thread it is, and is the
only one to change. -/
theorem Closed.finish {p : Processor} (h : s.Closed processors) (hp : s.current = some p) :
    s.finish.Closed (processors ++ [p]) := by
  rw [finish_of_some hp]
  constructor
  · rw [describe_concat, ← h.cpus, h.count]
    rfl
  · intro core
    rw [Progress.count, List.lookup_cons, List.countP_append, List.countP_singleton, ← h.count]
    by_cases hcore : (p.socketId, p.coreId) = core
    · subst hcore
      simp
    · have hne : (core == (p.socketId, p.coreId)) = false := beq_false_of_ne (Ne.symm hcore)
      have hne' : ((p.socketId, p.coreId) == core) = false := beq_false_of_ne hcore
      simp [hne, hne', Progress.count]

/-- A blank line closes the CPU that is being read. -/
theorem read_of_isAllBlank {line : List Char} (h : Text.isAllBlank line = true) :
    s.read line = .ok s.finish := by
  rw [read, if_pos h]
  rfl

/-- Any other line sets its field if it has one, in the CPU that is being read or in a new one. -/
theorem read_of_field? {line : List Char} (h : Text.isAllBlank line = false) :
    s.read line = match field? line with
      | none => .ok s
      | some field => do
        let p ← (s.current.getD ⟨0, s.cpus.length, none⟩).set field
        return { s with current := some p } := by
  rw [read, if_neg (Bool.eq_false_iff.mp h)]
  rfl

/-- Within a block the lines are folded into the CPU that is being read. -/
theorem foldlM_read_of_some {p : Processor} (hlines : ∀ line ∈ lines, Text.isAllBlank line = false)
    (hp : s.current = some p) :
    lines.foldlM read s = do
      let q ← (lines.filterMap field?).foldlM Processor.set p
      return { s with current := some q } := by
  induction lines generalizing s p with
  | nil =>
    rw [List.filterMap_nil, List.foldlM_nil, List.foldlM_nil, pure_bind, ← hp]
  | cons line lines ih =>
    obtain ⟨hline, hrest⟩ := List.forall_mem_cons.mp hlines
    rw [List.foldlM_cons, read_of_field? hline]
    cases hfield : field? line with
    | none =>
      rw [List.filterMap_cons_none hfield, ← ih hrest hp]
      rfl
    | some field =>
      simp only [List.filterMap_cons_some hfield, List.foldlM_cons, hp, Option.getD_some,
        bind_assoc, pure_bind]
      exact bind_congr fun q => ih hrest rfl

/-- A block without a colon says nothing, and any other starts the CPU at the next position. -/
theorem foldlM_read_of_none (hlines : ∀ line ∈ lines, Text.isAllBlank line = false)
    (hnone : s.current = none) :
    lines.foldlM read s =
      if hasColon lines then do
        let q ← processor (lines.filterMap field?) s.cpus.length
        return { s with current := some q }
      else .ok s := by
  induction lines with
  | nil => rfl
  | cons line lines ih =>
    obtain ⟨hline, hrest⟩ := List.forall_mem_cons.mp hlines
    rw [List.foldlM_cons, read_of_field? hline, hasColon, List.any_cons, ← isSome_field?]
    cases hfield : field? line with
    | none =>
      rw [List.filterMap_cons_none hfield, Option.isSome_none, Bool.false_or]
      exact ih hrest
    | some field =>
      rw [Option.isSome_some, Bool.true_or, if_pos rfl, List.filterMap_cons_some hfield]
      simp only [processor, List.foldlM_cons, hnone, Option.getD_none, bind_assoc, pure_bind]
      exact bind_congr fun q => foldlM_read_of_some hrest rfl

/-- Where a block ends, its CPU may as well be closed at once. -/
theorem foldlM_read_finish (hend : ∀ line ∈ lines.head?, Text.isAllBlank line = true) :
    (do let t ← lines.foldlM read s; return t.finish.cpus : Except SourceFault _) =
      do let t ← lines.foldlM read s.finish; return t.finish.cpus := by
  cases lines with
  | nil => rw [List.foldlM_nil, List.foldlM_nil, pure_bind, pure_bind, finish_finish]
  | cons line lines =>
    have hline : Text.isAllBlank line = true := hend line rfl
    rw [List.foldlM_cons, List.foldlM_cons, read_of_isAllBlank hline, read_of_isAllBlank hline,
      finish_finish]

/-- The lines of a text make a processor of each block with a colon, numbered from what is closed
already. -/
theorem foldlM_read {runs : List (List (List Char))}
    (hruns : Text.Runs Text.isAllBlank lines runs) (hs : s.Closed processors)
    (hnone : s.current = none) :
    (do let t ← lines.foldlM read s; return t.finish.cpus : Except SourceFault _) = do
      let rest ← (((runs.filter hasColon).map (·.filterMap field?)).zipIdx processors.length).mapM
        fun (block, position) => processor block position
      return describe (processors ++ rest) := by
  -- induction on the runs; before each of them no CPU is being read
  induction hruns generalizing s processors with
  | nil =>
    simp only [List.foldlM_nil, List.filter_nil, List.map_nil, List.zipIdx_nil, List.mapM_nil,
      pure_bind, List.append_nil, finish_of_none hnone, hs.cpus]
  | separator hline _ ih =>
    rw [List.foldlM_cons, read_of_isAllBlank hline, finish_of_none hnone]
    exact ih hs hnone
  | @run run rest runs _ hinside hend _ ih =>
    rw [List.foldlM_append, foldlM_read_of_none hinside hnone]
    cases hcolon : hasColon run with
    | false =>
      rw [List.filter_cons_of_neg (Bool.eq_false_iff.mp hcolon)]
      exact ih hs hnone
    | true =>
      have hlength : s.cpus.length = processors.length := by rw [hs.cpus, length_describe]
      rw [List.filter_cons_of_pos hcolon, List.map_cons, List.zipIdx_cons, List.mapM_cons, hlength]
      simp only [if_true, bind_assoc, pure_bind]
      refine bind_congr fun p => ?_
      rw [foldlM_read_finish hend, ih ((hs.reading p).finish rfl) (current_finish _)]
      simp only [List.length_append, List.length_singleton, List.append_assoc,
        List.singleton_append]

end Progress

/-- A text is read block by block. -/
theorem parse_eq (text : String) :
    parse text = do
      let processors ← (blocks text.toList).zipIdx.mapM fun (block, position) =>
        processor block position
      return describe processors := by
  have hruns := Text.runs_pieces Text.isAllBlank (Text.lines text.toList)
  have hread := Progress.foldlM_read hruns Progress.closed_start rfl
  rw [parse, blocks_eq hruns, hread]
  rfl

end CpuPlacement.ProcessorBlocks
