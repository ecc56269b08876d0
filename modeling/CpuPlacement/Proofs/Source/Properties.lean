import CpuPlacement.Proofs.Text.Lines
import CpuPlacement.Proofs.Text.Numeral
import CpuPlacement.Proofs.Traversal
import CpuPlacement.Source.Properties
import Mathlib.Data.List.Perm.Subperm
import Mathlib.Order.Bounds.Basic

/-!
# What is read of property files

A property file is read if each of its lines says nothing or defines a CPU (`WellFormed`). The
grammar of a line is an inductive type (`Defines`), which an entry is read by exactly
(`entry_eq_ok_iff`), so that the rest is about what lines define: the CPUs that are listed are those
below the first one that no line defines, and the last line for a CPU counts (`lists_of_parse`).

In lines that were written for a list of descriptors, with other lines between, every CPU below the
number of descriptors is defined by one line only and the next one by none (`Interleaves`). So the
file reads back as the list, whatever the order of its lines is.
-/

set_option autoImplicit false

namespace CpuPlacement

namespace Properties

open Numeral (Padded wordLimit idLimit)

/-! ## Lines -/

/-- A line `cpu=socket,core,thread`, with or without blanks around each number. -/
inductive Defines : List Char → Nat → Descriptor → Prop where
  | line {index socket core thread : List Char} {cpu socketId coreId threadId : Nat}
    (hindex : Padded wordLimit index cpu) (hsocket : Padded idLimit socket socketId)
    (hcore : Padded idLimit core coreId) (hthread : Padded idLimit thread threadId) :
    Defines (index ++ '=' :: (socket ++ ',' :: (core ++ ',' :: thread))) cpu
      { socketId, coreId, threadId }

/-- An entry that is read is one that the line defines. -/
theorem defines_of_entry {line : List Char} {cpu : Nat} {d : Descriptor}
    (h : entry line = .ok (cpu, d)) : Defines line cpu d := by
  have hlimit : 0 < idLimit := by decide
  rw [entry] at h
  split at h
  · next index ids hcut =>
    obtain ⟨rfl, -⟩ := Text.cut_eq_some_iff.mp hcut
    obtain ⟨i, hindex, h⟩ := bind_eq_ok_iff.mp h
    obtain ⟨numbers, hnumbers, h⟩ := bind_eq_ok_iff.mp h
    split at h
    · next s c t =>
      cases h
      rw [mapError_eq_ok_iff, Numeral.read_trim_eq_ok_iff (by decide)] at hindex
      simp only [mapError_eq_ok_iff, mapM_eq_ok_iff, Numeral.read_trim_eq_ok_iff hlimit]
        at hnumbers
      generalize hparts : Text.parts ',' ids = parts at hnumbers
      obtain _ | ⟨hsocket, _ | ⟨hcore, _ | ⟨hthread, _ | _⟩⟩⟩ := hnumbers
      rw [Text.eq_of_parts_three hparts]
      exact .line hindex hsocket hcore hthread
    · cases h
  · cases h

/-- What a line defines is read. -/
theorem Defines.entry_eq {line : List Char} {cpu : Nat} {d : Descriptor} (h : Defines line cpu d) :
    entry line = .ok (cpu, d) := by
  obtain ⟨hindex, hsocket, hcore, hthread⟩ := h
  have hcut := Text.cut_append (hindex.not_mem (c := '=') (by decide) (by decide) (by decide))
  have hcomma {text : List Char} {n : Nat} (h : Padded idLimit text n) : ',' ∉ text :=
    h.not_mem (by decide) (by decide) (by decide)
  have hread {text : List Char} {n : Nat} (h : Padded idLimit text n) :
      Numeral.read idLimit (Text.trim text) = .ok n :=
    (Numeral.read_trim_eq_ok_iff (by decide)).mpr h
  rw [entry, hcut]
  refine bind_eq_ok_iff.mpr ⟨cpu, mapError_eq_ok_iff.mpr ?_, ?_⟩
  · exact (Numeral.read_trim_eq_ok_iff (by decide)).mpr hindex
  · refine bind_eq_ok_iff.mpr ⟨[_, _, _], mapError_eq_ok_iff.mpr (mapM_eq_ok_iff.mpr ?_), rfl⟩
    rw [Text.parts_three (hcomma hsocket) (hcomma hcore) (hcomma hthread)]
    exact .cons (hread hsocket) (.cons (hread hcore) (.cons (hread hthread) .nil))

theorem entry_eq_ok_iff {line : List Char} {cpu : Nat} {d : Descriptor} :
    entry line = .ok (cpu, d) ↔ Defines line cpu d :=
  ⟨defines_of_entry, Defines.entry_eq⟩

/-- A line defines one CPU at most. -/
theorem Defines.unique {line : List Char} {cpu cpu' : Nat} {d d' : Descriptor}
    (h : Defines line cpu d) (h' : Defines line cpu' d') : cpu = cpu' ∧ d = d' := by
  cases h.entry_eq.symm.trans h'.entry_eq
  exact ⟨rfl, rfl⟩

/-- The line says nothing: apart from blanks it is empty or a comment. -/
def Silent (line : List Char) : Prop :=
  Text.trim line = [] ∨ (Text.trim line).head? = some '#'

theorem isSilent_trim_iff {line : List Char} : isSilent (Text.trim line) = true ↔ Silent line := by
  rw [Silent]
  cases Text.trim line <;> simp [isSilent]

/-- A line that defines a CPU says something. -/
theorem Defines.not_silent {line : List Char} {cpu : Nat} {d : Descriptor}
    (h : Defines (Text.trim line) cpu d) : ¬ Silent line := by
  generalize hline : Text.trim line = trimmed at h
  cases h with
  | @line index _ _ _ _ _ _ _ hindex =>
    have hhash : '#' ∉ index := hindex.not_mem (by decide) (by decide) (by decide)
    rw [Silent, hline]
    cases index with
    | nil => simp
    | cons c index => simpa [eq_comm] using List.ne_of_not_mem_cons hhash

/-- The line says nothing or defines a CPU. -/
def WellFormed (line : List Char) : Prop :=
  Silent line ∨ ∃ cpu d, Defines (Text.trim line) cpu d

/-! ## The entries of a text -/

/-- The entry of a line. -/
def definition? (line : List Char) : Option (Nat × Descriptor) :=
  if isSilent (Text.trim line) then none else (entry (Text.trim line)).toOption

/-- A definition is found just where the line defines a CPU. -/
theorem definition?_eq_some_iff {line : List Char} {cpu : Nat} {d : Descriptor} :
    definition? line = some (cpu, d) ↔ Defines (Text.trim line) cpu d := by
  have htoOption : (entry (Text.trim line)).toOption = some (cpu, d) ↔
      Defines (Text.trim line) cpu d := by
    rw [← entry_eq_ok_iff]
    cases entry (Text.trim line) <;> simp [Except.toOption]
  rw [definition?]
  by_cases hsilent : isSilent (Text.trim line) = true
  · rw [if_pos hsilent]
    exact iff_of_false (Option.some_ne_none _).symm fun h =>
      h.not_silent (isSilent_trim_iff.mp hsilent)
  · rw [if_neg hsilent, htoOption]

theorem mem_filterMap_definition?_iff {lines : List (List Char)} {cpu : Nat} {d : Descriptor} :
    (cpu, d) ∈ lines.filterMap definition? ↔ ∃ line ∈ lines, Defines (Text.trim line) cpu d := by
  simp only [List.mem_filterMap, definition?_eq_some_iff]

/-- The entries are read if no line is malformed, and they are the definitions in order. -/
theorem entries_eq_ok_iff {text : List Char} {es : List (Nat × Descriptor)} :
    entries text = .ok es ↔ (∀ line ∈ Text.lines text, WellFormed line) ∧
      (Text.lines text).filterMap definition? = es := by
  rw [entries, mapM_eq_ok_iff_filterMap, List.filterMap_filter, List.filterMap_map]
  refine and_congr ?_ (Eq.congr_left (List.filterMap_congr fun line _ => ?_))
  · simp only [List.mem_filter, List.mem_map, Bool.not_eq_true', and_imp, forall_exists_index,
      forall_apply_eq_imp_iff₂]
    refine forall₂_congr fun line _ => ?_
    rw [WellFormed, ← isSilent_trim_iff, Prod.exists, ← Bool.not_eq_true, ← or_iff_not_imp_left]
    simp only [entry_eq_ok_iff]
  · simp only [Function.comp_apply, definition?]
    cases isSilent (Text.trim line) <;> simp

/-! ## The CPUs of the entries -/

section Entries

variable {es : List (Nat × Descriptor)} {cpu : Nat} {d : Descriptor}

/-- A CPU is looked up in vain if no entry is about it. -/
theorem lookup_reverse_eq_none_iff : es.reverse.lookup cpu = none ↔ ∀ d, (cpu, d) ∉ es := by
  rw [List.lookup_eq_none_iff]
  constructor
  · intro h d hmem
    exact absurd (h _ (List.mem_reverse.mpr hmem)) (by simp)
  · rintro h ⟨other, d⟩ hmem
    refine bne_iff_ne.mpr ?_
    rintro rfl
    exact h d (List.mem_reverse.mp hmem)

/-- The last entry counts. -/
theorem lookup_reverse_eq_some_iff : es.reverse.lookup cpu = some d ↔
    ∃ before after, es = before ++ (cpu, d) :: after ∧ ∀ d', (cpu, d') ∉ after := by
  rw [List.lookup_eq_some_iff]
  constructor
  · rintro ⟨later, earlier, hes, hlater⟩
    refine ⟨earlier.reverse, later.reverse, ?_, fun d' hd' => ?_⟩
    · simpa using congrArg List.reverse hes
    · exact absurd (hlater _ (List.mem_reverse.mp hd')) (by simp)
  · rintro ⟨before, after, rfl, hafter⟩
    refine ⟨after.reverse, before.reverse, by simp, ?_⟩
    rintro ⟨other, d'⟩ hmem
    refine bne_iff_ne.mpr ?_
    rintro rfl
    exact hafter d' (List.mem_reverse.mp hmem)

/-- There are not more CPUs with an entry from 0 on than entries. -/
theorem lookup_length_eq_none (h : ∀ cpu < es.length, (es.reverse.lookup cpu).isSome) :
    es.reverse.lookup es.length = none := by
  have hsub : List.range es.length ⊆ es.map Prod.fst := by
    intro cpu hcpu
    obtain ⟨d, hd⟩ := Option.isSome_iff_exists.mp (h cpu (List.mem_range.mp hcpu))
    obtain ⟨before, after, hes, -⟩ := lookup_reverse_eq_some_iff.mp hd
    exact List.mem_map.mpr ⟨(cpu, d), hes ▸ List.mem_append_right _ List.mem_cons_self, rfl⟩
  have hperm : (List.range es.length).Perm (es.map Prod.fst) :=
    (List.subperm_of_subset List.nodup_range hsub).perm_of_length_le (by simp)
  refine lookup_reverse_eq_none_iff.mpr fun d hmem => ?_
  have hlast : es.length ∈ List.range es.length :=
    hperm.mem_iff.mpr (List.mem_map_of_mem (f := Prod.fst) hmem)
  exact absurd (List.mem_range.mp hlast) (Nat.lt_irrefl _)

/-- The CPUs are collected up to the first one that is not there. -/
theorem map_some_collect (es : List (Nat × Descriptor)) :
    (collect es).map some =
      ((List.range es.length).map (es.reverse.lookup ·)).takeWhile (·.isSome) :=
  map_some_filterMap_id fun _ => List.mem_takeWhile_imp

/-- The list ends before the first CPU that has no entry. -/
theorem exists_collect (es : List (Nat × Descriptor)) : ∃ count,
    (collect es).map some = (List.range count).map (es.reverse.lookup ·) ∧
      es.reverse.lookup count = none := by
  have hlookups := List.takeWhile_append_dropWhile (p := (·.isSome))
    (l := (List.range es.length).map (es.reverse.lookup ·))
  obtain ⟨found, rest, hrange, hfound, hrest⟩ := List.map_eq_append_iff.mp hlookups.symm
  rw [List.range_eq_range'] at hrange
  obtain ⟨count, hcount, rfl, rfl⟩ := List.range'_eq_append_iff.mp hrange
  rw [← map_some_collect, ← List.range_eq_range'] at hfound
  refine ⟨count, hfound.symm, ?_⟩
  -- either some CPU in the range has no entry, or the range was too short to find one
  obtain hlt | rfl := Nat.lt_or_eq_of_le hcount
  · have hhead := List.head?_dropWhile_not (·.isSome)
      ((List.range es.length).map (es.reverse.lookup ·))
    obtain ⟨more, hmore⟩ : ∃ more, es.length - count = more + 1 :=
      ⟨es.length - count - 1, by omega⟩
    rw [← hrest, hmore, List.range'_succ, List.map_cons, List.head?_cons] at hhead
    simpa using hhead
  · refine lookup_length_eq_none fun cpu hcpu => ?_
    have hmem : es.reverse.lookup cpu ∈ (collect es).map some := by
      rw [← hfound]
      exact List.mem_map_of_mem (f := (es.reverse.lookup ·)) (List.mem_range.mpr hcpu)
    obtain ⟨d, -, hd⟩ := List.mem_map.mp hmem
    rw [← hd, Option.isSome_some]

/-- Of a CPU that is collected the last entry counts. -/
theorem getElem?_collect (hcpu : cpu < (collect es).length) :
    (collect es)[cpu]? = es.reverse.lookup cpu := by
  obtain ⟨count, hcollect, -⟩ := exists_collect es
  have hat := congrArg (·[cpu]?) hcollect
  have hcount : (collect es).length = count := by simpa using congrArg List.length hcollect
  simpa [hcpu, hcount ▸ hcpu] using hat

/-- The number of CPUs is the first one that has no entry. -/
theorem isLeast_length_collect (es : List (Nat × Descriptor)) :
    IsLeast {cpu | es.reverse.lookup cpu = none} (collect es).length := by
  obtain ⟨count, hcollect, hnone⟩ := exists_collect es
  have hcount : (collect es).length = count := by simpa using congrArg List.length hcollect
  refine ⟨hcount ▸ hnone, fun cpu hcpu => ?_⟩
  by_contra hlt
  have hlisted := getElem?_collect (Nat.lt_of_not_le hlt)
  rw [show es.reverse.lookup cpu = none from hcpu, List.getElem?_eq_none_iff] at hlisted
  exact hlt hlisted

end Entries

/-! ## What is read -/

/-- Of the lines that define the CPU the last one gives it this descriptor. -/
def LastDefines (lines : List (List Char)) (cpu : Nat) (d : Descriptor) : Prop :=
  ∃ before line after, lines = before ++ line :: after ∧ Defines (Text.trim line) cpu d ∧
    ∀ other ∈ after, ∀ d', ¬ Defines (Text.trim other) cpu d'

/-- No line defines the CPU. -/
def Undefined (lines : List (List Char)) (cpu : Nat) : Prop :=
  ∀ line ∈ lines, ∀ d, ¬ Defines (Text.trim line) cpu d

/-- The CPUs are those from 0 on until the first that no line defines. -/
structure Lists (lines : List (List Char)) (cpus : List Descriptor) : Prop where
  isLeast_length : IsLeast {cpu | Undefined lines cpu} cpus.length
  last : ∀ cpu d, cpus[cpu]? = some d → LastDefines lines cpu d

/-- A CPU without an entry is one that no line defines. -/
theorem undefined_iff {lines : List (List Char)} {cpu : Nat} :
    (lines.filterMap definition?).reverse.lookup cpu = none ↔ Undefined lines cpu := by
  simp only [lookup_reverse_eq_none_iff, mem_filterMap_definition?_iff, Undefined, not_exists,
    not_and]
  exact forall_comm.trans (forall_congr' fun line => forall_comm)

/-- What is looked up is what the last line about the CPU defines. -/
theorem lastDefines_of_lookup {lines : List (List Char)} {cpu : Nat} {d : Descriptor}
    (h : (lines.filterMap definition?).reverse.lookup cpu = some d) : LastDefines lines cpu d := by
  obtain ⟨before, after, hentries, hafter⟩ := lookup_reverse_eq_some_iff.mp h
  obtain ⟨earlier, rest, rfl, -, hrest⟩ := List.filterMap_eq_append_iff.mp hentries
  obtain ⟨silent, line, later, rfl, -, hline, rfl⟩ := List.filterMap_eq_cons_iff.mp hrest
  refine ⟨earlier ++ silent, line, later, by simp, definition?_eq_some_iff.mp hline, ?_⟩
  exact fun other hother d' hdefines =>
    hafter d' (mem_filterMap_definition?_iff.mpr ⟨other, hother, hdefines⟩)

/-- A text is read if no line is malformed, and then as what its definitions collect. -/
theorem parse_eq_ok_iff {text : String} {cpus : List Descriptor} :
    parse text = .ok cpus ↔ (∀ line ∈ Text.lines text.toList, WellFormed line) ∧
      collect ((Text.lines text.toList).filterMap definition?) = cpus := by
  have hparse : parse text = .ok cpus ↔ ∃ es, entries text.toList = .ok es ∧ collect es = cpus := by
    rw [parse]
    cases entries text.toList <;> simp [Except.map]
  simp only [hparse, entries_eq_ok_iff]
  constructor
  · rintro ⟨_, ⟨hwell, rfl⟩, hcollect⟩
    exact ⟨hwell, hcollect⟩
  · rintro ⟨hwell, hcollect⟩
    exact ⟨_, ⟨hwell, rfl⟩, hcollect⟩

/-- A text is refused exactly if one of its lines is malformed. -/
theorem exists_parse_eq_error_iff {text : String} :
    (∃ fault, parse text = .error fault) ↔
      ∃ line ∈ Text.lines text.toList, ¬ WellFormed line := by
  rw [exists_error_iff]
  simp only [parse_eq_ok_iff, exists_and_left, exists_eq', and_true]
  push Not
  rfl

/-- The descriptors that are read are those of the last definitions, up to the first gap. -/
theorem lists_of_parse {text : String} {cpus : List Descriptor} (h : parse text = .ok cpus) :
    Lists (Text.lines text.toList) cpus := by
  obtain ⟨-, rfl⟩ := parse_eq_ok_iff.mp h
  refine ⟨?_, fun cpu d hd => ?_⟩
  · simpa only [undefined_iff] using
      isLeast_length_collect ((Text.lines text.toList).filterMap definition?)
  · have hlt := (List.getElem?_eq_some_iff.mp hd).1
    exact lastDefines_of_lookup ((getElem?_collect hlt).symm.trans hd)

/-! ## Written lines -/

/-- The line of a CPU. -/
def line (cpu : Nat) (d : Descriptor) : String :=
  s!"{cpu}={d.socketId},{d.coreId},{d.threadId}"

/-- The descriptor has ids only, and they fit. -/
structure Plain (d : Descriptor) : Prop where
  socketId_lt : d.socketId < idLimit
  coreId_lt : d.coreId < idLimit
  threadId_lt : d.threadId < idLimit
  groupId : d.groupId = none
  nodeId : d.nodeId = none
  apicId : d.apicId = none

/-- A line is the CPU and its three ids with the signs between them. -/
theorem toList_line (cpu : Nat) (d : Descriptor) :
    (line cpu d).toList = (toString cpu).toList ++ '=' :: ((toString d.socketId).toList ++ ',' ::
      ((toString d.coreId).toList ++ ',' :: (toString d.threadId).toList)) := by
  simp only [line, String.toList_append, List.append_assoc]
  rfl

/-- The line of a CPU has no blanks. -/
theorem not_isBlank_of_mem_line {cpu : Nat} {d : Descriptor} {c : Char}
    (hc : c ∈ (line cpu d).toList) : Text.isBlank c = false := by
  have hdigit {n : Nat} (hc : c ∈ (toString n).toList) : Text.isBlank c = false :=
    Text.not_isBlank_of_isDigit (Numeral.isDigit_of_mem_toString hc)
  rw [toList_line] at hc
  simp only [List.mem_append, List.mem_cons] at hc
  obtain hc | rfl | hc | rfl | hc | rfl | hc := hc
  · exact hdigit hc
  · decide
  · exact hdigit hc
  · decide
  · exact hdigit hc
  · decide
  · exact hdigit hc

/-- A line that is written for a CPU defines it. -/
theorem defines_line {cpu : Nat} {d : Descriptor} (hcpu : cpu < wordLimit) (hd : Plain d) :
    Defines (Text.trim (line cpu d).toList) cpu d := by
  rw [Text.trim_eq_self fun c => not_isBlank_of_mem_line, toList_line]
  obtain ⟨socketId, coreId, threadId, groupId, nodeId, apicId⟩ := d
  obtain ⟨hsocket, hcore, hthread, rfl, rfl, rfl⟩ := hd
  exact .line (Numeral.padded_toString hcpu) (Numeral.padded_toString hsocket)
    (Numeral.padded_toString hcore) (Numeral.padded_toString hthread)

/-! ## Reading back -/

/-- The lines are one for each CPU and some others, in any order. -/
structure Interleaves (lines : List String) (cpus : List Descriptor) (others : List String) :
    Prop where
  plain : ∀ d ∈ cpus, Plain d
  length_le : cpus.length ≤ wordLimit
  perm : lines.Perm (cpus.zipIdx.map (fun (d, cpu) => line cpu d) ++ others)
  /-- What other lines define is above the number of CPUs. -/
  others : ∀ other ∈ others, '\n' ∉ other.toList ∧
    (Silent other.toList ∨ ∃ cpu d, cpus.length < cpu ∧ Defines (Text.trim other.toList) cpu d)

namespace Interleaves

variable {lines others : List String} {cpus : List Descriptor} {text : String} {cpu : Nat}
  {d : Descriptor}

/-- The lines are those of the CPUs and the others. -/
theorem mem_iff (h : Interleaves lines cpus others) :
    text ∈ lines ↔ (∃ cpu d, cpus[cpu]? = some d ∧ line cpu d = text) ∨ text ∈ others := by
  rw [h.perm.mem_iff, List.mem_append, List.mem_map]
  simp only [Prod.exists, List.mem_zipIdx_iff_getElem?]
  exact or_congr_left exists_comm

/-- The line of a CPU defines the CPU. -/
theorem defines (h : Interleaves lines cpus others) (hd : cpus[cpu]? = some d) :
    Defines (Text.trim (line cpu d).toList) cpu d :=
  defines_line (Nat.lt_of_lt_of_le (List.getElem?_eq_some_iff.mp hd).1 h.length_le)
    (h.plain d (List.mem_of_getElem? hd))

/-- None of the lines is malformed. -/
theorem wellFormed (h : Interleaves lines cpus others) (ht : text ∈ lines) :
    WellFormed text.toList := by
  obtain ⟨cpu, d, hd, rfl⟩ | hother := h.mem_iff.mp ht
  · exact .inr ⟨cpu, d, h.defines hd⟩
  · exact (h.others text hother).2.imp_right fun ⟨cpu, d, _, hdefines⟩ => ⟨cpu, d, hdefines⟩

/-- None of the lines has a line feed in it. -/
theorem not_mem_newline (h : Interleaves lines cpus others) (ht : text ∈ lines) :
    '\n' ∉ text.toList := by
  obtain ⟨cpu, d, hd, rfl⟩ | hother := h.mem_iff.mp ht
  · exact fun hnewline => absurd (not_isBlank_of_mem_line hnewline) (by decide)
  · exact (h.others text hother).1

/-- What the lines define up to the number of descriptors. -/
theorem defined_iff (h : Interleaves lines cpus others) (hcpu : cpu ≤ cpus.length) :
    (∃ text ∈ lines, Defines (Text.trim text.toList) cpu d) ↔ cpus[cpu]? = some d := by
  constructor
  · rintro ⟨text, ht, hdefines⟩
    obtain ⟨cpu', d', hd', rfl⟩ | hother := h.mem_iff.mp ht
    · obtain ⟨rfl, rfl⟩ := (h.defines hd').unique hdefines
      exact hd'
    · obtain hsilent | ⟨cpu', d', habove, hdefines'⟩ := (h.others text hother).2
      · exact absurd hsilent hdefines.not_silent
      · obtain ⟨rfl, -⟩ := hdefines'.unique hdefines
        omega
  · intro hd
    exact ⟨line cpu d, h.mem_iff.mpr (.inl ⟨cpu, d, hd, rfl⟩), h.defines hd⟩

/-! The lines of the joined text are the lines that were joined, apart from blanks and blank lines.
What a line says does not depend on these. -/

/-- Apart from blanks the lines of the joined text are the lines that were joined. -/
theorem trim_eq_iff (h : Interleaves lines cpus others) {trimmed : List Char}
    (hsome : trimmed ≠ []) :
    (∃ given ∈ Text.lines ("\n".intercalate lines).toList, Text.trim given = trimmed) ↔
      ∃ text ∈ lines, Text.trim text.toList = trimmed := by
  have hnewline : ∀ given ∈ lines.map String.toList, '\n' ∉ given :=
    List.forall_mem_map.mpr fun text ht => h.not_mem_newline ht
  have hlines := congrArg (trimmed ∈ ·) (Text.trim_lines_intercalate hnewline)
  simp only [List.mem_filter, List.mem_map, Bool.not_eq_true', List.isEmpty_eq_false_iff, hsome,
    ne_eq, not_false_eq_true, and_true, exists_exists_and_eq_and] at hlines
  rw [String.toList_intercalate]
  exact iff_of_eq hlines

/-- None of the lines of the joined text is malformed. -/
theorem lines_wellFormed (h : Interleaves lines cpus others) {given : List Char}
    (hgiven : given ∈ Text.lines ("\n".intercalate lines).toList) : WellFormed given := by
  by_cases hnil : Text.trim given = []
  · exact .inl (.inl hnil)
  · obtain ⟨text, ht, hsame⟩ := (h.trim_eq_iff hnil).mp ⟨given, hgiven, rfl⟩
    have hwell := h.wellFormed ht
    rwa [WellFormed, Silent, hsame] at hwell

/-- The joined text defines the CPUs as they were given, up to their number. -/
theorem lines_defined_iff (h : Interleaves lines cpus others) (hcpu : cpu ≤ cpus.length) :
    (∃ given ∈ Text.lines ("\n".intercalate lines).toList, Defines (Text.trim given) cpu d) ↔
      cpus[cpu]? = some d := by
  have hsome {given : List Char} (hdefines : Defines (Text.trim given) cpu d) :
      Text.trim given ≠ [] := fun hnil => hdefines.not_silent (.inl hnil)
  rw [← h.defined_iff hcpu]
  constructor
  · rintro ⟨given, hgiven, hdefines⟩
    obtain ⟨text, ht, hsame⟩ := (h.trim_eq_iff (hsome hdefines)).mp ⟨given, hgiven, rfl⟩
    exact ⟨text, ht, hsame ▸ hdefines⟩
  · rintro ⟨text, ht, hdefines⟩
    obtain ⟨given, hgiven, hsame⟩ := (h.trim_eq_iff (hsome hdefines)).mpr ⟨text, ht, rfl⟩
    exact ⟨given, hgiven, hsame ▸ hdefines⟩

/-- The first CPU that the joined text leaves undefined is the one after the last. -/
theorem isLeast_length (h : Interleaves lines cpus others) :
    IsLeast {cpu | Undefined (Text.lines ("\n".intercalate lines).toList) cpu} cpus.length := by
  constructor
  · intro given hgiven d hdefines
    have hd := (h.lines_defined_iff (Nat.le_refl _)).mp ⟨given, hgiven, hdefines⟩
    exact absurd (List.getElem?_eq_some_iff.mp hd).1 (Nat.lt_irrefl _)
  · intro cpu hundefined
    by_contra hlt
    have hcpu := Nat.lt_of_not_le hlt
    obtain ⟨given, hgiven, hdefines⟩ :=
      (h.lines_defined_iff hcpu.le).mpr (List.getElem?_eq_getElem hcpu)
    exact hundefined given hgiven _ hdefines

/-- The joined text reads back as the descriptors that were given. -/
theorem parse_eq (h : Interleaves lines cpus others) :
    parse ("\n".intercalate lines) = .ok cpus := by
  obtain ⟨read, hparse⟩ : ∃ read, parse ("\n".intercalate lines) = .ok read :=
    ⟨_, parse_eq_ok_iff.mpr ⟨fun given hgiven => h.lines_wellFormed hgiven, rfl⟩⟩
  have hlists := lists_of_parse hparse
  have hlength : read.length = cpus.length := hlists.isLeast_length.unique h.isLeast_length
  have hsame : read = cpus := by
    refine List.ext_getElem hlength fun cpu hread hcpu => ?_
    obtain ⟨before, given, after, hlines, hdefines, -⟩ :=
      hlists.last cpu _ (List.getElem?_eq_getElem hread)
    have hgiven : given ∈ Text.lines ("\n".intercalate lines).toList :=
      hlines ▸ List.mem_append_right _ List.mem_cons_self
    have hd := (h.lines_defined_iff hcpu.le).mp ⟨given, hgiven, hdefines⟩
    rw [List.getElem?_eq_getElem hcpu] at hd
    exact (Option.some.inj hd).symm
  rw [hparse, hsame]

end Interleaves

end Properties

/-- A property file is refused exactly if a line neither says nothing nor defines a CPU. Otherwise
the CPUs up to the first that no line defines are listed, each as its last line defines it. So what
is written for a list of descriptors, a line for each CPU, reads back as the list: in any order, and
whatever silent lines and lines for CPUs above the number of descriptors stand between. -/
theorem properties_read_back :
    (∀ text, ((∃ fault, Properties.parse text = .error fault) ↔
        ∃ line ∈ Text.lines text.toList, ¬ Properties.WellFormed line) ∧
      ∀ cpus, Properties.parse text = .ok cpus →
        Properties.Lists (Text.lines text.toList) cpus) ∧
    ∀ lines cpus others, Properties.Interleaves lines cpus others →
      Properties.parse ("\n".intercalate lines) = .ok cpus :=
  ⟨fun _ => ⟨Properties.exists_parse_eq_error_iff, fun _ => Properties.lists_of_parse⟩,
    fun _ _ _ => Properties.Interleaves.parse_eq⟩

/-- Two CPUs in the order of their cores, with a comment, a blank line and a line for CPU 5. -/
theorem properties_read_back_out_of_order :
    Properties.Interleaves ["1=0,1,0", "# cores", " ", "5 = 7 , +8,9 ", "0=0,0,0"]
      [{ socketId := 0, coreId := 0, threadId := 0 }, { socketId := 0, coreId := 1, threadId := 0 }]
      ["# cores", " ", "5 = 7 , +8,9 "] ∧
    Properties.parse "1=0,1,0\n# cores\n \n5 = 7 , +8,9 \n0=0,0,0" =
      .ok [{ socketId := 0, coreId := 0, threadId := 0 },
        { socketId := 0, coreId := 1, threadId := 0 }] := by
  have hinterleaves : Properties.Interleaves ["1=0,1,0", "# cores", " ", "5 = 7 , +8,9 ", "0=0,0,0"]
      [{ socketId := 0, coreId := 0, threadId := 0 }, { socketId := 0, coreId := 1, threadId := 0 }]
      ["# cores", " ", "5 = 7 , +8,9 "] := by
    refine ⟨?_, by decide, by decide +kernel, ?_⟩
    · have hzero : 0 < Numeral.idLimit := by decide
      have hplain (core : Nat) (hcore : core < Numeral.idLimit) :
          Properties.Plain { socketId := 0, coreId := core, threadId := 0 } :=
        ⟨hzero, hcore, hzero, rfl, rfl, rfl⟩
      simp only [List.forall_mem_cons]
      exact ⟨hplain 0 hzero, hplain 1 (by decide), List.forall_mem_nil _⟩
    · have hfive : Properties.Defines (Text.trim "5 = 7 , +8,9 ".toList) 5
          { socketId := 7, coreId := 8, threadId := 9 } :=
        Properties.defines_of_entry (by decide +kernel)
      simp only [List.forall_mem_cons]
      exact ⟨⟨by decide, .inl (.inr (by decide))⟩, ⟨by decide, .inl (.inl (by decide))⟩,
        ⟨by decide, .inr ⟨5, _, by decide, hfive⟩⟩, List.forall_mem_nil _⟩
  have hjoined : "\n".intercalate ["1=0,1,0", "# cores", " ", "5 = 7 , +8,9 ", "0=0,0,0"] =
      "1=0,1,0\n# cores\n \n5 = 7 , +8,9 \n0=0,0,0" := by decide +kernel
  refine ⟨hinterleaves, ?_⟩
  rw [← hjoined]
  exact properties_read_back.2 _ _ _ hinterleaves

end CpuPlacement
