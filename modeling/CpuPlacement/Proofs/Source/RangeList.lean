import CpuPlacement.Proofs.Sorted
import CpuPlacement.Proofs.Text.Numeral
import CpuPlacement.Proofs.Text.Parts
import CpuPlacement.Proofs.Traversal
import CpuPlacement.Source.RangeList
import Mathlib

/-!
# What range lists stand for

An entry of a range list spans the CPUs from one number to another. The grammar of an entry is an
inductive type (`Spans`), by which exactly the entries that can be read are read
(`span_eq_ok_iff`). Sorting and dropping repeats then leaves the union of the spans in ascending
order (`mem_collect`, `pairwise_collect`), and an ascending list is determined by what it holds. So
it does not matter which spans a set of CPUs was given by, and the maximal runs of a list
(`Maximal`) read back as the list.
-/

set_option autoImplicit false

namespace CpuPlacement

namespace RangeList

open Numeral (Padded wordLimit)

/-! ## Entries -/

/-- A number, or two of which the second is no smaller with a dash between. There may be blanks
around each number. -/
inductive Spans : List Char → Nat → Nat → Prop where
  | single {number : List Char} {cpu : Nat} (h : Padded wordLimit number cpu) :
    Spans number cpu cpu
  | range {low high : List Char} {first last : Nat} (hfirst : Padded wordLimit low first)
    (hlast : Padded wordLimit high last) (hle : first ≤ last) :
    Spans (low ++ '-' :: high) first last

theorem dash_not_mem {limit n : Nat} {text : List Char} (h : Padded limit text n) : '-' ∉ text :=
  h.not_mem (by decide) (by decide) (by decide)

/-- A span that is read is one that the entry writes. -/
theorem spans_of_span {entry : List Char} {first last : Nat} (h : span entry = .ok (first, last)) :
    Spans entry first last := by
  have hread {text : List Char} {n : Nat} {fault : SourceFault}
      (h : ((Numeral.read wordLimit (Text.trim text)).mapError fun _ => fault) = .ok n) :
      Padded wordLimit text n :=
    (Numeral.read_trim_eq_ok_iff (by decide)).mp (mapError_eq_ok_iff.mp h)
  rw [span] at h
  split at h
  · next low high hcut =>
    obtain ⟨rfl, -⟩ := Text.cut_eq_some_iff.mp hcut
    obtain ⟨first', hfirst, h⟩ := bind_eq_ok_iff.mp h
    obtain ⟨last', hlast, h⟩ := bind_eq_ok_iff.mp h
    obtain ⟨hle, h⟩ := check_eq_ok_iff.mp h
    cases h
    exact .range (hread hfirst) (hread hlast) (Nat.le_of_not_lt hle)
  · obtain ⟨cpu, hcpu, h⟩ := bind_eq_ok_iff.mp h
    cases h
    exact .single (hread hcpu)

/-- The span that an entry writes is read. -/
theorem Spans.span_eq {entry : List Char} {first last : Nat} (h : Spans entry first last) :
    span entry = .ok (first, last) := by
  have hread {text : List Char} {n : Nat} {fault : SourceFault} (h : Padded wordLimit text n) :
      ((Numeral.read wordLimit (Text.trim text)).mapError fun _ => fault) = .ok n :=
    mapError_eq_ok_iff.mpr ((Numeral.read_trim_eq_ok_iff (by decide)).mpr h)
  cases h with
  | single h =>
    have hcut : Text.cut '-' entry = none := by
      rw [← Option.not_isSome_iff_eq_none, Text.isSome_cut]
      simpa using dash_not_mem h
    rw [span, hcut]
    exact bind_eq_ok_iff.mpr ⟨first, hread h, rfl⟩
  | range hfirst hlast hle =>
    rw [span, Text.cut_append (dash_not_mem hfirst)]
    refine bind_eq_ok_iff.mpr ⟨first, hread hfirst, bind_eq_ok_iff.mpr ⟨last, hread hlast, ?_⟩⟩
    exact check_eq_ok_iff.mpr ⟨Nat.not_lt.mpr hle, rfl⟩

theorem span_eq_ok_iff {entry : List Char} {first last : Nat} :
    span entry = .ok (first, last) ↔ Spans entry first last :=
  ⟨spans_of_span, Spans.span_eq⟩

/-- An entry writes one span at most. -/
theorem Spans.unique {entry : List Char} {first first' last last' : Nat}
    (h : Spans entry first last) (h' : Spans entry first' last') :
    first = first' ∧ last = last' := by
  cases h.span_eq.symm.trans h'.span_eq
  exact ⟨rfl, rfl⟩

/-! ## The CPUs of spans -/

/-- One of the spans reaches over the CPU. -/
def Holds (spans : List (Nat × Nat)) (cpu : Nat) : Prop :=
  ∃ span ∈ spans, span.1 ≤ cpu ∧ cpu ≤ span.2

theorem holds_cons {first last cpu : Nat} {spans : List (Nat × Nat)} :
    Holds ((first, last) :: spans) cpu ↔ (first ≤ cpu ∧ cpu ≤ last) ∨ Holds spans cpu := by
  simp [Holds]

theorem equivalence_beq : Equivalence fun a b : Nat => (a == b) = true := by
  simpa only [beq_iff_eq] using eq_equivalence

/-- The CPUs that are collected ascend. -/
theorem pairwise_collect (spans : List (Nat × Nat)) : (collect spans).Pairwise (· < ·) := by
  have hdiffer : (collect spans).Pairwise fun a b => (a == b) = false := by
    refine (pairwise_withoutRepeats_sortedBy_iff equivalence_beq fun a b hsame => ?_).mpr ?_
    · exact Nat.compare_eq_eq.mpr (beq_iff_eq.mp hsame)
    · rintro ⟨a, b, c, -, -, hne, hcmp⟩
      rw [Nat.compare_eq_eq.mp hcmp, beq_self_eq_true] at hne
      cases hne
  have hordered : (collect spans).Pairwise fun a b => (compare a b).isLE = true :=
    (pairwise_sortedBy _).sublist (withoutRepeats_sublist _)
  refine (hordered.and hdiffer).imp fun {a b} hab => ?_
  exact Nat.lt_of_le_of_ne (Nat.isLE_compare.mp hab.1) (beq_eq_false_iff_ne.mp hab.2)

/-- The order of the spans and their overlaps do not count. -/
theorem mem_collect {spans : List (Nat × Nat)} {cpu : Nat} :
    cpu ∈ collect spans ↔ Holds spans cpu := by
  let cpus := spans.flatMap fun span => List.range' span.1 (span.2 + 1 - span.1)
  have hcpus : cpu ∈ sortedBy compare cpus ↔ Holds spans cpu := by
    simp only [mem_sortedBy, cpus, List.mem_flatMap, List.mem_range'_1, Holds]
    refine exists_congr fun span => and_congr_right fun _ => ?_
    omega
  rw [← hcpus]
  constructor
  · exact fun h => (withoutRepeats_sublist _).mem h
  · intro h
    obtain ⟨other, hother, hsame⟩ := exists_same_withoutRepeats equivalence_beq h
    rw [beq_iff_eq.mp hsame]
    exact hother

/-- An ascending list of the CPUs that the spans hold is what they collect. -/
theorem collect_eq_iff {spans : List (Nat × Nat)} {cpus : List Nat} :
    collect spans = cpus ↔ cpus.Pairwise (· < ·) ∧ ∀ cpu, cpu ∈ cpus ↔ Holds spans cpu := by
  constructor
  · rintro rfl
    exact ⟨pairwise_collect spans, fun _ => mem_collect⟩
  · rintro ⟨hcpus, hmem⟩
    exact (pairwise_collect spans).eq_of_mem_iff hcpus fun cpu => mem_collect.trans (hmem cpu).symm

/-! ## What is read -/

/-- Every part of the text that is not blank spans CPUs. -/
def WellFormed (text : List Char) : Prop :=
  ∀ part ∈ Text.parts ',' text, Text.isAllBlank part = false →
    ∃ first last, Spans (Text.trim part) first last

/-- Some part of the text spans the CPU. -/
def Lists (text : List Char) (cpu : Nat) : Prop :=
  ∃ part ∈ Text.parts ',' text, ∃ first last, Spans (Text.trim part) first last ∧
    first ≤ cpu ∧ cpu ≤ last

theorem not_spans_nil {first last : Nat} : ¬ Spans [] first last := by
  intro h
  cases h.span_eq

/-- The entries are the parts between commas that are not blank. -/
theorem mem_entries {text entry : List Char} :
    entry ∈ entries text ↔
      ∃ part ∈ Text.parts ',' text, Text.isAllBlank part = false ∧ Text.trim part = entry := by
  rw [entries, Text.map_trim_parts_trim (by decide), List.mem_filter, List.mem_map]
  simp only [Text.isAllBlank, Bool.not_eq_true']
  constructor
  · rintro ⟨⟨part, hpart, rfl⟩, hsome⟩
    exact ⟨part, hpart, hsome, rfl⟩
  · rintro ⟨part, hpart, hsome, rfl⟩
    exact ⟨⟨part, hpart, rfl⟩, hsome⟩

/-- The spans of the entries that can be read. -/
def spansOf (text : List Char) : List (Nat × Nat) :=
  (entries text).filterMap fun entry => (span entry).toOption

/-- The spans of a text are those that its parts write. -/
theorem mem_spansOf {text : List Char} {first last : Nat} :
    (first, last) ∈ spansOf text ↔
      ∃ part ∈ Text.parts ',' text, Spans (Text.trim part) first last := by
  have htoOption (entry : List Char) :
      (span entry).toOption = some (first, last) ↔ Spans entry first last := by
    rw [← span_eq_ok_iff]
    cases span entry <;> simp [Except.toOption]
  simp only [spansOf, List.mem_filterMap, mem_entries, htoOption]
  constructor
  · rintro ⟨_, ⟨part, hpart, -, rfl⟩, hspans⟩
    exact ⟨part, hpart, hspans⟩
  · rintro ⟨part, hpart, hspans⟩
    refine ⟨_, ⟨part, hpart, ?_, rfl⟩, hspans⟩
    refine List.isEmpty_eq_false_iff.mpr fun hnil => ?_
    rw [hnil] at hspans
    exact not_spans_nil hspans

/-- A text is read if each entry writes a span, and then as what the spans hold. -/
theorem parse_eq_ok_iff {text : String} {cpus : List Nat} :
    parse text = .ok cpus ↔ WellFormed text.toList ∧ collect (spansOf text.toList) = cpus := by
  have hparse : parse text = .ok cpus ↔
      ∃ spans, (entries text.toList).mapM span = .ok spans ∧ collect spans = cpus := by
    rw [parse]
    cases (entries text.toList).mapM span <;> simp [Except.map]
  have hwell : (∀ entry ∈ entries text.toList, ∃ s, span entry = .ok s) ↔
      WellFormed text.toList := by
    simp only [mem_entries, Prod.exists, span_eq_ok_iff, WellFormed]
    constructor
    · exact fun h part hpart hsome => h _ ⟨part, hpart, hsome, rfl⟩
    · rintro h _ ⟨part, hpart, hsome, rfl⟩
      exact h part hpart hsome
  simp only [hparse, mapM_eq_ok_iff_filterMap, hwell, spansOf]
  constructor
  · rintro ⟨_, ⟨hwell, rfl⟩, hcollect⟩
    exact ⟨hwell, hcollect⟩
  · rintro ⟨hwell, hcollect⟩
    exact ⟨_, ⟨hwell, rfl⟩, hcollect⟩

/-- A text is read exactly if each entry writes a span. -/
theorem exists_parse_eq_ok_iff {text : String} :
    (∃ cpus, parse text = .ok cpus) ↔ WellFormed text.toList := by
  simp only [parse_eq_ok_iff, exists_and_left, exists_eq', and_true]

/-- The spans of a text hold the CPUs that it lists. -/
theorem holds_spansOf {text : List Char} {cpu : Nat} :
    Holds (spansOf text) cpu ↔ Lists text cpu := by
  rw [Holds, Prod.exists]
  simp only [mem_spansOf]
  constructor
  · rintro ⟨first, last, ⟨part, hpart, hspans⟩, hcpu⟩
    exact ⟨part, hpart, first, last, hspans, hcpu⟩
  · rintro ⟨part, hpart, first, last, hspans, hcpu⟩
    exact ⟨first, last, ⟨part, hpart, hspans⟩, hcpu⟩

/-- The texts that a list of CPUs is read from are those whose parts span these CPUs and no
others. -/
theorem parse_eq_ok_iff_lists {text : String} {cpus : List Nat} :
    parse text = .ok cpus ↔ WellFormed text.toList ∧ cpus.Pairwise (· < ·) ∧
      ∀ cpu, cpu ∈ cpus ↔ Lists text.toList cpu := by
  simp only [parse_eq_ok_iff, collect_eq_iff, holds_spansOf]

/-! ## Written lists -/

/-- The runs of neighbours in an ascending list, each by its first and its last. -/
def runs : List Nat → List (Nat × Nat)
  | [] => []
  | cpu :: rest =>
    match runs rest with
    | (first, last) :: others =>
      if first = cpu + 1 then (cpu, last) :: others else (cpu, cpu) :: (first, last) :: others
    | [] => [(cpu, cpu)]

/-- The text of a run: a range, or a single number. -/
def runText (run : Nat × Nat) : String :=
  if run.1 = run.2 then toString run.1 else s!"{run.1}-{run.2}"

/-- The text of some runs. -/
def render (runs : List (Nat × Nat)) : String :=
  ",".intercalate (runs.map runText)

/-- The runs hold the CPUs of the list and no others, and no two of them could be one. -/
structure Maximal (runs : List (Nat × Nat)) (cpus : List Nat) : Prop where
  ordered : ∀ run ∈ runs, run.1 ≤ run.2
  apart : runs.IsChain fun a b => a.2 + 1 < b.1
  mem_iff : ∀ cpu, cpu ∈ cpus ↔ Holds runs cpu

/-- The runs of ascending CPUs are as long as they can be. -/
theorem maximal_runs {cpus : List Nat} (h : cpus.Pairwise (· < ·)) : Maximal (runs cpus) cpus := by
  -- the CPU in front either extends the first run or starts one of its own
  induction cpus with
  | nil => exact ⟨List.forall_mem_nil _, .nil, by simp [runs, Holds]⟩
  | cons cpu rest ih =>
    obtain ⟨hlt, hrest⟩ := List.pairwise_cons.mp h
    obtain ⟨hordered, hapart, hmem⟩ := ih hrest
    rw [runs]
    cases hruns : runs rest with
    | nil =>
      rw [hruns] at hmem
      refine ⟨by simp, .singleton _, fun other => ?_⟩
      rw [List.mem_cons, hmem, holds_cons]
      refine or_congr_left ?_
      omega
    | cons run others =>
      obtain ⟨first, last⟩ := run
      rw [hruns] at hordered hapart hmem
      obtain ⟨hfirst, hothers⟩ := List.forall_mem_cons.mp hordered
      have hcpu : cpu < first :=
        hlt first ((hmem first).mpr (holds_cons.mpr (.inl ⟨Nat.le_refl first, hfirst⟩)))
      dsimp only at hfirst ⊢
      split
      · next hnext =>
        obtain ⟨hnear, hfar⟩ := List.isChain_cons.mp hapart
        refine ⟨List.forall_mem_cons.mpr ⟨(by omega : cpu ≤ last), hothers⟩,
          List.isChain_cons.mpr ⟨hnear, hfar⟩, fun other => ?_⟩
        rw [List.mem_cons, hmem, holds_cons, holds_cons, ← or_assoc]
        refine or_congr_left ?_
        omega
      · next hgap =>
        refine ⟨List.forall_mem_cons.mpr ⟨Nat.le_refl cpu, hordered⟩,
          .cons_cons (by omega : cpu + 1 < first) hapart, fun other => ?_⟩
        rw [List.mem_cons, hmem, @holds_cons cpu]
        refine or_congr_left ?_
        omega

/-- A run is written as its only CPU, or as the first and the last one with a dash between. -/
theorem toList_runText (run : Nat × Nat) :
    (runText run).toList = if run.1 = run.2 then (toString run.1).toList
      else (toString run.1).toList ++ '-' :: (toString run.2).toList := by
  rw [runText, apply_ite String.toList]
  simp only [String.toList_append, List.append_assoc]
  rfl

/-- A run is written with digits and dashes. -/
theorem dash_or_isDigit_of_mem_runText {run : Nat × Nat} {c : Char}
    (hc : c ∈ (runText run).toList) : c = '-' ∨ c.isDigit = true := by
  rw [toList_runText] at hc
  split at hc
  · exact .inr (Numeral.isDigit_of_mem_toString hc)
  · rcases List.mem_append.mp hc with hfirst | hc
    · exact .inr (Numeral.isDigit_of_mem_toString hfirst)
    · exact (List.mem_cons.mp hc).imp_right Numeral.isDigit_of_mem_toString

/-- A run is written without blanks. -/
theorem trim_runText (run : Nat × Nat) :
    Text.trim (runText run).toList = (runText run).toList := by
  refine Text.trim_eq_self fun c hc => ?_
  rcases dash_or_isDigit_of_mem_runText hc with rfl | hdigit
  · decide
  · exact Text.not_isBlank_of_isDigit hdigit

/-- The text of a run writes its span. -/
theorem spans_runText {run : Nat × Nat} (hle : run.1 ≤ run.2) (hlt : run.2 < wordLimit) :
    Spans (Text.trim (runText run).toList) run.1 run.2 := by
  have hlast := Numeral.padded_toString hlt
  rw [trim_runText, toList_runText]
  split
  · next hsame =>
    rw [hsame]
    exact .single hlast
  · exact .range (Numeral.padded_toString (Nat.lt_of_le_of_lt hle hlt)) hlast hle

/-- Between commas a list of runs has the texts of the runs. -/
theorem parts_render {runs : List (Nat × Nat)} (hsome : runs ≠ []) :
    Text.parts ',' (render runs).toList = runs.map fun run => (runText run).toList := by
  rw [render, String.toList_intercalate, List.map_map]
  refine Text.parts_intercalate (by simpa using hsome) ?_
  rintro _ hpiece hcomma
  obtain ⟨run, -, rfl⟩ := List.mem_map.mp hpiece
  rcases dash_or_isDigit_of_mem_runText hcomma with hdash | hdigit
  · cases hdash
  · cases hdigit

/-- Spans that are written out read as the CPUs that they hold. -/
theorem parse_render {spans : List (Nat × Nat)}
    (h : ∀ span ∈ spans, span.1 ≤ span.2 ∧ span.2 < wordLimit) :
    parse (render spans) = .ok (collect spans) := by
  rcases eq_or_ne spans [] with rfl | hsome
  · rfl
  have hspans {span : Nat × Nat} (hspan : span ∈ spans) :
      Spans (Text.trim (runText span).toList) span.1 span.2 :=
    spans_runText (h span hspan).1 (h span hspan).2
  refine parse_eq_ok_iff_lists.mpr ⟨?_, pairwise_collect spans, fun cpu => mem_collect.trans ?_⟩
  · intro part hpart _
    rw [parts_render hsome] at hpart
    obtain ⟨span, hspan, rfl⟩ := List.mem_map.mp hpart
    exact ⟨_, _, hspans hspan⟩
  · rw [Lists, parts_render hsome]
    constructor
    · rintro ⟨span, hspan, hcpu⟩
      exact ⟨_, List.mem_map_of_mem hspan, _, _, hspans hspan, hcpu⟩
    · rintro ⟨part, hpart, first, last, hread, hcpu⟩
      obtain ⟨span, hspan, rfl⟩ := List.mem_map.mp hpart
      obtain ⟨rfl, rfl⟩ := hread.unique (hspans hspan)
      exact ⟨span, hspan, hcpu⟩

/-- The longest runs of CPUs, written as a list, read back as these CPUs. -/
theorem Maximal.parse_eq {runs : List (Nat × Nat)} {cpus : List Nat} (h : Maximal runs cpus)
    (hcpus : cpus.Pairwise (· < ·)) (hlt : ∀ cpu ∈ cpus, cpu < wordLimit) :
    parse (render runs) = .ok cpus := by
  have hspans : ∀ run ∈ runs, run.1 ≤ run.2 ∧ run.2 < wordLimit := by
    intro run hrun
    have hle := h.ordered run hrun
    exact ⟨hle, hlt run.2 ((h.mem_iff run.2).mpr ⟨run, hrun, hle, Nat.le_refl run.2⟩)⟩
  rw [parse_render hspans, collect_eq_iff.mpr ⟨hcpus, h.mem_iff⟩]

end RangeList

/-- A range list is read exactly if each part between commas, unless it is blank, is a number or two
numbers with a dash between of which the second is no smaller. What is read are the CPUs that some
part spans, in ascending order, so other texts whose parts span these CPUs are read alike. What is
written of a strictly ascending list, its longest runs as ranges and single numbers, reads back as
the list. -/
theorem range_list_reads_spans :
    (∀ text : String,
      ((∃ cpus, RangeList.parse text = .ok cpus) ↔ RangeList.WellFormed text.toList) ∧
      ∀ cpus, RangeList.parse text = .ok cpus →
        cpus.Pairwise (· < ·) ∧ (∀ cpu, cpu ∈ cpus ↔ RangeList.Lists text.toList cpu) ∧
        ∀ other : String, RangeList.WellFormed other.toList →
          (∀ cpu, RangeList.Lists other.toList cpu ↔ RangeList.Lists text.toList cpu) →
          RangeList.parse other = .ok cpus) ∧
    ∀ cpus : List Nat, cpus.Pairwise (· < ·) → (∀ cpu ∈ cpus, cpu < Numeral.wordLimit) →
      RangeList.Maximal (RangeList.runs cpus) cpus ∧
        RangeList.parse (RangeList.render (RangeList.runs cpus)) = .ok cpus := by
  refine ⟨fun text => ⟨RangeList.exists_parse_eq_ok_iff, fun cpus h => ?_⟩,
    fun cpus hcpus hlt => ?_⟩
  · obtain ⟨-, hcpus, hmem⟩ := RangeList.parse_eq_ok_iff_lists.mp h
    refine ⟨hcpus, hmem, fun other hwell hsame => ?_⟩
    exact RangeList.parse_eq_ok_iff_lists.mpr
      ⟨hwell, hcpus, fun cpu => (hmem cpu).trans (hsame cpu).symm⟩
  · have hmax := RangeList.maximal_runs hcpus
    exact ⟨hmax, hmax.parse_eq hcpus hlt⟩

/-- Overlapping ranges out of order, with blanks and an empty part, and what is written of the CPUs
that they span. -/
theorem range_list_reads_spans_overlapping :
    RangeList.parse " 10, 3 - 5 ,,4-6,+1\n" = .ok [1, 3, 4, 5, 6, 10] ∧
    (∀ cpu, cpu ∈ [1, 3, 4, 5, 6, 10] ↔
      RangeList.Lists " 10, 3 - 5 ,,4-6,+1\n".toList cpu) ∧
    RangeList.render (RangeList.runs [1, 3, 4, 5, 6, 10]) = "1,3-6,10" ∧
    RangeList.parse "1,3-6,10" = .ok [1, 3, 4, 5, 6, 10] := by
  have hread : RangeList.parse " 10, 3 - 5 ,,4-6,+1\n" = .ok [1, 3, 4, 5, 6, 10] := by
    cbv
  have hwritten : RangeList.render (RangeList.runs [1, 3, 4, 5, 6, 10]) = "1,3-6,10" := by
    decide +kernel
  refine ⟨hread, (range_list_reads_spans.1 _).2 _ hread |>.2.1, hwritten, ?_⟩
  rw [← hwritten]
  exact (range_list_reads_spans.2 _ (by decide) (by decide)).2

end CpuPlacement
