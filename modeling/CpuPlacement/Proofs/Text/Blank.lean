import CpuPlacement.Text.Blank
import Mathlib.Data.List.DropRight

/-!
# What trimming leaves

Trimming takes blanks from the two ends of a text and nothing else: every other character stays
(`isBlank_or_mem_trim`), and a text without blanks stays as it is.
-/

set_option autoImplicit false

namespace CpuPlacement.Text

/-- No digit is a blank. -/
theorem not_isBlank_of_isDigit {c : Char} (h : c.isDigit = true) : isBlank c = false := by
  rw [Char.isDigit, Bool.and_eq_true, decide_eq_true_eq, decide_eq_true_eq] at h
  have hlow : 48 ≤ c.toNat := h.1
  have hhigh : c.toNat ≤ 57 := h.2
  simp only [isBlank, blankRanges, List.any_cons, List.any_nil, Bool.or_false, Bool.or_eq_false_iff,
    Bool.and_eq_false_iff, decide_eq_false_iff_not]
  omega

/-! ## Trimmed texts -/

/-- Nothing is left to trim of a trimmed text. -/
theorem trim_trim (s : List Char) : trim (trim s) = trim s := by
  have hstart : trim s <+: s.dropWhile isBlank := List.rdropWhile_prefix isBlank _
  have hleft : (trim s).dropWhile isBlank = trim s := by
    refine List.dropWhile_eq_self_iff.mpr fun hlength => ?_
    rw [hstart.getElem hlength]
    exact List.dropWhile_get_zero_not isBlank s _
  have hright : (trim s).rdropWhile isBlank = trim s := List.rdropWhile_idempotent isBlank _
  exact (congrArg (List.rdropWhile isBlank) hleft).trans hright

/-- A text without blanks is not trimmed. -/
theorem trim_eq_self {s : List Char} (h : ∀ c ∈ s, isBlank c = false) : trim s = s := by
  have hstart : s.dropWhile isBlank = s := by
    refine List.dropWhile_eq_self_iff.mpr fun hlength => ?_
    rw [h _ (List.getElem_mem hlength)]
    exact Bool.false_ne_true
  have hend : s.rdropWhile isBlank = s := by
    refine List.rdropWhile_eq_self_iff.mpr fun hsome => ?_
    rw [h _ (List.getLast_mem hsome)]
    exact Bool.false_ne_true
  exact (congrArg (List.rdropWhile isBlank) hstart).trans hend

theorem trim_cons_blank {c : Char} (hc : isBlank c = true) (s : List Char) :
    trim (c :: s) = trim s := by
  rw [trim, trim, List.dropWhile_cons_of_pos hc]

/-- A blank at the end is trimmed away. -/
theorem trim_append_blank {c : Char} (hc : isBlank c = true) (s : List Char) :
    trim (s ++ [c]) = trim s := by
  show List.rdropWhile isBlank ((s ++ [c]).dropWhile isBlank) =
    List.rdropWhile isBlank (s.dropWhile isBlank)
  rw [List.dropWhile_append]
  split
  · next hnil =>
    rw [List.isEmpty_iff.mp hnil, List.dropWhile_cons_of_pos hc, List.dropWhile_nil]
  · rw [List.rdropWhile_concat_pos _ _ _ hc]

/-! ## What is trimmed -/

/-- Only blanks are trimmed away. -/
theorem isBlank_or_mem_trim {s : List Char} {c : Char} (hc : c ∈ s) :
    isBlank c = true ∨ c ∈ trim s := by
  have hdrop {l : List Char} (hl : c ∈ l) : isBlank c = true ∨ c ∈ l.dropWhile isBlank := by
    rw [← List.takeWhile_append_dropWhile (p := isBlank) (l := l), List.mem_append] at hl
    exact hl.imp_left List.mem_takeWhile_imp
  rcases hdrop hc with hblank | hstart
  · exact .inl hblank
  · exact (hdrop (List.mem_reverse.mpr hstart)).imp_right List.mem_reverse.mpr

/-- Nothing but blanks is left out where nothing is left. -/
theorem isAllBlank_iff {s : List Char} : isAllBlank s = true ↔ ∀ c ∈ s, isBlank c = true := by
  rw [isAllBlank, List.isEmpty_iff]
  constructor
  · intro hnil c hc
    refine (isBlank_or_mem_trim hc).resolve_right fun hmem => ?_
    rw [hnil] at hmem
    exact List.not_mem_nil hmem
  · intro hall
    have hstart : s.dropWhile isBlank = [] := List.dropWhile_eq_nil_iff.mpr hall
    rw [trim, hstart]
    rfl

end CpuPlacement.Text
