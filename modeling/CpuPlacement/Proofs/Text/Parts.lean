import CpuPlacement.Proofs.Text.Blank
import CpuPlacement.Text.Parts

/-!
# Cutting what was joined

Cutting a text at a separator undoes joining pieces with it, as long as no piece holds the separator
itself; joining always undoes cutting. A text that is cut at the first separator only is cut where
no separator stands before (`cut_eq_some_iff`). To parts without the blanks around each, blanks
around the whole text make no difference (`map_trim_parts_trim`).
-/

set_option autoImplicit false

namespace CpuPlacement.Text

/-- The pieces are those of the library's `splitOnP`. -/
theorem pieces_eq_splitOnP {α : Type} (isSeparator : α → Bool) (l : List α) :
    pieces isSeparator l = l.splitOnP isSeparator := by
  induction l with
  | nil => rfl
  | cons a rest ih =>
    rw [pieces, List.splitOnP_cons_eq_if_modifyHead, ← ih]
    cases isSeparator a with
    | true => rfl
    | false =>
      obtain ⟨piece, others, hsplit⟩ :=
        List.exists_cons_of_ne_nil (pieces_ne_nil isSeparator rest)
      simp only [hsplit, List.modifyHead_cons, Bool.false_eq_true, if_false]

theorem parts_eq_splitOn (separator : Char) (s : List Char) :
    parts separator s = s.splitOn separator :=
  pieces_eq_splitOnP _ s

/-- Pieces without the separator come out as they were joined. -/
theorem parts_intercalate {separator : Char} {pieces : List (List Char)} (hsome : pieces ≠ [])
    (hpieces : ∀ piece ∈ pieces, separator ∉ piece) :
    parts separator ([separator].intercalate pieces) = pieces := by
  rw [parts_eq_splitOn, List.splitOn_intercalate separator hpieces hsome]

/-- What was cut is joined again. -/
theorem intercalate_parts (separator : Char) (s : List Char) :
    [separator].intercalate (parts separator s) = s := by
  rw [parts_eq_splitOn, List.intercalate_splitOn]

section Three

variable {separator : Char} {first second third : List Char}

/-- Three texts joined. -/
theorem intercalate_three (separator : Char) (first second third : List Char) :
    [separator].intercalate [first, second, third] =
      first ++ separator :: (second ++ separator :: third) := by
  simp [List.intercalate]

/-- Three texts without the separator are the parts of what they are joined to. -/
theorem parts_three (hfirst : separator ∉ first) (hsecond : separator ∉ second)
    (hthird : separator ∉ third) :
    parts separator (first ++ separator :: (second ++ separator :: third)) =
      [first, second, third] := by
  rw [← intercalate_three, parts_intercalate (List.cons_ne_nil _ _)]
  simp [hfirst, hsecond, hthird]

theorem eq_of_parts_three {s : List Char} (h : parts separator s = [first, second, third]) :
    s = first ++ separator :: (second ++ separator :: third) := by
  rw [← intercalate_parts separator s, h, intercalate_three]

end Three

/-! ## Blanks around the whole text -/

section Blanks

variable {separator c : Char}

/-- A blank in front goes to the first part and is trimmed away with it. -/
theorem map_trim_parts_cons (hblank : isBlank c = true) (hc : c ≠ separator) (s : List Char) :
    (parts separator (c :: s)).map trim = (parts separator s).map trim := by
  obtain ⟨first, rest, hparts⟩ : ∃ first rest, parts separator s = first :: rest :=
    List.exists_cons_of_ne_nil (pieces_ne_nil _ s)
  have hgrown : parts separator (c :: s) = (c :: first) :: rest := by
    rw [parts, pieces, if_neg (by simpa using hc), ← parts, hparts]
  rw [hgrown, hparts, List.map_cons, List.map_cons, trim_cons_blank hblank]

/-- A character that is no separator is put at the end of the last part. -/
theorem exists_parts_append (hc : c ≠ separator) (s : List Char) : ∃ init last,
    parts separator s = init ++ [last] ∧ parts separator (s ++ [c]) = init ++ [last ++ [c]] := by
  have hc' : (c == separator) = false := beq_false_of_ne hc
  simp only [parts]
  induction s with
  | nil => exact ⟨[], [], rfl, by simp [pieces, hc']⟩
  | cons a s ih =>
    obtain ⟨init, last, hs, hgrown⟩ := ih
    rw [List.cons_append, pieces, pieces, hs, hgrown]
    cases ha : a == separator with
    | true => exact ⟨[] :: init, last, rfl, rfl⟩
    | false =>
      cases init with
      | nil => exact ⟨[], a :: last, rfl, rfl⟩
      | cons first init => exact ⟨(a :: first) :: init, last, rfl, rfl⟩

/-- A blank at the end goes to the last part and is trimmed away with it. -/
theorem map_trim_parts_append (hblank : isBlank c = true) (hc : c ≠ separator) (s : List Char) :
    (parts separator (s ++ [c])).map trim = (parts separator s).map trim := by
  obtain ⟨init, last, hs, hgrown⟩ := exists_parts_append hc s
  rw [hs, hgrown, List.map_append, List.map_append, List.map_singleton, List.map_singleton,
    trim_append_blank hblank]

/-- Blanks around a text make no difference to its trimmed parts. -/
theorem map_trim_parts_trim (hseparator : isBlank separator = false) (s : List Char) :
    (parts separator (trim s)).map trim = (parts separator s).map trim := by
  have hne {c : Char} (hblank : isBlank c = true) : c ≠ separator := by
    rintro rfl
    rw [hseparator] at hblank
    cases hblank
  -- blanks are taken away one by one, first in front and then, from the other end, behind
  have hstart : (parts separator (s.dropWhile isBlank)).map trim =
      (parts separator s).map trim := by
    induction s with
    | nil => rfl
    | cons c s ih =>
      cases hblank : isBlank c with
      | true =>
        rw [List.dropWhile_cons_of_pos hblank, ih, map_trim_parts_cons hblank (hne hblank)]
      | false => rw [List.dropWhile_cons_of_neg (Bool.eq_false_iff.mp hblank)]
  have hend (s : List Char) : (parts separator (s.rdropWhile isBlank)).map trim =
      (parts separator s).map trim := by
    induction s using List.reverseRecOn with
    | nil => rfl
    | append_singleton s c ih =>
      cases hblank : isBlank c with
      | true =>
        rw [List.rdropWhile_concat_pos _ _ _ hblank, ih,
          map_trim_parts_append hblank (hne hblank)]
      | false => rw [List.rdropWhile_concat_neg _ _ _ (Bool.eq_false_iff.mp hblank)]
  exact (hend _).trans hstart

end Blanks

/-- What occurs in a joined text stands in a piece or in a separator. -/
theorem mem_or_of_mem_intercalate {α : Type} {a : α} {separator : List α} {pieces : List (List α)}
    (h : a ∈ separator.intercalate pieces) : a ∈ separator ∨ ∃ piece ∈ pieces, a ∈ piece := by
  induction pieces with
  | nil => cases h
  | cons first rest ih =>
    cases rest with
    | nil =>
      rw [List.intercalate_singleton] at h
      exact .inr ⟨first, List.mem_cons_self, h⟩
    | cons second rest =>
      rw [List.intercalate_cons_cons, List.append_assoc, List.mem_append, List.mem_append] at h
      rcases h with hfirst | hseparator | hrest
      · exact .inr ⟨first, List.mem_cons_self, hfirst⟩
      · exact .inl hseparator
      · exact (ih hrest).imp_right fun ⟨piece, hpiece, ha⟩ =>
          ⟨piece, List.mem_cons_of_mem first hpiece, ha⟩

/-- The first separator is the one that is put behind a piece without any. -/
theorem cut_append {separator : Char} {before : List Char} (hbefore : separator ∉ before)
    (after : List Char) : cut separator (before ++ separator :: after) = some (before, after) := by
  induction before with
  | nil => exact if_pos rfl
  | cons c rest ih =>
    obtain ⟨hfirst, hrest⟩ := not_or.mp (mt List.mem_cons.mpr hbefore)
    rw [List.cons_append, cut, if_neg (Ne.symm hfirst), ih hrest, Option.map_some]

/-- A text is cut at the first separator. -/
theorem cut_eq_some_iff {separator : Char} {s before after : List Char} :
    cut separator s = some (before, after) ↔
      s = before ++ separator :: after ∧ separator ∉ before := by
  constructor
  · intro h
    induction s generalizing before with
    | nil => cases h
    | cons c rest ih =>
      rw [cut] at h
      split at h
      · next hc =>
        cases h
        exact ⟨by rw [hc, List.nil_append], List.not_mem_nil⟩
      · next hc =>
        obtain ⟨⟨before', after'⟩, hrest, heq⟩ := Option.map_eq_some_iff.mp h
        cases heq
        obtain ⟨rfl, hnot⟩ := ih hrest
        exact ⟨rfl, mt List.mem_cons.mp (not_or.mpr ⟨Ne.symm hc, hnot⟩)⟩
  · rintro ⟨rfl, hnot⟩
    exact cut_append hnot after

/-- A text is cut exactly if it holds the separator. -/
theorem isSome_cut (separator : Char) (s : List Char) :
    (cut separator s).isSome = s.contains separator := by
  induction s with
  | nil => rfl
  | cons c rest ih =>
    rw [cut, List.contains_cons]
    by_cases hc : c = separator
    · rw [if_pos hc, beq_iff_eq.mpr hc.symm, Bool.true_or, Option.isSome_some]
    · rw [if_neg hc, Option.isSome_map, ih, beq_false_of_ne (Ne.symm hc), Bool.false_or]

end CpuPlacement.Text
