import CpuPlacement.Proofs.Text.Blank
import CpuPlacement.Proofs.Text.Parts

/-!
# Lines and runs of lines

Lines that are joined by line feeds are the lines of the joined text. A line end can take a carriage
return from a line and an empty last line is none, so this holds apart from blanks
(`trim_lines_intercalate`).

The runs of a list are its longest stretches without separators, as the paragraphs of a text are
those without blank lines. They are the pieces between the separators that are not empty
(`runs_pieces`), and no other list is (`Runs.eq_pieces`).
-/

set_option autoImplicit false

namespace CpuPlacement.Text

/-! ## Joined lines -/

/-- The carriage return of a line end is a blank. -/
theorem trim_dropReturn (s : List Char) : trim (dropReturn s) = trim s := by
  rw [dropReturn]
  split
  · next hlast =>
    obtain ⟨before, rfl⟩ := List.getLast?_eq_some_iff.mp hlast
    rw [List.dropLast_concat, trim_append_blank (by decide)]
  · rfl

/-- Apart from blanks the lines of a joined text are the lines that were joined. -/
theorem trim_lines_intercalate {given : List (List Char)} (h : ∀ line ∈ given, '\n' ∉ line) :
    ((lines (['\n'].intercalate given)).map trim).filter (!·.isEmpty) =
      (given.map trim).filter (!·.isEmpty) := by
  rcases List.eq_nil_or_concat given with rfl | ⟨init, last, rfl⟩
  · rfl
  · rw [List.concat_eq_append] at h ⊢
    have hinit : (init.map dropReturn).map trim = init.map trim := by
      rw [List.map_map]
      exact List.map_congr_left fun line _ => trim_dropReturn line
    have hlast : (([last].filter (!·.isEmpty)).map trim).filter (!·.isEmpty) =
        ([last].map trim).filter (!·.isEmpty) := by
      cases last <;> rfl
    rw [lines, parts_intercalate (List.append_ne_nil_of_right_ne_nil _ (List.cons_ne_nil _ _)) h]
    simp only [List.dropLast_concat, List.getLast?_concat, Option.toList_some, List.map_append,
      List.filter_append, hinit, hlast]

/-! ## Runs -/

section Runs

variable {α : Type} {isSeparator : α → Bool}

/-- The list has these runs: stretches without separators, each up to a separator or to the end of
the list. -/
inductive Runs (isSeparator : α → Bool) : List α → List (List α) → Prop where
  | nil : Runs isSeparator [] []
  | separator {a : α} {rest : List α} {runs : List (List α)} (ha : isSeparator a = true)
    (hrest : Runs isSeparator rest runs) : Runs isSeparator (a :: rest) runs
  | run {run rest : List α} {runs : List (List α)} (hsome : run ≠ [])
    (hinside : ∀ a ∈ run, isSeparator a = false) (hend : ∀ a ∈ rest.head?, isSeparator a = true)
    (hrest : Runs isSeparator rest runs) : Runs isSeparator (run ++ rest) (run :: runs)

variable {l : List α} {runs : List (List α)}

/-- A piece in front is a run unless it is empty. -/
theorem Runs.of_piece {piece rest : List α} {others : List (List α)}
    (hinside : ∀ a ∈ piece, isSeparator a = false) (hend : ∀ a ∈ rest.head?, isSeparator a = true)
    (hrest : Runs isSeparator rest (others.filter (!·.isEmpty))) :
    Runs isSeparator (piece ++ rest) ((piece :: others).filter (!·.isEmpty)) := by
  cases piece with
  | nil => exact hrest
  | cons a piece => exact .run (List.cons_ne_nil a piece) hinside hend hrest

/-- The first piece ends at a separator or at the end of the list, and may be empty. -/
theorem exists_first_piece (isSeparator : α → Bool) (l : List α) :
    ∃ piece rest others, l = piece ++ rest ∧ pieces isSeparator l = piece :: others ∧
      (∀ a ∈ piece, isSeparator a = false) ∧ (∀ a ∈ rest.head?, isSeparator a = true) ∧
      Runs isSeparator rest (others.filter (!·.isEmpty)) := by
  induction l with
  | nil => exact ⟨[], [], [], rfl, rfl, List.forall_mem_nil _, nofun, .nil⟩
  | cons a l ih =>
    obtain ⟨piece, rest, others, rfl, hpieces, hinside, hend, hrest⟩ := ih
    cases ha : isSeparator a with
    | true =>
      refine ⟨[], a :: (piece ++ rest), piece :: others, rfl, ?_, List.forall_mem_nil _, ?_, ?_⟩
      · rw [pieces, if_pos ha, hpieces]
      · exact fun _ hhead => Option.some.inj hhead ▸ ha
      · exact .separator ha (.of_piece hinside hend hrest)
    | false =>
      refine ⟨a :: piece, rest, others, rfl, ?_, List.forall_mem_cons.mpr ⟨ha, hinside⟩, hend,
        hrest⟩
      rw [pieces, if_neg (Bool.eq_false_iff.mp ha), hpieces]

/-- The pieces that are not empty are the runs. -/
theorem runs_pieces (isSeparator : α → Bool) (l : List α) :
    Runs isSeparator l ((pieces isSeparator l).filter (!·.isEmpty)) := by
  obtain ⟨piece, rest, others, rfl, hpieces, hinside, hend, hrest⟩ :=
    exists_first_piece isSeparator l
  rw [hpieces]
  exact .of_piece hinside hend hrest

/-- What stands before the first separator goes to the first piece. -/
theorem pieces_append {run rest piece : List α} {others : List (List α)}
    (hrun : ∀ a ∈ run, isSeparator a = false) (hrest : pieces isSeparator rest = piece :: others) :
    pieces isSeparator (run ++ rest) = (run ++ piece) :: others := by
  induction run with
  | nil => exact hrest
  | cons a run ih =>
    obtain ⟨ha, hinside⟩ := List.forall_mem_cons.mp hrun
    rw [List.cons_append, pieces, if_neg (Bool.eq_false_iff.mp ha), ih hinside]
    rfl

/-- A list has no other runs. -/
theorem Runs.eq_pieces (h : Runs isSeparator l runs) :
    runs = (pieces isSeparator l).filter (!·.isEmpty) := by
  induction h with
  | nil => rfl
  | separator ha hrest ih =>
    rw [pieces, if_pos ha, ih]
    rfl
  | @run run rest runs hsome hinside hend hrest ih =>
    have hpieces : ∃ others, pieces isSeparator rest = [] :: others := by
      cases rest with
      | nil => exact ⟨[], rfl⟩
      | cons a rest => exact ⟨pieces isSeparator rest, by rw [pieces, if_pos (hend a rfl)]⟩
    obtain ⟨others, hothers⟩ := hpieces
    rw [ih, pieces_append hinside hothers, hothers, List.append_nil]
    cases run with
    | nil => exact absurd rfl hsome
    | cons a run => rfl

/-- What is no separator is in a run. -/
theorem Runs.exists_mem_iff (h : Runs isSeparator l runs) {a : α} :
    (∃ run ∈ runs, a ∈ run) ↔ a ∈ l ∧ isSeparator a = false := by
  induction h with
  | nil => simp
  | separator hb hrest ih =>
    rw [ih, List.mem_cons]
    constructor
    · exact fun h => ⟨.inr h.1, h.2⟩
    · rintro ⟨rfl | hmem, ha⟩
      · exact absurd hb (Bool.eq_false_iff.mp ha)
      · exact ⟨hmem, ha⟩
  | @run run rest runs _ hinside _ _ ih =>
    rw [List.exists_mem_cons_iff, ih, List.mem_append, or_and_right,
      and_iff_left_of_imp (hinside a)]

end Runs

end CpuPlacement.Text
