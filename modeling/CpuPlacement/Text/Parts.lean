/-!
# Texts cut at separators

Three ways to cut a text. `parts` cuts at every separator and keeps the empty pieces, so there is
always one piece more than there are separators; `pieces` does the same with any list. `cut` cuts at
the first separator only. `lines` cuts after every line feed, where a carriage return just before
the line feed belongs to the line end and a last line without a line feed is kept as it is.
-/

set_option autoImplicit false

namespace CpuPlacement.Text

/-- The pieces of a list between its separators, empty ones included. -/
def pieces {α : Type} (isSeparator : α → Bool) : List α → List (List α)
  | [] => [[]]
  | a :: rest =>
    if isSeparator a then [] :: pieces isSeparator rest
    else match pieces isSeparator rest with
      | piece :: others => (a :: piece) :: others
      | [] => [[a]]

/-- The pieces of a text between the occurrences of a character. -/
def parts (separator : Char) (s : List Char) : List (List Char) :=
  pieces (· == separator) s

/-- What stands before and after the first separator, if there is one. -/
def cut (separator : Char) : List Char → Option (List Char × List Char)
  | [] => none
  | c :: rest =>
    if c = separator then some ([], rest)
    else (cut separator rest).map fun (before, after) => (c :: before, after)

/-- The text without one carriage return at its end. -/
def dropReturn (s : List Char) : List Char :=
  if s.getLast? = some '\r' then s.dropLast else s

/-- The lines of a text. -/
def lines (s : List Char) : List (List Char) :=
  let ended := parts '\n' s
  ended.dropLast.map dropReturn ++ ended.getLast?.toList.filter (!·.isEmpty)

/-- There is at least one piece. -/
theorem pieces_ne_nil {α : Type} (isSeparator : α → Bool) (l : List α) :
    pieces isSeparator l ≠ [] := by
  fun_induction pieces isSeparator l <;> simp_all

end CpuPlacement.Text
