import CpuPlacement.Pattern.Meaning
import CpuPlacement.Pattern.Nesting
import CpuPlacement.Pattern.PlainSearch
import CpuPlacement.Pattern.Reading
import CpuPlacement.Pattern.Size

/-!
# Patterns from texts

A text is read as an expression, which must not be nested too deep; the expression is then given its
meaning. A pattern whose machine would take too much room is refused, and so is one that asks for
words of other scripts.
-/

set_option autoImplicit false

namespace CpuPlacement

namespace Pattern

/-- Why a text gives no pattern. -/
inductive Refusal where
  | malformed (m : Misreading)
  | tooLarge
  /-- The pattern asks for the edge of a word of any script. -/
  | wideWord
deriving DecidableEq, Repr

/-- The message about a text that is refused. -/
def Refusal.message (text : List Char) : Refusal → String
  | malformed m => m.report text
  | tooLarge => "Compiled regex exceeds size limit of " ++ toString sizeLimit ++ " bytes."
  | wideWord => "error building NFA"

/-- The pattern that a text stands for, whatever its size. -/
def meant (text : List Char) : Except Misreading Pattern := do
  let e ← Expression.ofText text
  match e.tooDeep? nestingLimit with
  | some span => throw ⟨.nestedTooDeep nestingLimit, span, none⟩
  | none => return (← e.meaning {}).1

/-- Why the pattern has no machine, if it has none. -/
def machineRefusal? (p : Pattern) : Option Refusal :=
  if (p.machine .forward).isTooLarge then some .tooLarge
  else if p.anyLook (·.isWideWord) then some .wideWord
  else if (p.machine .backward).isTooLarge then some .tooLarge
  else none

/-- The pattern of a text. It has a machine, or it does without. -/
def ofText (text : List Char) : Except Refusal Pattern :=
  match meant text with
  | .error m => .error (.malformed m)
  | .ok p =>
    match p.machineRefusal? with
    | some refusal => if p.isSoughtAsTexts then .ok p else .error refusal
    | none => .ok p

end Pattern

end CpuPlacement
