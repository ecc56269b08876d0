import CpuPlacement.Pattern.Expression

/-!
# How deep an expression is nested

Classes, repetitions, groups, alternatives and sequences count as a level each, and so do the lists
and operators inside a class. An expression with too many levels is refused at the first part that
lies too deep, read from the outside to the inside and from left to right.
-/

set_option autoImplicit false

namespace CpuPlacement.Pattern

/-- So many levels are allowed. -/
def nestingLimit : Nat := 250

mutual

/-- The first part of a class that lies too deep where so many levels are left. -/
def ClassTree.tooDeep? (levels : Nat) : ClassTree → Option Span
  | .bracketed span _ body =>
    match levels with
    | 0 => some span
    | levels + 1 => body.tooDeep? levels
  | .union span items =>
    match levels with
    | 0 => some span
    | levels + 1 => ClassTree.anyTooDeep? levels items
  | .combined span _ left right =>
    match levels with
    | 0 => some span
    | levels + 1 => (left.tooDeep? levels).or (right.tooDeep? levels)
  | .nothing _ | .literal _ | .range _ _ _ | .named _ _ _ | .property _ _ | .short _ _ _ => none

/-- The first part that lies too deep of several. -/
def ClassTree.anyTooDeep? (levels : Nat) : List ClassTree → Option Span
  | [] => none
  | item :: rest => (item.tooDeep? levels).or (ClassTree.anyTooDeep? levels rest)

end

mutual

/-- The first part of an expression that lies too deep where so many levels are left. -/
def Expression.tooDeep? (levels : Nat) : Expression → Option Span
  | .nothing _ | .flags _ _ | .atom _ => none
  | .bracketed span _ body =>
    match levels with
    | 0 => some span
    | levels + 1 => body.tooDeep? levels
  | .repetition span _ operand =>
    match levels with
    | 0 => some span
    | levels + 1 => operand.tooDeep? levels
  | .group span _ body =>
    match levels with
    | 0 => some span
    | levels + 1 => body.tooDeep? levels
  | .alternation span branches =>
    match levels with
    | 0 => some span
    | levels + 1 => Expression.anyTooDeep? levels branches
  | .sequence span parts =>
    match levels with
    | 0 => some span
    | levels + 1 => Expression.anyTooDeep? levels parts

/-- The first part that lies too deep of several. -/
def Expression.anyTooDeep? (levels : Nat) : List Expression → Option Span
  | [] => none
  | part :: rest => (part.tooDeep? levels).or (Expression.anyTooDeep? levels rest)

end

end CpuPlacement.Pattern
