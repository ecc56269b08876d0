import CpuPlacement.Pattern.Escape

/-!
# Reading a class

A class stands between brackets: characters, ranges of them, escapes, classes with a name and
further classes, all joined, and operators between such lists. A hyphen or a closing bracket that
comes first is a member.
-/

set_option autoImplicit false

namespace CpuPlacement.Pattern

/-- What has been read of a list of members. -/
structure Members where
  span : Span
  /-- The last comes first. -/
  items : List ClassTree := []

namespace Members

def add (m : Members) (item : ClassTree) : Members where
  span := ⟨if m.items.isEmpty then item.span.start else m.span.start, item.span.stop⟩
  items := item :: m.items

/-- The members as one part of the class. -/
def tree (m : Members) : ClassTree :=
  match m.items with
  | [] => .nothing m.span
  | [item] => item
  | items => .union m.span items.reverse

end Members

/-- An operator that waits for what stands right of it, with what stands left of it. -/
structure Waiting where
  op : ClassOperator
  left : ClassTree

/-- The class that ends here: what waits is given the members. -/
def Waiting.tree (waiting : Option Waiting) (m : Members) : ClassTree :=
  match waiting with
  | none => m.tree
  | some w => .combined ⟨w.left.span.start, m.tree.span.stop⟩ w.op w.left m.tree

namespace Class

open Reader

/-- An atom as a member. -/
def member (a : Atom) : Reader ClassTree :=
  match a with
  | .literal l => return .literal l
  | .property span name => return .property span name
  | .short span which negated => return .short span which negated
  | .dot span | .assertion span _ => fail .classEscape span

/-- An atom as the end of a range. -/
def boundary (a : Atom) : Reader Literal :=
  match a with
  | .literal l => return l
  | a => fail .classRangeBoundary a.span

/-- A character of a class, or an escape. -/
def atom (c : Char) : Reader Atom := do
  if c = '\\' then Escape.read
  else do
    let span ← charSpan
    pass
    return .literal ⟨span, c, false⟩

/-- A member, or a range of them. The span is that of the open class. -/
def item (opened : Span) (c : Char) : Reader ClassTree := do
  let low ← atom c
  passBlanks
  match ← char? with
  | none => fail .classUnclosed opened
  | some c =>
    let second := (← get).second?
    if c ≠ '-' ∨ second = some ']' ∨ second = some '-' then member low
    else do
      advance
      match ← char? with
      | none => fail .classUnclosed opened
      | some c =>
        let high ← atom c
        let span : Span := ⟨low.span.start, high.span.stop⟩
        let low ← boundary low
        let high ← boundary high
        if high.char < low.char then fail .classRangeOrder span
        return .range span low high

/-- The name between the colons of `[:name:]`, with what it says, if there is one. -/
def named? (rest : List Char) : Option (List Char × NamedClass × Bool) := do
  let inside ← match rest with
    | '[' :: ':' :: inside => some inside
    | _ => none
  let (negated, inside) := match inside with
    | '^' :: inside => (true, inside)
    | inside => (false, inside)
  let (name, after) ← Text.cut ':' inside
  let which ← NamedClass.ofName? name
  if after.head? = some ']' then
    some ((if negated then ['^'] else []) ++ name, which, negated)
  else none

/-- Passes so many characters. -/
def passAll (count : Nat) : Reader Unit :=
  modify fun c => count.repeat Cursor.passed c

/-- Hyphens at the start are members. The number bounds them. -/
def hyphens (start : Place) : Nat → Members → Reader Members
  | 0, m => return m
  | bound + 1, m => do
    if (← char?) != some '-' then return m
    let m := m.add (.literal ⟨← charSpan, '-', false⟩)
    advance
    if (← char?).isNone then fail .classUnclosed (.empty start)
    hyphens start bound m

/-- The start of a class: its brackets so far, whether it is negated, and the members that stand
first. The number bounds the hyphens among them. -/
def opening (bound : Nat) : Reader (Span × Bool × Members) := do
  let start ← here
  advance
  if (← char?).isNone then failFrom .classUnclosed start
  let negated := (← char?) == some '^'
  if negated then do
    advance
    if (← char?).isNone then failFrom .classUnclosed start
  let m ← hyphens start bound ⟨.empty (← here), []⟩
  if m.items.isEmpty && (← char?) == some ']' then do
    let m := m.add (.literal ⟨← charSpan, ']', false⟩)
    advance
    if (← char?).isNone then failFrom .classUnclosed start
    return (⟨start, ← here⟩, negated, m)
  else return (⟨start, ← here⟩, negated, m)

/-- The operator that a character and the one behind it make. -/
def operator? (c : Char) (second : Option Char) : Option ClassOperator :=
  if second ≠ some c then none
  else match c with
    | '&' => some .intersection
    | '-' => some .difference
    | '~' => some .symmetricDifference
    | _ => none

/-- A class that is open while one inside it is read. -/
structure Open where
  span : Span
  negated : Bool
  waiting : Option Waiting := none
  members : Members

/-- Reads on in an open class to the bracket that closes the outermost one. The number bounds the
members that are read. -/
def readOn : Nat → List Open → Open → Reader Expression
  | 0, _, o => fail .classUnclosed o.span
  | bound + 1, outer, o => do
    passBlanks
    match ← char? with
    | none => fail .classUnclosed o.span
    | some ']' => do
      pass
      let span : Span := ⟨o.span.start, ← here⟩
      let body := Waiting.tree o.waiting o.members
      match outer with
      | [] => return .bracketed span o.negated body
      | around :: outer =>
        let item := ClassTree.bracketed span o.negated body
        readOn bound outer { around with members := around.members.add item }
    | some '[' => do
      match named? (← get).rest with
      | some (inside, which, negated) => do
        let start ← here
        passAll (inside.length + 4)
        let item := ClassTree.named ⟨start, ← here⟩ which negated
        readOn bound outer { o with members := o.members.add item }
      | none => do
        let (span, negated, members) ← opening bound
        readOn bound (o :: outer) { span, negated, members }
    | some c =>
      match operator? c ((← get).rest.drop 1).head? with
      | some op => do
        passAll 2
        let left := Waiting.tree o.waiting o.members
        readOn bound outer { o with waiting := some ⟨op, left⟩, members := ⟨.empty (← here), []⟩ }
      | none => do
        let item ← item o.span c
        readOn bound outer { o with members := o.members.add item }

/-- What starts with a bracket. The number bounds the members that are read. -/
def read (bound : Nat) : Reader Expression := do
  let (span, negated, members) ← opening bound
  readOn bound [] { span, negated, members }

end Class

end CpuPlacement.Pattern
