import CpuPlacement.Pattern.Joining
import CpuPlacement.Pattern.Mistake

/-!
# What an expression matches

The flags that are set where a part stands decide what it matches. Characters are those of all
scripts unless the flag `u` is taken back; then a part may still match nothing but whole characters,
so what could match a byte beyond ASCII is a mistake. Properties and cases of characters beyond
ASCII are not known: to ask for them is a mistake as well.
-/

set_option autoImplicit false

namespace CpuPlacement.Pattern

/-- The flags that matter for a pattern. -/
structure Settings where
  ignoreCase : Bool := false
  multiLine : Bool := false
  dotAll : Bool := false
  swapGreed : Bool := false
  unicode : Bool := true
  crlf : Bool := false
deriving DecidableEq, Repr

namespace Settings

/-- The settings with a flag set or taken back. -/
def set (s : Settings) (flag : Flag) (value : Bool) : Settings :=
  match flag with
  | .ignoreCase => { s with ignoreCase := value }
  | .multiLine => { s with multiLine := value }
  | .dotAll => { s with dotAll := value }
  | .unicode => { s with unicode := value }
  | .crlf => { s with crlf := value }
  | .swapGreed => { s with swapGreed := value }
  | .spaced => s

/-- The settings after a change of flags. -/
def change (s : Settings) (change : FlagChange) : Settings :=
  change.foldl (fun s (flag, value) => s.set flag value) s

/-- What an assertion asks for. -/
def look (s : Settings) : Assertion → Look
  | .lineStart => if s.multiLine then .lineStart s.crlf else .textStart
  | .lineStop => if s.multiLine then .lineStop s.crlf else .textStop
  | .textStart => .textStart
  | .textStop => .textStop
  | .word edge => if s.unicode then .wideWord edge else .word edge

end Settings

/-- The mistake that it is to ask for a property. The names `cf`, `sc` and `lc` are short for a
category each as well as for a property; there it is the category that is unknown. -/
def Mistake.ofProperty (name : List Char) : Mistake :=
  let isNamed := fun (wanted : String) =>
    let name := match name with
      | 'i' :: 's' :: rest | 'I' :: 's' :: rest | 'i' :: 'S' :: rest | 'I' :: 'S' :: rest => rest
      | name => name
    let kept := name.filter fun c => c.toNat < 128 && c != ' ' && c != '_' && c != '-'
    kept.map Char.toLower == wanted.toList
  if name.contains ':' || name.contains '=' then .propertyUnknown
  else if isNamed "cf" || isNamed "sc" || isNamed "lc" then .propertyValueUnknown
  else .propertyUnknown

/-- What is found out about a part, unless the part is a mistake. -/
abbrev Result (α : Type) := Except Misreading α

namespace Settings

variable {α : Type}

def refuse (mistake : Mistake) (span : Span) : Result α := .error ⟨mistake, span, none⟩

/-- The character of a literal, if bytes are meant: it is ASCII. -/
def byteChar (l : Literal) (otherwise : Mistake) : Result Char :=
  if l.char.toNat ≤ 0x7F then .ok l.char
  else refuse (if l.asByte && l.char.toNat ≤ 0xFF then .notUtf8 else otherwise) l.span

/-- The character of a literal in a class. -/
def classChar (s : Settings) (l : Literal) : Result Char :=
  if s.unicode then .ok l.char else byteChar l .unicodeNotAllowed

/-- The members of a class with a short form. -/
def short (s : Settings) (span : Span) (which : NamedClass) (negated : Bool) : Result CharSet :=
  if s.unicode then refuse .shortClassUnavailable span
  else if negated then refuse .notUtf8 span
  else .ok which.members

/-- A property has no members that are known. -/
def property (s : Settings) (span : Span) (name : List Char) : Result CharSet :=
  refuse (if s.unicode then .ofProperty name else .unicodeNotAllowed) span

/-- The case of characters is to be ignored, and it is known for ASCII only. -/
def needsCases (s : Settings) : Bool := s.ignoreCase && s.unicode

/-- The members with their other cases, if these are to be ignored. -/
def folded (s : Settings) (members : CharSet) : CharSet :=
  if s.ignoreCase then members.bothCases else members

/-- The characters that are no members. Where bytes are meant there are some beyond ASCII. -/
def negated (s : Settings) (span : Span) (members : CharSet) : Result CharSet :=
  if s.unicode then .ok members.complement else refuse .notUtf8 span

end Settings

/-- The two classes combined. -/
def ClassOperator.apply (left right : CharSet) : ClassOperator → CharSet
  | intersection => left.inter right
  | difference => left.difference right
  | symmetricDifference => left.symmetricDifference right

mutual

/-- The part of a class names characters of its own. -/
def ClassTree.namesCharacters : ClassTree → Bool
  | .literal _ | .range _ _ _ => true
  | .union _ items => ClassTree.anyNamesCharacters items
  | .nothing _ | .named _ _ _ | .property _ _ | .short _ _ _ | .bracketed _ _ _
  | .combined _ _ _ _ => false

/-- One of the parts names characters of its own. -/
def ClassTree.anyNamesCharacters : List ClassTree → Bool
  | [] => false
  | item :: rest => item.namesCharacters || ClassTree.anyNamesCharacters rest

end

mutual

/-- The members of a part of a class. -/
def ClassTree.members (s : Settings) : ClassTree → Result CharSet
  | .nothing _ => .ok .empty
  | .literal l => return .single (← s.classChar l)
  | .range _ low high => do
    let low ← s.classChar low
    let high ← s.classChar high
    return .range low.toNat high.toNat
  | .named span which negated => do
    if s.needsCases then Settings.refuse .caseUnavailable span
    else
      let members := s.folded which.members
      if negated then s.negated span members else return members
  | .property span name => s.property span name
  | .short span which negated => s.short span which negated
  | .bracketed span negated body => do
    let members ← body.members s
    if s.needsCases && body.namesCharacters then Settings.refuse .caseUnavailable span
    else
      let members := s.folded members
      if negated then s.negated span members else return members
  | .union _ items => ClassTree.allMembers s items
  | .combined _ op left right => do
    let leftMembers ← left.members s
    let rightMembers ← right.members s
    if s.needsCases && right.namesCharacters then
      Settings.refuse .caseUnavailable right.span
    else if s.needsCases && left.namesCharacters then
      Settings.refuse .caseUnavailable left.span
    else return op.apply (s.folded leftMembers) (s.folded rightMembers)

/-- The members of all parts together. -/
def ClassTree.allMembers (s : Settings) : List ClassTree → Result CharSet
  | [] => .ok .empty
  | item :: rest => do
    let members ← item.members s
    let others ← ClassTree.allMembers s rest
    return others.union members

end

namespace Settings

/-- What a character matches that stands for itself. -/
def literal (s : Settings) (l : Literal) : Result Pattern :=
  if s.unicode then
    if s.ignoreCase then refuse .caseUnavailable l.span else .ok (.text [l.char])
  else if l.asByte && 0x7F < l.char.toNat then refuse .notUtf8 l.span
  else .ok (.ofSet (s.folded (.single l.char)) true)

/-- What a dot matches: any character of a line, or any character at all. -/
def dot (s : Settings) (span : Span) : Result Pattern :=
  if !s.unicode then refuse .notUtf8 span
  else
    let lineEnds : CharSet :=
      if s.dotAll then .empty
      else if s.crlf then .ofRanges [(0x0A, 0x0A), (0x0D, 0x0D)]
      else .single '\n'
    .ok (.ofSet lineEnds.complement false)

/-- What a class matches that has some members. -/
def ofMembers (s : Settings) (members : CharSet) : Pattern := .ofSet members !s.unicode

/-- What an atom matches. -/
def atom (s : Settings) : Atom → Result Pattern
  | .literal l => s.literal l
  | .dot span => s.dot span
  | .assertion _ what => .ok (.look (s.look what))
  | .property span name => s.ofMembers <$> s.property span name
  | .short span which negated => s.ofMembers <$> s.short span which negated

end Settings

mutual

/-- What an expression matches, and the settings behind it. -/
def Expression.meaning (s : Settings) : Expression → Result (Pattern × Settings)
  | .nothing _ => .ok (.empty, s)
  | .flags _ change => .ok (.empty, s.change change)
  | .atom a => return (← s.atom a, s)
  | .bracketed span negated body =>
    return (s.ofMembers (← (ClassTree.bracketed span negated body).members s), s)
  | .repetition _ count operand => do
    let (p, s) ← operand.meaning s
    return (p.times { count with fewFirst := count.fewFirst != s.swapGreed }, s)
  | .group _ (.plain change) body => do
    let (p, _) ← body.meaning (s.change change)
    return (p, s)
  | .group _ .captured body => do
    let (p, _) ← body.meaning s
    return (.captured p, s)
  | .alternation _ branches => do
    let (patterns, s) ← Expression.allMeanings s branches
    return (anyOf patterns, s)
  | .sequence _ parts => do
    let (patterns, s) ← Expression.allMeanings s parts
    return (inSequence patterns, s)

/-- What several expressions match; flags hold for all those behind them, even where they are
alternatives. -/
def Expression.allMeanings (s : Settings) : List Expression → Result (List Pattern × Settings)
  | [] => .ok ([], s)
  | part :: rest => do
    let (p, s) ← part.meaning s
    let (patterns, s) ← Expression.allMeanings s rest
    return (p :: patterns, s)

end

end CpuPlacement.Pattern
