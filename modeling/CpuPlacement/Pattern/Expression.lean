import CpuPlacement.Pattern.Named
import CpuPlacement.Pattern.Place

/-!
# Expressions

An expression is the text of a pattern as it is built up: characters and classes, assertions about a
place, repetitions, groups, sequences and alternatives. Every part knows where it stands. What it
matches is not said here, since that depends on the flags that are set where it stands.
-/

set_option autoImplicit false

namespace CpuPlacement.Pattern

/-- A character that stands for itself. -/
structure Literal where
  span : Span
  char : Char
  /-- It is written as the two hexadecimal digits of a byte. -/
  asByte : Bool := false
deriving DecidableEq, Repr

/-- What is asked of the characters to both sides of a place: `start` and `stop` are the two edges
of a word, the half edges look at one side only. -/
inductive WordEdge where
  | boundary
  | inside
  | start
  | stop
  | halfStart
  | halfStop
deriving DecidableEq, Hashable, Repr

/-- A condition on a place. -/
inductive Assertion where
  | lineStart
  | lineStop
  | textStart
  | textStop
  | word (edge : WordEdge)
deriving DecidableEq, Repr

/-- The smallest parts of an expression. -/
inductive Atom where
  | literal (l : Literal)
  | dot (span : Span)
  | assertion (span : Span) (what : Assertion)
  /-- A property of Unicode, by its name. -/
  | property (span : Span) (name : List Char)
  | short (span : Span) (which : NamedClass) (negated : Bool)
deriving DecidableEq, Repr

/-- Where the atom stands. -/
def Atom.span : Atom → Span
  | literal l => l.span
  | dot span | assertion span _ | property span _ | short span _ _ => span

/-- An operator between two classes. -/
inductive ClassOperator where
  | intersection
  | difference
  | symmetricDifference
deriving DecidableEq, Repr

/-- What stands between brackets. -/
inductive ClassTree where
  | nothing (span : Span)
  | literal (l : Literal)
  | range (span : Span) (low high : Literal)
  | named (span : Span) (which : NamedClass) (negated : Bool)
  | property (span : Span) (name : List Char)
  | short (span : Span) (which : NamedClass) (negated : Bool)
  | bracketed (span : Span) (negated : Bool) (body : ClassTree)
  | union (span : Span) (items : List ClassTree)
  | combined (span : Span) (op : ClassOperator) (left right : ClassTree)

/-- Where the part of the class stands. -/
def ClassTree.span : ClassTree → Span
  | nothing span | range span _ _ | named span _ _ | property span _ | short span _ _
  | bracketed span _ _ | union span _ | combined span _ _ _ => span
  | literal l => l.span

/-- A setting for what follows. -/
inductive Flag where
  | ignoreCase
  | multiLine
  | dotAll
  | swapGreed
  | unicode
  | crlf
  | spaced
deriving DecidableEq, Repr

/-- The flag of a letter. -/
def Flag.ofLetter? (c : Char) : Option Flag :=
  match c with
  | 'i' => some ignoreCase
  | 'm' => some multiLine
  | 's' => some dotAll
  | 'U' => some swapGreed
  | 'u' => some unicode
  | 'R' => some crlf
  | 'x' => some spaced
  | _ => none

/-- Flags with what they are set to. -/
abbrev FlagChange := List (Flag × Bool)

/-- What the flag is set to, unless it keeps its value. -/
def FlagChange.of? (change : FlagChange) (flag : Flag) : Option Bool :=
  (change.find? (·.1 = flag)).map (·.2)

/-- What kind of group parentheses are. -/
inductive GroupKind where
  /-- What the group matches can be asked for, by its number or by a name. -/
  | captured
  /-- The group has flags of its own. -/
  | plain (change : FlagChange)
deriving DecidableEq, Repr

/-- How often something is repeated. -/
structure Count where
  least : Nat
  /-- There is no limit where there is no number. -/
  most : Option Nat
  /-- Few repetitions are tried before many. -/
  fewFirst : Bool := false
deriving DecidableEq, Repr

/-- A pattern as it is written. -/
inductive Expression where
  | nothing (span : Span)
  /-- Flags for what follows. -/
  | flags (span : Span) (change : FlagChange)
  | atom (a : Atom)
  | bracketed (span : Span) (negated : Bool) (body : ClassTree)
  | repetition (span : Span) (count : Count) (operand : Expression)
  | group (span : Span) (kind : GroupKind) (body : Expression)
  | alternation (span : Span) (branches : List Expression)
  | sequence (span : Span) (parts : List Expression)

/-- Where the expression stands. -/
def Expression.span : Expression → Span
  | nothing span | flags span _ | bracketed span _ _ | repetition span _ _ | group span _ _
  | alternation span _ | sequence span _ => span
  | atom a => a.span

end CpuPlacement.Pattern
