import CpuPlacement.Pattern.Basic

/-!
# Patterns put together

Patterns are kept in a plain form, which says the same with fewer parts. A sequence has no sequences
and no empty texts among its parts, and no two texts side by side. Alternatives have no alternatives
among them. Where all of them are characters, or all of them sets, they are one set; and what all of
them begin with stands before them.

The statements here say that the form makes no difference to the empty text: it matches a sequence
where it matches all parts, and alternatives where it matches one of them.
-/

set_option autoImplicit false

namespace CpuPlacement.Pattern

/-- The parts of a sequence. What is no sequence is a part of its own. -/
def parts : Pattern → List Pattern
  | empty => []
  | sequence p q => p.parts ++ q.parts
  | p => [p]

/-- Puts a pattern before some parts. Two texts are one text. -/
def putBefore : Pattern → List Pattern → List Pattern
  | text s, text t :: rest => text (s ++ t) :: rest
  | p, rest => p :: rest

/-- Several patterns, one after the other. -/
def inSequence (patterns : List Pattern) : Pattern :=
  ((patterns.flatMap parts).foldr putBefore []).foldr followedBy empty

/-- The alternatives of a pattern. What has none is one of its own. -/
def alternatives : Pattern → List Pattern
  | either p q => p.alternatives ++ q.alternatives
  | p => [p]

/-- A character of a set. If there is just one it is a text, and if there is none it makes no
difference what the set is meant as. -/
def ofSet (s : CharSet) (asBytes : Bool) : Pattern :=
  match s.only? with
  | some n => text [Char.ofNat n]
  | none => one s (asBytes && !s.ranges.isEmpty)

/-- The character that the pattern is. -/
def onlyChar? : Pattern → Option Char
  | text [c] => some c
  | _ => none

/-- The set that the pattern is. -/
def onlySet? : Pattern → Option CharSet
  | one s _ => some s
  | _ => none

/-- The set that alternatives are, if all of them are characters or all of them sets. -/
def commonSet? (patterns : List Pattern) : Option CharSet :=
  match patterns.mapM onlyChar? with
  | some chars => some (.ofRanges (chars.map fun c => (c.toNat, c.toNat)))
  | none => (patterns.mapM onlySet?).map fun sets => sets.foldl CharSet.union .empty

/-- One of several patterns, of which the first is to be tried first. -/
def firstOf : List Pattern → Pattern
  | [] => one .empty false
  | [p] => p
  | p :: rest => either p (firstOf rest)

/-- One of several patterns, none of which has alternatives. -/
def oneOf (patterns : List Pattern) : Pattern :=
  match patterns with
  | [p] => p
  | patterns =>
    match commonSet? patterns with
    | some s => ofSet s false
    | none => firstOf patterns

/-- The parts that two sequences begin with. What is kept of a match is kept apart, so parts that
keep something are never the same. -/
def commonStart : List Pattern → List Pattern → List Pattern
  | p :: ps, q :: qs => if p = q ∧ !p.captures then p :: commonStart ps qs else []
  | _, _ => []

/-- The parts that all of several patterns begin with, if all of them are sequences. -/
def commonParts (patterns : List Pattern) : List Pattern :=
  match patterns.map parts with
  | [] | [_] => []
  | first :: others =>
    if (first :: others).all (1 < ·.length) then others.foldl commonStart first else []

/-- One of several patterns. -/
def anyOf (patterns : List Pattern) : Pattern :=
  let patterns := patterns.flatMap alternatives
  match commonParts patterns with
  | [] => oneOf patterns
  | common =>
    let rests := patterns.map fun p => inSequence (p.parts.drop common.length)
    inSequence (common ++ [oneOf (rests.flatMap alternatives)])

/-- Repetitions of a pattern. Nothing is gained from repeating the empty text. -/
def times (p : Pattern) (count : Count) : Pattern :=
  let (least, most) :=
    if p.isEmptyOnly then (min count.least 1, some (min (count.most.getD 1) 1))
    else (count.least, count.most)
  if most = some 0 then empty
  else if least = 1 ∧ most = some 1 then p
  else repeated p least most count.fewFirst

variable (before after : Option Char)

theorem all_matchesEmpty_parts (p : Pattern) :
    p.parts.all (·.matchesEmpty before after) = p.matchesEmpty before after := by
  induction p <;> simp_all [parts, matchesEmpty]

/-- A part that is merged with the next one matches as the two of them do. -/
theorem all_matchesEmpty_putBefore (p : Pattern) (rest : List Pattern) :
    (putBefore p rest).all (·.matchesEmpty before after)
      = (p.matchesEmpty before after && rest.all (·.matchesEmpty before after)) := by
  fun_cases putBefore p rest with
  | case1 s t rest => cases s <;> simp [matchesEmpty]
  | case2 => rfl

/-- The empty text matches a sequence where it matches all of the parts. -/
theorem matchesEmpty_inSequence (patterns : List Pattern) :
    (inSequence patterns).matchesEmpty before after
      = patterns.all (·.matchesEmpty before after) := by
  have joined (rest : List Pattern) :
      (rest.foldr followedBy empty).matchesEmpty before after
        = rest.all (·.matchesEmpty before after) := by
    induction rest with
    | nil => rfl
    | cons p rest ih => simp [matchesEmpty_followedBy, ih]
  have merged (rest : List Pattern) :
      (rest.foldr putBefore []).all (·.matchesEmpty before after)
        = rest.all (·.matchesEmpty before after) := by
    induction rest with
    | nil => rfl
    | cons p rest ih => simp [all_matchesEmpty_putBefore, ih]
  rw [inSequence, joined, merged]
  induction patterns with
  | nil => rfl
  | cons p patterns ih => simp [all_matchesEmpty_parts, ih]

/-- Of alternatives one is enough for the empty text. -/
theorem matchesEmpty_firstOf (patterns : List Pattern) :
    (firstOf patterns).matchesEmpty before after
      = patterns.any (·.matchesEmpty before after) := by
  fun_induction firstOf patterns <;> simp_all [matchesEmpty]

theorem any_matchesEmpty_alternatives (p : Pattern) :
    p.alternatives.any (·.matchesEmpty before after) = p.matchesEmpty before after := by
  induction p <;> simp_all [alternatives, matchesEmpty]

end CpuPlacement.Pattern
