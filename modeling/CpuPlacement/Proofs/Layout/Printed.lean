import CpuPlacement.Layout.Basic
import CpuPlacement.Proofs.Text.Numeral

/-!
# Layouts are told apart by their texts

The text of a descriptor is made of fixed words, numbers and parts that may be missing. Read from
the left, each of these ends where it can be seen to end, whatever comes behind the text: a number
at the first character that is no digit, and a part is missing if the text does not go on with its
first word (`Descriptor.optionalPart_append_inj`). So a text that starts with a descriptor starts
with no other one (`Descriptor.text_append_inj`), and a listing can be taken apart line by line.
-/

set_option autoImplicit false

namespace CpuPlacement

namespace Descriptor

open Numeral (EndsNumber toString_append_inj)

/-! ## One descriptor -/

/-- What follows a part tells whether the part is there, unless it goes on as the part begins. -/
theorem optionalPart_append_inj {before after : String} {value value' : Option Nat}
    {rest rest' : List Char} (hends : EndsNumber (after.toList ++ rest))
    (hends' : EndsNumber (after.toList ++ rest')) (hother : ¬ before.toList <+: rest)
    (hother' : ¬ before.toList <+: rest')
    (h : (optionalPart before value after).toList ++ rest =
      (optionalPart before value' after).toList ++ rest') : value = value' ∧ rest = rest' := by
  cases value with
  | none =>
    cases value' with
    | none => exact ⟨rfl, h⟩
    | some n' =>
      refine absurd ?_ hother
      simp only [optionalPart, String.toList_append, String.toList_empty, List.nil_append,
        List.append_assoc] at h
      exact ⟨_, h.symm⟩
  | some n =>
    simp only [optionalPart, String.toList_append, List.append_assoc] at h
    cases value' with
    | none => exact absurd ⟨_, h⟩ hother'
    | some n' =>
      simp only [String.toList_append, List.append_assoc] at h
      obtain ⟨rfl, hrest⟩ := toString_append_inj hends hends' (List.append_cancel_left h)
      exact ⟨rfl, List.append_cancel_left hrest⟩

/-- The text of a descriptor from the NUMA node on, and what comes behind it. -/
def ending (d : Descriptor) (rest : List Char) : List Char :=
  (optionalPart ", numaId=" d.nodeId "").toList ++
    ((optionalPart ", groupId=" d.groupId "").toList ++ ("\x7d".toList ++ rest))

/-- The text of a descriptor, field by field, with what comes behind it. -/
theorem toList_text_append (d : Descriptor) (rest : List Char) :
    d.text.toList ++ rest = "CpuInfo\x7b".toList ++
      ((optionalPart "apicId=" d.apicId ", ").toList ++ ("socketId=".toList ++
        ((toString d.socketId).toList ++ (", coreId=".toList ++
          ((toString d.coreId).toList ++ (", threadId=".toList ++
            ((toString d.threadId).toList ++ d.ending rest))))))) := by
  have hword (word : String) : toString word = word := rfl
  simp only [text, ending, hword, String.toList_append, List.append_assoc]

/-- The end of a text tells node and group apart from what comes behind. -/
theorem ending_inj {d d' : Descriptor} {rest rest' : List Char}
    (h : d.ending rest = d'.ending rest') :
    d.nodeId = d'.nodeId ∧ d.groupId = d'.groupId ∧ rest = rest' := by
  have hbrace (rest : List Char) : EndsNumber ("".toList ++ ("\x7d".toList ++ rest)) := by
    simp [EndsNumber]
  have hgroup (rest : List Char) : ¬ ", groupId=".toList <+: "\x7d".toList ++ rest := by
    simp
  have hends (group : Option Nat) (rest : List Char) : EndsNumber ("".toList ++
      ((optionalPart ", groupId=" group "").toList ++ ("\x7d".toList ++ rest))) := by
    cases group <;> simp [EndsNumber, optionalPart]
  have hnode (group : Option Nat) (rest : List Char) : ¬ ", numaId=".toList <+:
      (optionalPart ", groupId=" group "").toList ++ ("\x7d".toList ++ rest) := by
    cases group <;> simp [optionalPart]
  rw [ending, ending] at h
  obtain ⟨hsameNode, h⟩ :=
    optionalPart_append_inj (hends _ _) (hends _ _) (hnode _ _) (hnode _ _) h
  obtain ⟨hsameGroup, h⟩ :=
    optionalPart_append_inj (hbrace _) (hbrace _) (hgroup _) (hgroup _) h
  exact ⟨hsameNode, hsameGroup, List.append_cancel_left h⟩

/-- A text that starts with a descriptor starts with no other one. -/
theorem text_append_inj {d d' : Descriptor} {rest rest' : List Char}
    (h : d.text.toList ++ rest = d'.text.toList ++ rest') : d = d' ∧ rest = rest' := by
  have hapic (rest : List Char) : ¬ "apicId=".toList <+: "socketId=".toList ++ rest := by
    simp
  have hcomma {word : String} (hword : word.toList.head? = some ',') (rest : List Char) :
      EndsNumber (word.toList ++ rest) := by
    simp [EndsNumber, List.head?_append, hword]
  have hending (d : Descriptor) (rest : List Char) : EndsNumber (d.ending rest) := by
    cases hnode : d.nodeId <;> cases hgroup : d.groupId <;>
      simp [EndsNumber, ending, optionalPart, hnode, hgroup]
  -- the fields are peeled off from the front, each ending where no digit can follow
  rw [toList_text_append, toList_text_append] at h
  obtain ⟨hsameApic, h⟩ := optionalPart_append_inj (hcomma (by simp) _) (hcomma (by simp) _)
    (hapic _) (hapic _) (List.append_cancel_left h)
  obtain ⟨hsocket, h⟩ := toString_append_inj (hcomma (by simp) _) (hcomma (by simp) _)
    (List.append_cancel_left h)
  obtain ⟨hcore, h⟩ := toString_append_inj (hcomma (by simp) _) (hcomma (by simp) _)
    (List.append_cancel_left h)
  obtain ⟨hthread, h⟩ := toString_append_inj (hending _ _) (hending _ _)
    (List.append_cancel_left h)
  obtain ⟨hsameNode, hsameGroup, hrest⟩ := ending_inj h
  refine ⟨?_, hrest⟩
  cases d
  cases d'
  simp_all

/-! ## Listings -/

/-- The lines of CPUs that are numbered from a first one on. -/
def linesFrom (first : Nat) (cpus : List Descriptor) : List Char :=
  (cpus.zipIdx first).flatMap fun (d, cpu) => (s!"{cpu}: {d.text}\n").toList

theorem toList_listing (cpus : List Descriptor) :
    (listing cpus).toList = linesFrom 0 cpus := by
  rw [listing, String.toList_join, List.flatMap_map, linesFrom]

/-- The first line has the first number, and the others go on from there. -/
theorem linesFrom_cons (first : Nat) (d : Descriptor) (cpus : List Descriptor) :
    linesFrom first (d :: cpus) = (toString first).toList ++ (": ".toList ++
      (d.text.toList ++ ("\n".toList ++ linesFrom (first + 1) cpus))) := by
  have hword (word : String) : toString word = word := rfl
  simp only [linesFrom, List.zipIdx_cons, List.flatMap_cons, hword, String.toList_append,
    List.append_assoc]

/-- Lines that are numbered alike say which descriptors they are of. -/
theorem linesFrom_inj {first : Nat} {cpus cpus' : List Descriptor}
    (h : linesFrom first cpus = linesFrom first cpus') : cpus = cpus' := by
  induction cpus generalizing first cpus' with
  | nil =>
    cases cpus' with
    | nil => rfl
    | cons d' cpus' =>
      rw [linesFrom_cons] at h
      simp [linesFrom] at h
  | cons d cpus ih =>
    cases cpus' with
    | nil =>
      rw [linesFrom_cons] at h
      simp [linesFrom] at h
    | cons d' cpus' =>
      rw [linesFrom_cons, linesFrom_cons] at h
      have hnumbered := List.append_cancel_left (List.append_cancel_left h)
      obtain ⟨rfl, hrest⟩ := text_append_inj hnumbered
      rw [ih (List.append_cancel_left hrest)]

end Descriptor

/-- Descriptor lists have one listing only if they are equal, so two layouts describe the same
machine exactly if they have one text. -/
theorem listing_determines_layout :
    (∀ cpus cpus' : List Descriptor,
      Descriptor.listing cpus = Descriptor.listing cpus' ↔ cpus = cpus') ∧
    ∀ a b : Layout, a.sameMachine b = true ↔ a.text = b.text := by
  have hlisting (cpus cpus' : List Descriptor) :
      Descriptor.listing cpus = Descriptor.listing cpus' ↔ cpus = cpus' := by
    constructor
    · intro h
      have hlines : Descriptor.linesFrom 0 cpus = Descriptor.linesFrom 0 cpus' := by
        rw [← Descriptor.toList_listing, h, Descriptor.toList_listing]
      exact Descriptor.linesFrom_inj hlines
    · exact congrArg Descriptor.listing
  refine ⟨hlisting, fun a b => ?_⟩
  rw [Layout.sameMachine, beq_iff_eq, Layout.text, Layout.text, hlisting]

end CpuPlacement
