import CpuPlacement.Sorted
import Mathlib.Data.List.Destutter
import Mathlib.Data.List.Forall2

/-!
# Repeats in sorted lists

`withoutRepeats` compares neighbours only, so an element that comes again after another one stays
twice. Whether that happens in a sorted list can be told from the list before it was sorted, because
elements that compare equal stay in their order: an element is left twice exactly when it recurs,
that is, when it comes again after another one that compares equal to it
(`pairwise_withoutRepeats_sortedBy_iff`).
-/

set_option autoImplicit false

namespace CpuPlacement

variable {α : Type} {l : List α}

/-! ## Dropping repeats -/

section Repeats

variable {same : α → α → Bool}

/-- With the element before them the ones that are kept are those of the library's `destutter'`. -/
theorem cons_dropRepeats_eq (last : α) (l : List α) :
    last :: dropRepeats same last l = l.destutter' (fun a b => same a b = false) last := by
  induction l generalizing last with
  | nil => rfl
  | cons next rest ih =>
    rw [dropRepeats, List.destutter']
    cases hsame : same last next with
    | true => simpa [hsame] using ih last
    | false => simp [ih next]

/-- What is left without repeats is what the library's `destutter` leaves. -/
theorem withoutRepeats_eq_destutter (l : List α) :
    withoutRepeats same l = l.destutter fun a b => same a b = false := by
  cases l with
  | nil => rfl
  | cons first rest => exact cons_dropRepeats_eq first rest

/-- Nothing is added and nothing changes places. -/
theorem withoutRepeats_sublist (l : List α) : (withoutRepeats same l).Sublist l := by
  rw [withoutRepeats_eq_destutter]
  exact l.destutter_sublist _

/-- Neighbours are never the same. -/
theorem isChain_withoutRepeats (l : List α) :
    (withoutRepeats same l).IsChain fun a b => same a b = false := by
  rw [withoutRepeats_eq_destutter]
  exact l.isChain_destutter _

/-- Of two elements of a chain in this order, the first is related to the second or to one between
the two. -/
theorem exists_between_of_isChain {R : α → α → Prop} (hchain : l.IsChain R) {a c : α}
    (h : [a, c].Sublist l) : R a c ∨ ∃ b, [a, b, c].Sublist l ∧ R a b := by
  induction l with
  | nil => cases h
  | cons first rest ih =>
    rcases List.sublist_cons_iff.mp h with hrest | ⟨_, heq, hlater⟩
    · rcases ih hchain.tail hrest with hdirect | ⟨b, hsub, hrel⟩
      · exact .inl hdirect
      · exact .inr ⟨b, hsub.cons first, hrel⟩
    · obtain ⟨rfl, rfl⟩ := List.cons.inj heq
      cases rest with
      | nil => cases hlater
      | cons next later =>
        have hnext : R a next := (List.isChain_cons_cons.mp hchain).1
        rcases List.mem_cons.mp (List.singleton_sublist.mp hlater) with rfl | hc
        · exact .inl hnext
        · exact .inr ⟨next, ((List.singleton_sublist.mpr hc).cons_cons next).cons_cons a, hnext⟩

variable (hsame : Equivalence fun a b => same a b = true)

include hsame

/-- Elements that are picked from a list, no two neighbours the same, are picked from what is left
of it as well, each replaced by one that is the same. -/
theorem exists_sublist_dropRepeats (last : α) {picked : List α}
    (hpicked : picked.Sublist (last :: l)) (hchain : picked.IsChain fun a b => same a b = false) :
    ∃ left, left.Sublist (last :: dropRepeats same last l) ∧
      List.Forall₂ (fun a b => same a b = true) picked left := by
  have hrefl : ∀ elements : List α, List.Forall₂ (fun a b => same a b = true) elements elements :=
    fun elements => List.forall₂_same.mpr fun a _ => hsame.refl a
  induction l generalizing last picked with
  | nil => exact ⟨picked, hpicked, hrefl picked⟩
  | cons next rest ih =>
    rw [dropRepeats]
    cases hnext : same last next with
    | false =>
      rw [if_neg Bool.false_ne_true]
      rcases List.sublist_cons_iff.mp hpicked with hlater | ⟨others, rfl, hlater⟩
      · obtain ⟨left, hleft, hagree⟩ := ih next hlater hchain
        exact ⟨left, hleft.cons last, hagree⟩
      · obtain ⟨left, hleft, hagree⟩ := ih next hlater hchain.tail
        exact ⟨last :: left, hleft.cons_cons last, .cons (hsame.refl last) hagree⟩
    | true =>
      rw [if_pos rfl]
      rcases List.sublist_cons_iff.mp hpicked with hlater | ⟨others, rfl, hlater⟩
      · rcases List.sublist_cons_iff.mp hlater with hrest | ⟨others, rfl, hrest⟩
        · exact ih last (hrest.cons last) hchain
        · -- the element that is dropped was picked: the one before it stands in for it
          have hchain' : (last :: others).IsChain fun a b => same a b = false := by
            cases others with
            | nil => exact .singleton last
            | cons other others =>
              obtain ⟨hother, hothers⟩ := List.isChain_cons_cons.mp hchain
              refine .cons_cons (Bool.eq_false_iff.mpr fun hlast => ?_) hothers
              have hagain : same next other = true := hsame.trans (hsame.symm hnext) hlast
              rw [hother] at hagain
              cases hagain
          obtain ⟨left, hleft, hagree⟩ := ih last (hrest.cons_cons last) hchain'
          cases hagree with
          | cons hfirst hothers =>
            exact ⟨_, hleft, .cons (hsame.trans (hsame.symm hnext) hfirst) hothers⟩
      · rcases List.sublist_cons_iff.mp hlater with hrest | ⟨others, rfl, hrest⟩
        · exact ih last (hrest.cons_cons last) hchain
        · rw [(List.isChain_cons_cons.mp hchain).1] at hnext
          cases hnext

/-- Elements of the list that differ one by one are still there, up to the ones that count as the
same. -/
theorem exists_sublist_withoutRepeats {picked : List α} (hpicked : picked.Sublist l)
    (hchain : picked.IsChain fun a b => same a b = false) :
    ∃ left, left.Sublist (withoutRepeats same l) ∧
      List.Forall₂ (fun a b => same a b = true) picked left := by
  cases l with
  | nil =>
    obtain rfl := List.sublist_nil.mp hpicked
    exact ⟨[], List.nil_sublist _, .nil⟩
  | cons first rest => exact exists_sublist_dropRepeats hsame first hpicked hchain

/-- Of every element one that is the same is left. -/
theorem exists_same_withoutRepeats {a : α} (ha : a ∈ l) :
    ∃ b ∈ withoutRepeats same l, same a b = true := by
  obtain ⟨left, hleft, hagree⟩ :=
    exists_sublist_withoutRepeats hsame (List.singleton_sublist.mpr ha) (.singleton a)
  cases hagree with
  | cons hfirst hnil =>
    cases hnil
    exact ⟨_, List.singleton_sublist.mp hleft, hfirst⟩

/-- An element is left twice exactly when it comes again after another one. -/
theorem pairwise_withoutRepeats_iff :
    (withoutRepeats same l).Pairwise (fun a b => same a b = false) ↔
      ∀ a b c, [a, b, c].Sublist l → same a c = true → same a b = true := by
  constructor
  · intro hpairwise a b c hsub hac
    by_contra hab
    have hab : same a b = false := Bool.eq_false_iff.mpr hab
    have hbc : same b c = false := by
      refine Bool.eq_false_iff.mpr fun hbc => ?_
      have hagain : same a b = true := hsame.trans hac (hsame.symm hbc)
      rw [hab] at hagain
      cases hagain
    -- all three are left in some form, so the ends are two elements that are the same
    obtain ⟨left, hleft, hagree⟩ :=
      exists_sublist_withoutRepeats hsame hsub (.cons_cons hab (.cons_cons hbc (.singleton c)))
    obtain ⟨a', b', c', rfl⟩ : ∃ a' b' c', left = [a', b', c'] :=
      List.length_eq_three.mp hagree.length_eq.symm
    simp only [List.forall₂_cons] at hagree
    obtain ⟨ha, -, hc, -⟩ := hagree
    have hfar : [a', c'].Sublist (withoutRepeats same l) :=
      (((List.Sublist.refl [c']).cons b').cons_cons a').trans hleft
    have hends : same a' c' = true := hsame.trans (hsame.symm ha) (hsame.trans hac hc)
    rw [List.pairwise_iff_forall_sublist.mp hpairwise hfar] at hends
    cases hends
  · intro hnone
    refine List.pairwise_iff_forall_sublist.mpr fun {a c} hpair => ?_
    rcases exists_between_of_isChain (isChain_withoutRepeats l) hpair with hdirect | ⟨b, hsub, hab⟩
    · exact hdirect
    · refine Bool.eq_false_iff.mpr fun hac => ?_
      rw [hnone a b c (hsub.trans (withoutRepeats_sublist l)) hac] at hab
      cases hab

end Repeats

/-! ## Sorting -/

theorem mem_sortedBy {cmp : α → α → Ordering} {a : α} : a ∈ sortedBy cmp l ↔ a ∈ l :=
  List.mem_mergeSort

/-- Elements can be compared by what a function makes of them. -/
theorem transCmp_on {β : Type} (cmp : β → β → Ordering) [Std.TransCmp cmp] (f : α → β) :
    Std.TransCmp fun a b => cmp (f a) (f b) where
  eq_swap := Std.OrientedCmp.eq_swap
  isLE_trans := Std.TransCmp.isLE_trans

section Sorting

variable {cmp : α → α → Ordering} [Std.TransCmp cmp]

theorem isLE_total (a b : α) : ((cmp a b).isLE || (cmp b a).isLE) = true := by
  have hswap : cmp b a = (cmp a b).swap := Std.OrientedCmp.eq_swap
  rw [hswap]
  cases cmp a b <;> rfl

theorem pairwise_sortedBy (l : List α) :
    (sortedBy cmp l).Pairwise fun a b => (cmp a b).isLE = true :=
  List.pairwise_mergeSort (fun _ _ _ => Std.TransCmp.isLE_trans) isLE_total l

/-- Elements that are in order already stay so. -/
theorem sublist_sortedBy {picked : List α} (hpicked : picked.Sublist l)
    (hordered : picked.Pairwise fun a b => (cmp a b).isLE = true) :
    picked.Sublist (sortedBy cmp l) :=
  List.sublist_mergeSort (fun _ _ _ => Std.TransCmp.isLE_trans) isLE_total hordered hpicked

/-- Where no two of them compare equal, sorted elements ascend strictly. -/
theorem pairwise_lt_sortedBy (hdiffer : l.Pairwise fun a b => cmp a b ≠ .eq) :
    (sortedBy cmp l).Pairwise fun a b => cmp a b = .lt := by
  have hsymm : ∀ {a b : α}, cmp a b ≠ .eq → cmp b a ≠ .eq :=
    fun hne heq => hne (Std.OrientedCmp.eq_symm heq)
  have hsorted : (sortedBy cmp l).Pairwise fun a b => cmp a b ≠ .eq :=
    hdiffer.perm (List.mergeSort_perm l _).symm hsymm
  refine ((pairwise_sortedBy l).and hsorted).imp fun {a b} hab => ?_
  exact (Ordering.isLE_iff_eq_lt_or_eq_eq.mp hab.1).resolve_right hab.2

/-- The smaller of two elements comes first. -/
theorem pair_sublist_sortedBy {a b : α} (ha : a ∈ l) (hb : b ∈ l) (hlt : cmp a b = .lt) :
    [a, b].Sublist (sortedBy cmp l) := by
  have ha' : a ∈ sortedBy cmp l := mem_sortedBy.mpr ha
  have hb' : b ∈ sortedBy cmp l := mem_sortedBy.mpr hb
  have hordered : (sortedBy cmp l).Pairwise fun a b => (cmp a b).isLE = true := pairwise_sortedBy l
  obtain ⟨front, back, hsplit⟩ := List.append_of_mem ha'
  rw [hsplit] at hb' hordered ⊢
  have hgt : cmp b a = .gt := Std.OrientedCmp.gt_of_lt hlt
  rcases List.mem_append.mp hb' with hfront | hback
  · have hle := (List.pairwise_append.mp hordered).2.2 b hfront a List.mem_cons_self
    rw [hgt] at hle
    cases hle
  · rcases List.mem_cons.mp hback with rfl | hback
    · have hrefl : cmp b b = .eq := Std.ReflCmp.compare_self
      cases hrefl.symm.trans hlt
    · exact ((List.singleton_sublist.mpr hback).cons_cons a).trans (List.sublist_append_right _ _)

/-- Elements that compare equal are in the order in which they were listed. -/
theorem filter_sortedBy {p : α → Bool} (hp : ∀ a b, p a = true → p b = true → cmp a b = .eq)
    (l : List α) : (sortedBy cmp l).filter p = l.filter p := by
  have hordered : (l.filter p).Pairwise fun a b => (cmp a b).isLE = true := by
    refine List.pairwise_of_forall_mem_list fun a ha b hb => ?_
    rw [hp a b (List.mem_filter.mp ha).2 (List.mem_filter.mp hb).2]
    rfl
  have hsub : (l.filter p).Sublist ((sortedBy cmp l).filter p) := by
    have hkept := (sublist_sortedBy (List.filter_sublist (p := p)) hordered).filter p
    rwa [List.filter_filter, funext fun a => Bool.and_self (p a)] at hkept
  exact (hsub.eq_of_length ((List.mergeSort_perm l _).filter p).length_eq.symm).symm

/-- An element comes again after another one that compares equal to it. -/
def Recurs (cmp : α → α → Ordering) (same : α → α → Bool) (l : List α) : Prop :=
  ∃ a b c, [a, b, c].Sublist l ∧ same a c = true ∧ same a b = false ∧ cmp a b = .eq

/-- Sorted by an order in which elements that are the same compare equal, a list has every element
once after dropping repeats exactly if none recurred in it. -/
theorem pairwise_withoutRepeats_sortedBy_iff {same : α → α → Bool}
    (hsame : Equivalence fun a b => same a b = true)
    (hcmp : ∀ a b, same a b = true → cmp a b = .eq) :
    (withoutRepeats same (sortedBy cmp l)).Pairwise (fun a b => same a b = false) ↔
      ¬ Recurs cmp same l := by
  rw [pairwise_withoutRepeats_iff hsame]
  constructor
  · rintro hnone ⟨a, b, c, hsub, hac, hab, hequal⟩
    have hends : cmp a c = .eq := hcmp a c hac
    have hlast : cmp b c = .eq := (Std.TransCmp.congr_left hequal).symm.trans hends
    have hordered : [a, b, c].Pairwise fun x y => (cmp x y).isLE = true := by
      simp [hequal, hends, hlast]
    rw [hnone a b c (sublist_sortedBy hsub hordered) hac] at hab
    cases hab
  · intro hnot a b c hsub hac
    by_contra hab
    have hends : cmp a c = .eq := hcmp a c hac
    have hordered := (pairwise_sortedBy l).sublist hsub
    simp only [List.pairwise_cons, List.mem_cons, List.not_mem_nil, or_false, forall_eq_or_imp,
      forall_eq] at hordered
    obtain ⟨⟨hleft, -⟩, hright, -⟩ := hordered
    have hequal : cmp a b = .eq := by
      rw [← Std.TransCmp.congr_right hends] at hright
      exact Std.OrientedCmp.isLE_antisymm hleft hright
    -- all three compare equal to the first, and such elements were not moved past each other
    let p := fun x => cmp a x == .eq
    have hp : ∀ x y, p x = true → p y = true → cmp x y = .eq := fun x y hx hy =>
      (Std.TransCmp.congr_left (beq_iff_eq.mp hx)).symm.trans (beq_iff_eq.mp hy)
    have hpicked : [a, b, c].filter p = [a, b, c] := by
      simp [p, hequal, hends, hcmp a a (hsame.refl a)]
    have hlisted : [a, b, c].Sublist l := by
      have hkept := hsub.filter p
      rw [hpicked, filter_sortedBy hp] at hkept
      exact hkept.trans List.filter_sublist
    exact hnot ⟨a, b, c, hlisted, hac, Bool.eq_false_iff.mpr hab, hequal⟩

end Sorting

end CpuPlacement
