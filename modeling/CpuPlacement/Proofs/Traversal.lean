import Mathlib.Data.List.Forall2

/-!
# Steps that can fail

What comes of computations that can fail, in terms of what comes of their steps: a step after
another, a check in front of the rest, and a traversal of a list that takes one step for each
element. A traversal succeeds exactly if every step does, and then its results are those of the
steps (`mapM_eq_ok_iff`).
-/

set_option autoImplicit false

namespace CpuPlacement

/-! ## One step after another -/

/-- A step succeeds when what comes before it does and it succeeds on that. -/
theorem bind_eq_ok_iff {ε α β : Type} {x : Except ε α} {f : α → Except ε β} {b : β} :
    (x >>= f) = .ok b ↔ ∃ a, x = .ok a ∧ f a = .ok b := by
  cases x <;> simp [bind, Except.bind]

/-- What follows a check is reached when the check finds nothing. -/
theorem check_eq_ok_iff {ε β : Type} {c : Prop} [Decidable c] {e : ε} {f : Unit → Except ε β}
    {b : β} :
    (if c then throw e >>= f else f ()) = .ok b ↔ ¬ c ∧ f () = .ok b := by
  by_cases hc : c
  · simp [hc, bind, Except.bind, throw, throwThe, MonadExceptOf.throw]
  · simp [hc]

/-- A check ends the computation with its error, or what follows it goes on. -/
theorem check_cases {ε β : Type} {c : Prop} [Decidable c] {e : ε} {f : Unit → Except ε β}
    {x : Except ε β} (h : (if c then throw e >>= f else f ()) = x) :
    (c ∧ x = .error e) ∨ (¬ c ∧ f () = x) := by
  split at h
  · next hc => exact Or.inl ⟨hc, h.symm⟩
  · next hc => exact Or.inr ⟨hc, h⟩

/-- What is computed of a result that there is holds of that result. -/
theorem exists_ok_of_any {ε α : Type} {x : Except ε α} {p : α → Bool}
    (h : x.toOption.any p = true) : ∃ a, x = .ok a ∧ p a = true := by
  cases x with
  | error cause => cases h
  | ok a => exact ⟨a, rfl, h⟩

/-- Another wording of the error leaves the results as they are. -/
theorem mapError_eq_ok_iff {ε ε' α : Type} {x : Except ε α} {wrap : ε → ε'} {a : α} :
    x.mapError wrap = .ok a ↔ x = .ok a := by
  cases x <;> simp [Except.mapError]

/-- A computation fails if it has no result. -/
theorem exists_error_iff {ε α : Type} {x : Except ε α} :
    (∃ e, x = .error e) ↔ ¬ ∃ a, x = .ok a := by
  cases x <;> simp

/-! ## A step for each element -/

/-- A traversal succeeds if each of its steps does. -/
theorem mapM_eq_ok_iff {ε α β : Type} {f : α → Except ε β} {xs : List α} {ys : List β} :
    xs.mapM f = .ok ys ↔ List.Forall₂ (fun x y => f x = .ok y) xs ys := by
  induction xs generalizing ys with
  | nil =>
    rw [List.mapM_nil, List.forall₂_nil_left_iff]
    exact ⟨fun h => (Except.ok.inj h).symm, fun h => h ▸ rfl⟩
  | cons x xs ih =>
    simp only [List.mapM_cons, bind_eq_ok_iff, ih, List.forall₂_cons_left_iff]
    constructor
    · rintro ⟨y, hy, rest, hrest, hys⟩
      exact ⟨y, rest, hy, hrest, (Except.ok.inj hys).symm⟩
    · rintro ⟨y, rest, hy, hrest, rfl⟩
      exact ⟨y, hy, rest, hrest, rfl⟩

/-- The results are those of the steps that succeed, since all of them do. -/
theorem mapM_eq_ok_iff_filterMap {ε α β : Type} {f : α → Except ε β} {xs : List α} {ys : List β} :
    xs.mapM f = .ok ys ↔
      (∀ x ∈ xs, ∃ y, f x = .ok y) ∧ xs.filterMap (fun x => (f x).toOption) = ys := by
  rw [mapM_eq_ok_iff]
  constructor
  · intro h
    induction h with
    | nil => exact ⟨List.forall_mem_nil _, rfl⟩
    | @cons x y xs ys hy _ ih =>
      have hstep : (f x).toOption = some y := by rw [hy, Except.toOption]
      refine ⟨List.forall_mem_cons.mpr ⟨⟨y, hy⟩, ih.1⟩, ?_⟩
      rw [List.filterMap_cons_some (f := fun x => (f x).toOption) hstep, ih.2]
  · rintro ⟨hall, rfl⟩
    induction xs with
    | nil => exact .nil
    | cons x xs ih =>
      obtain ⟨⟨y, hy⟩, hrest⟩ := List.forall_mem_cons.mp hall
      have hstep : (f x).toOption = some y := by rw [hy, Except.toOption]
      rw [List.filterMap_cons_some (f := fun x => (f x).toOption) hstep]
      exact .cons hy (ih hrest)

theorem exists_mapM_eq_ok_iff {ε α β : Type} {f : α → Except ε β} {xs : List α} :
    (∃ ys, xs.mapM f = .ok ys) ↔ ∀ x ∈ xs, ∃ y, f x = .ok y := by
  simp only [mapM_eq_ok_iff_filterMap, exists_and_left, exists_eq', and_true]

/-- Where each step is known to give a value, the traversal gives them all. -/
theorem mapM_eq_some {α β : Type} {f : α → Option β} {g : α → β} {l : List α}
    (h : ∀ a ∈ l, f a = some (g a)) : l.mapM f = some (l.map g) := by
  induction l with
  | nil => rfl
  | cons first rest ih =>
    obtain ⟨hfirst, hrest⟩ := List.forall_mem_cons.mp h
    rw [List.mapM_cons, hfirst, ih hrest]
    rfl

/-- A fold whose steps succeed or not whatever the state is. -/
theorem exists_foldlM_eq_ok_iff {ε α σ : Type} {step : σ → α → Except ε σ} {p : α → Prop}
    (hstep : ∀ s a, (∃ s', step s a = .ok s') ↔ p a) {xs : List α} {s : σ} :
    (∃ s', xs.foldlM step s = .ok s') ↔ ∀ x ∈ xs, p x := by
  induction xs generalizing s with
  | nil => exact ⟨fun _ => List.forall_mem_nil _, fun _ => ⟨s, rfl⟩⟩
  | cons x xs ih =>
    simp only [List.foldlM_cons, bind_eq_ok_iff, List.forall_mem_cons]
    constructor
    · rintro ⟨s', t, ht, hs'⟩
      exact ⟨(hstep s x).mp ⟨t, ht⟩, ih.mp ⟨s', hs'⟩⟩
    · rintro ⟨hx, hxs⟩
      obtain ⟨t, ht⟩ := (hstep s x).mpr hx
      obtain ⟨s', hs'⟩ := (ih (s := t)).mpr hxs
      exact ⟨s', t, ht, hs'⟩

/-! ## Lists element by element -/

/-- Lists that are related element by element are related at every index. -/
theorem getElem?_of_forall₂ {α β : Type} {R : α → β → Prop} {l : List α} {l' : List β}
    (h : List.Forall₂ R l l') (index : Nat) : Option.Rel R l[index]? l'[index]? := by
  induction h generalizing index with
  | nil => exact .none
  | cons hfirst _ ih =>
    cases index with
    | zero => exact .some hfirst
    | succ index => exact ih index

/-- Where no value is missing, none is left out. -/
theorem map_some_filterMap_id {α : Type} {values : List (Option α)}
    (h : ∀ value ∈ values, value.isSome = true) : (values.filterMap id).map some = values := by
  induction values with
  | nil => rfl
  | cons value values ih =>
    obtain ⟨hvalue, hvalues⟩ := List.forall_mem_cons.mp h
    obtain ⟨a, rfl⟩ := Option.isSome_iff_exists.mp hvalue
    rw [List.filterMap_cons_some (show id (some a) = some a from rfl), List.map_cons, ih hvalues]

end CpuPlacement
