import CpuPlacement.Proofs.Text.Blank
import CpuPlacement.Text.Numeral
import Mathlib.Data.List.Basic

/-!
# What numerals write

A numeral writes the number of its digits, with any number of zeros and possibly a plus sign in
front. It is read as that number exactly if the number lies below the limit
(`Numeral.read_eq_ok_iff`). The digits of a number that is written out write it again
(`Numeral.decimal?_toString`), and end where a character comes that is no digit
(`Numeral.toString_append_inj`). Where numerals may have blanks around them, they hold nothing but
blanks, digits and plus signs (`Numeral.Padded.not_mem`).
-/

set_option autoImplicit false

namespace CpuPlacement.Numeral

/-! ## Digits -/

/-- The number of a text that holds nothing but digits, and at least one. -/
def decimal? (digits : List Char) : Option Nat :=
  if !digits.isEmpty && digits.all Char.isDigit then some (Nat.ofDigitChars 10 digits 0) else none

/-- A number is read of digits, at least one, and it is the one that they write. -/
theorem decimal?_eq_some_iff {digits : List Char} {n : Nat} :
    decimal? digits = some n ↔ digits ≠ [] ∧ (∀ c ∈ digits, c.isDigit = true) ∧
      Nat.ofDigitChars 10 digits 0 = n := by
  rw [decimal?, Option.ite_none_right_eq_some, Option.some.injEq, Bool.and_eq_true,
    Bool.not_eq_true', List.isEmpty_eq_false_iff, List.all_eq_true, and_assoc]

/-- A number is read back from its digits. -/
theorem decimal?_toString (n : Nat) : decimal? (toString n).toList = some n := by
  rw [Nat.toString_eq_ofList_toDigits, String.toList_ofList, decimal?_eq_some_iff]
  exact ⟨Nat.toDigits_ne_nil, fun c hc => Nat.isDigit_of_mem_toDigits (by decide) (by decide) hc,
    Nat.ofDigitChars_ten_toDigits⟩

theorem isDigit_of_mem_toString {n : Nat} {c : Char} (hc : c ∈ (toString n).toList) :
    c.isDigit = true :=
  (decimal?_eq_some_iff.mp (decimal?_toString n)).2.1 c hc

/-! ## Numbers in a text -/

/-- The text does not go on with a digit. -/
def EndsNumber (rest : List Char) : Prop :=
  ∀ c ∈ rest.head?, c.isDigit = false

/-- The digits of a number end where something else begins. -/
theorem takeWhile_toString_append (n : Nat) {rest : List Char} (h : EndsNumber rest) :
    ((toString n).toList ++ rest).takeWhile Char.isDigit = (toString n).toList := by
  rw [List.takeWhile_append_of_pos fun _ => isDigit_of_mem_toString]
  cases rest with
  | nil => rw [List.takeWhile_nil, List.append_nil]
  | cons c rest =>
    rw [List.takeWhile_cons_of_neg (Bool.eq_false_iff.mp (h c rfl)), List.append_nil]

/-- Where the number ends can be seen. -/
theorem toString_append_inj {n m : Nat} {rest rest' : List Char} (h : EndsNumber rest)
    (h' : EndsNumber rest') (heq : (toString n).toList ++ rest = (toString m).toList ++ rest') :
    n = m ∧ rest = rest' := by
  have hdigits : (toString n).toList = (toString m).toList := by
    rw [← takeWhile_toString_append n h, heq, takeWhile_toString_append m h']
  have hnumbers : some n = some m := by
    rw [← decimal?_toString, hdigits, decimal?_toString]
  rw [hdigits] at heq
  exact ⟨Option.some.inj hnumbers, List.append_cancel_left heq⟩

/-! ## Numerals with a limit -/

/-- The text is a numeral of the number: digits, after an optional plus sign. -/
def Writes (text : List Char) (n : Nat) : Prop :=
  ∃ digits, (text = digits ∨ text = '+' :: digits) ∧ decimal? digits = some n

/-- Digits never make the number smaller. -/
theorem le_ofDigitChars (digits : List Char) (value : Nat) :
    value ≤ Nat.ofDigitChars 10 digits value := by
  induction digits generalizing value with
  | nil => exact Nat.le_refl value
  | cons c rest ih =>
    rw [Nat.ofDigitChars_cons]
    exact Nat.le_trans (by omega) (ih _)

/-- The limit is checked after every digit, which comes to checking it at the end. -/
theorem readDigits_eq_ok_iff {limit value n : Nat} {digits : List Char} (hvalue : value < limit) :
    readDigits limit value digits = .ok n ↔
      (∀ c ∈ digits, c.isDigit = true) ∧ Nat.ofDigitChars 10 digits value = n ∧ n < limit := by
  induction digits generalizing value with
  | nil =>
    rw [readDigits, Nat.ofDigitChars_nil, Except.ok.injEq]
    constructor
    · rintro rfl
      exact ⟨List.forall_mem_nil _, rfl, hvalue⟩
    · exact fun h => h.2.1
  | cons c rest ih =>
    rw [readDigits, Nat.ofDigitChars_cons, List.forall_mem_cons]
    by_cases hdigit : c.isDigit = true
    · rw [if_pos hdigit]
      by_cases hnext : 10 * value + digitValue c < limit
      · rw [if_pos hnext, ih hnext, digitValue, and_iff_right hdigit]
      · rw [if_neg hnext]
        refine iff_of_false nofun fun h => hnext ?_
        have hle := le_ofDigitChars rest (10 * value + digitValue c)
        exact Nat.lt_of_le_of_lt hle (h.2.1 ▸ h.2.2)
    · rw [if_neg hdigit]
      exact iff_of_false nofun fun h => hdigit h.1.1

/-- A plus sign in front makes no difference. -/
theorem writes_cons_plus {digits : List Char} {n : Nat} :
    Writes ('+' :: digits) n ↔ decimal? digits = some n := by
  constructor
  · rintro ⟨_, rfl | hsame, hdecimal⟩
    · have hplus := (decimal?_eq_some_iff.mp hdecimal).2.1 '+' List.mem_cons_self
      exact absurd hplus (by decide)
    · exact (List.cons.inj hsame).2 ▸ hdecimal
  · exact fun hdecimal => ⟨digits, .inr rfl, hdecimal⟩

/-- Without a plus sign the text has to be digits. -/
theorem writes_of_ne_plus {text : List Char} {n : Nat} (hplus : ∀ digits, text ≠ '+' :: digits) :
    Writes text n ↔ decimal? text = some n := by
  constructor
  · rintro ⟨digits, rfl | hsame, hdecimal⟩
    · exact hdecimal
    · exact absurd hsame (hplus digits)
  · exact fun hdecimal => ⟨text, .inl rfl, hdecimal⟩

/-- Digits are read if they write a number below the limit. -/
theorem readDigits_zero_eq_ok_iff {limit n : Nat} {digits : List Char} (hlimit : 0 < limit)
    (hsome : digits ≠ []) :
    readDigits limit 0 digits = .ok n ↔ decimal? digits = some n ∧ n < limit := by
  rw [readDigits_eq_ok_iff hlimit, decimal?_eq_some_iff, and_iff_right hsome, and_assoc]

/-- Exactly the numerals of numbers below the limit are read, as those numbers. -/
theorem read_eq_ok_iff {limit n : Nat} {text : List Char} (hlimit : 0 < limit) :
    read limit text = .ok n ↔ Writes text n ∧ n < limit := by
  fun_cases read limit text with
  | case1 =>
    rw [writes_of_ne_plus (fun _ h => by cases h)]
    exact iff_of_false nofun fun h => by simp [decimal?] at h
  | case2 =>
    rw [writes_cons_plus]
    exact iff_of_false nofun fun h => by simp [decimal?] at h
  | case3 digits hsome =>
    rw [writes_cons_plus]
    exact readDigits_zero_eq_ok_iff hlimit fun hnil => hsome (hnil ▸ rfl)
  | case4 _ hsome _ hplus =>
    rw [writes_of_ne_plus hplus]
    exact readDigits_zero_eq_ok_iff hlimit hsome

/-! ## Numerals with blanks around them -/

/-- A numeral has digits and plus signs in it and nothing else. -/
theorem Writes.plus_or_isDigit {text : List Char} {n : Nat} (h : Writes text n) {c : Char}
    (hc : c ∈ text) : c = '+' ∨ c.isDigit = true := by
  obtain ⟨digits, hspelled, hdigits⟩ := h
  have hall := (decimal?_eq_some_iff.mp hdigits).2.1
  rcases hspelled with rfl | rfl
  · exact .inr (hall c hc)
  · exact (List.mem_cons.mp hc).imp_right (hall c)

/-- The text, apart from blanks around it, is a numeral of the number, which is below the limit. -/
structure Padded (limit : Nat) (text : List Char) (n : Nat) : Prop where
  writes : Writes (Text.trim text) n
  lt_limit : n < limit

/-- A text is read without the blanks around it if it pads a numeral. -/
theorem read_trim_eq_ok_iff {limit n : Nat} {text : List Char} (hlimit : 0 < limit) :
    read limit (Text.trim text) = .ok n ↔ Padded limit text n := by
  rw [read_eq_ok_iff hlimit]
  exact ⟨fun h => ⟨h.1, h.2⟩, fun h => ⟨h.writes, h.lt_limit⟩⟩

/-- A padded numeral has blanks, digits and plus signs in it and nothing else. -/
theorem Padded.not_mem {limit n : Nat} {text : List Char} (h : Padded limit text n) {c : Char}
    (hblank : Text.isBlank c = false) (hplus : c ≠ '+') (hdigit : c.isDigit = false) :
    c ∉ text := by
  intro hc
  rcases Text.isBlank_or_mem_trim hc with hc | hc
  · exact absurd hc (Bool.eq_false_iff.mp hblank)
  · rcases h.writes.plus_or_isDigit hc with hc | hc
    · exact hplus hc
    · exact absurd hc (Bool.eq_false_iff.mp hdigit)

/-- The digits of a number need no padding. -/
theorem padded_toString {limit n : Nat} (h : n < limit) : Padded limit (toString n).toList n where
  writes := by
    rw [Text.trim_eq_self fun c hc => Text.not_isBlank_of_isDigit (isDigit_of_mem_toString hc)]
    exact ⟨_, .inl rfl, decimal?_toString n⟩
  lt_limit := h

end CpuPlacement.Numeral
