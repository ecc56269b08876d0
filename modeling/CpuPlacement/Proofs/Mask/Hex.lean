import CpuPlacement.Mask.Hex
import CpuPlacement.Mask.Lemmas
import CpuPlacement.Proofs.Mask.Same
import CpuPlacement.Proofs.Text.Blank
import Mathlib

/-!
# Masks as hexadecimal numbers

A text writes a mask in hexadecimal if, apart from blanks and a leading `0x`, it is digits of some
values (`Mask.WritesHex`). The digits are read from the last one to the first, each into four
positions of its own, and what is read so far is always the number that the digits write, in its
place (`Mask.exists_insertDigits?_eq_some`). Four positions for each digit are room enough for it
(`Mask.hexNumber_lt`). So exactly the texts that write a mask are read (`Mask.ofHex_eq_ok_iff`), the
positions of the mask are the ones of this number, however long it is, and texts that differ in the
case of their letters, in `0x` or in zeros in front give the same mask.
-/

set_option autoImplicit false

namespace CpuPlacement

namespace Text

/-! ## Digits -/

/-- The character is the hexadecimal digit of the value, as a small or as a capital letter. -/
def WritesHexDigit (c : Char) (value : Nat) : Prop :=
  value < 16 ∧ (c = value.digitChar ∨ c = value.digitChar.toUpper)

instance (c : Char) (value : Nat) : Decidable (WritesHexDigit c value) :=
  inferInstanceAs (Decidable (_ ∧ _))

/-- The value of a character is read just where it writes a value. -/
theorem hexDigit?_eq_some_iff {c : Char} {value : Nat} :
    hexDigit? c = some value ↔ WritesHexDigit c value := by
  constructor
  · intro h
    refine ⟨hexDigit?_lt h, ?_⟩
    -- the three ranges of digits are small enough to go through
    have hdecimal : ∀ n ≤ 57, 48 ≤ n → Char.ofNat n = (n - 48).digitChar := by decide
    have hsmall : ∀ n ≤ 102, 97 ≤ n → Char.ofNat n = (n - 97 + 10).digitChar := by decide
    have hcapital : ∀ n ≤ 70, 65 ≤ n → Char.ofNat n = (n - 65 + 10).digitChar.toUpper := by decide
    rw [← Char.ofNat_toNat c]
    rw [hexDigit?] at h
    split at h
    · next hrange =>
      have hbounds : 48 ≤ c.toNat ∧ c.toNat ≤ 57 := by
        simpa [Char.isDigit, UInt32.le_iff_toNat_le] using hrange
      exact .inl (Option.some.inj h ▸ hdecimal _ hbounds.2 hbounds.1)
    split at h
    · next hrange => exact .inl (Option.some.inj h ▸ hsmall _ hrange.2 hrange.1)
    split at h
    · next hrange => exact .inr (Option.some.inj h ▸ hcapital _ hrange.2 hrange.1)
    · cases h
  · rintro ⟨hlt, rfl | rfl⟩
    · revert value
      decide
    · revert value
      decide

theorem WritesHexDigit.unique {c : Char} {value value' : Nat} (h : WritesHexDigit c value)
    (h' : WritesHexDigit c value') : value = value' :=
  Option.some.inj ((hexDigit?_eq_some_iff.mpr h).symm.trans (hexDigit?_eq_some_iff.mpr h'))

/-- No digit is a blank or the letter of `0x`. -/
theorem WritesHexDigit.not_special {c : Char} {value : Nat} (h : WritesHexDigit c value) :
    isBlank c = false ∧ c ≠ 'x' ∧ c ≠ 'X' := by
  obtain ⟨hlt, rfl | rfl⟩ := h
  · revert value
    decide
  · revert value
    decide

end Text

namespace Mask

open Text (WritesHexDigit)

/-! ## Numbers -/

/-- The number whose hexadecimal digits have these values, the most significant first. -/
def hexNumber (values : List Nat) : Nat :=
  Nat.ofDigits 16 values.reverse

/-- A further digit multiplies the number by 16 and is added. -/
theorem hexNumber_append_singleton (values : List Nat) (value : Nat) :
    hexNumber (values ++ [value]) = 16 * hexNumber values + value := by
  rw [hexNumber, hexNumber, List.reverse_append, List.reverse_singleton, List.singleton_append,
    Nat.ofDigits_cons, Nat.add_comm]

/-- Zeros in front do not count. -/
theorem hexNumber_replicate_zero (zeros : Nat) (values : List Nat) :
    hexNumber (List.replicate zeros 0 ++ values) = hexNumber values := by
  rw [hexNumber, hexNumber, List.reverse_append, List.reverse_replicate, Nat.ofDigits_append,
    Nat.ofDigits_replicate_zero, Nat.mul_zero, Nat.add_zero]

/-- Four binary digits for each hexadecimal one are enough. -/
theorem hexNumber_lt {digits : List Char} {values : List Nat}
    (h : List.Forall₂ WritesHexDigit digits values) :
    hexNumber values < 2 ^ (4 * values.length) := by
  have hflipped : List.Forall₂ (fun value c => value < 16 ∧ WritesHexDigit c value) values digits :=
    (h.imp fun _ _ hdigit => ⟨hdigit.1, hdigit⟩).flip
  have hvalues : ∀ value ∈ values.reverse, value < 16 := fun value hvalue =>
    ((List.forall₂_and_left _ _).mp hflipped).1 value (List.mem_reverse.mp hvalue)
  have hlt := Nat.ofDigits_lt_base_pow_length (by decide) hvalues
  rwa [List.length_reverse, show 16 = 2 ^ 4 from rfl, ← pow_mul] at hlt

/-- A digit and the number in front of it are apart. -/
theorem shiftLeft_or_ofDigits {value : Nat} (hvalue : value < 16) (values : List Nat)
    (position : Nat) :
    value <<< (position * 4) ||| Nat.ofDigits 16 values <<< ((position + 1) * 4) =
      Nat.ofDigits 16 (value :: values) <<< (position * 4) := by
  have hdigits : value ||| Nat.ofDigits 16 values <<< 4 = Nat.ofDigits 16 (value :: values) := by
    rw [Nat.or_comm, ← Nat.shiftLeft_add_eq_or_of_lt (show value < 2 ^ 4 from hvalue),
      Nat.shiftLeft_eq, Nat.ofDigits_cons, Nat.mul_comm, Nat.add_comm]
  rw [show (position + 1) * 4 = 4 + position * 4 by omega, Nat.shiftLeft_add,
    ← Nat.shiftLeft_or_distrib, hdigits]

/-- The ones among one binary digit more. -/
theorem testBit_mod_succ_shiftLeft (number count first other : Nat) :
    ((number % 2 ^ (count + 1)) <<< first).testBit other =
      (((number % 2 ^ count) <<< first).testBit other ||
        (number.testBit count && decide (first + count = other))) := by
  simp only [Nat.testBit_shiftLeft, Nat.testBit_mod_two_pow]
  by_cases hlast : first + count = other
  · subst hlast
    simp
  · have hlt : first ≤ other → (other - first < count + 1 ↔ other - first < count) := by omega
    by_cases hfirst : first ≤ other
    · simp [hlast, hlt hfirst]
    · simp [hlast, hfirst]

/-! ## The loop over the digits -/

section Loop

variable {m : Mask} (hbitset : m.isGroup = false)

include hbitset

theorem isGroup_insertOnes (first number count : Nat) :
    (m.insertOnes first number count).isGroup = false := by
  induction count with
  | zero => exact hbitset
  | succ count ih =>
    rw [insertOnes]
    split
    · rw [isGroup_insert, ih]
    · exact ih

/-- Positions that there is room for do not make the mask longer. -/
theorem width_insertOnes {first count : Nat} (number : Nat) (hroom : first + count ≤ m.width) :
    (m.insertOnes first number count).width = m.width := by
  induction count with
  | zero => rfl
  | succ count ih =>
    have hwidth := ih (Nat.le_of_succ_le hroom)
    rw [insertOnes]
    split
    · rw [width_insert_bitset (isGroup_insertOnes hbitset first number count), hwidth]
      exact Nat.max_eq_left hroom
    · exact hwidth

/-- A number that is inserted digit by digit is there in its place. -/
theorem test_insertOnes (first number count other : Nat) :
    (m.insertOnes first number count).test other =
      (m.test other || ((number % 2 ^ count) <<< first).testBit other) := by
  induction count with
  | zero => simp [insertOnes, Nat.mod_one]
  | succ count ih =>
    rw [insertOnes, testBit_mod_succ_shiftLeft, ← Bool.or_assoc, ← ih]
    split
    · next hone =>
      have hroom : (m.insertOnes first number count).isGroup = true → first + count < 64 :=
        fun hgroup => nomatch (isGroup_insertOnes hbitset first number count).symm.trans hgroup
      rw [test_insert hroom, hone, Bool.true_and]
    · next hone =>
      rw [Bool.eq_false_iff.mpr hone, Bool.false_and, Bool.or_false]

/-- Digits fill up a mask that has room for them with the binary digits of their number, which comes
after the positions that are filled already. -/
theorem exists_insertDigits?_eq_some {digits : List Char} {values : List Nat}
    (hvalues : List.Forall₂ WritesHexDigit digits values) {position : Nat}
    (hroom : (position + digits.length) * 4 ≤ m.width) :
    ∃ m', m.insertDigits? position digits = some m' ∧ m'.isGroup = false ∧ m'.width = m.width ∧
      ∀ other, m'.test other =
        (m.test other || (Nat.ofDigits 16 values <<< (position * 4)).testBit other) := by
  -- induction on the digits with the mask and the position, which the first digit has moved on
  induction hvalues generalizing m position with
  | nil => exact ⟨m, rfl, hbitset, rfl, fun other => by simp⟩
  | @cons c value rest values hc _ ih =>
    rw [List.length_cons] at hroom
    have hdigit : position * 4 + 4 ≤ m.width := by omega
    have hwidth : (m.insertOnes (position * 4) value 4).width = m.width :=
      width_insertOnes hbitset value hdigit
    have hrest : (position + 1 + rest.length) * 4 ≤
        (m.insertOnes (position * 4) value 4).width := by omega
    obtain ⟨m', hm', hbitset', hwidth', htest⟩ :=
      ih (isGroup_insertOnes hbitset (position * 4) value 4) hrest
    refine ⟨m', ?_, hbitset', hwidth'.trans hwidth, fun other => ?_⟩
    · rw [insertDigits?, Text.hexDigit?_eq_some_iff.mpr hc]
      exact hm'
    · have hvalue : value % 2 ^ 4 = value := Nat.mod_eq_of_lt hc.1
      rw [htest, test_insertOnes hbitset, hvalue, Bool.or_assoc, ← Nat.testBit_or,
        shiftLeft_or_ofDigits hc.1]

end Loop

/-- Where all characters are read, they are digits. -/
theorem exists_values_of_insertDigits? {m m' : Mask} {position : Nat} {digits : List Char}
    (h : m.insertDigits? position digits = some m') :
    ∃ values, List.Forall₂ WritesHexDigit digits values := by
  induction digits generalizing m position with
  | nil => exact ⟨[], .nil⟩
  | cons c rest ih =>
    obtain ⟨value, hc, hrest⟩ := Option.bind_eq_some_iff.mp h
    obtain ⟨values, hvalues⟩ := ih hrest
    exact ⟨value :: values, .cons (Text.hexDigit?_eq_some_iff.mp hc) hvalues⟩

/-- The digits are read from the last one to the first, so that the positions of the mask are those
of the number that they write. -/
theorem insertDigits?_reverse_eq_some_iff {digits : List Char} {m : Mask} :
    (empty (4 * digits.length)).insertDigits? 0 digits.reverse = some m ↔
      ∃ values, List.Forall₂ WritesHexDigit digits values ∧
        bitset (4 * values.length) (BitVec.ofNat _ (hexNumber values)) = m := by
  have hread {values : List Nat} (hvalues : List.Forall₂ WritesHexDigit digits values) :
      (empty (4 * digits.length)).insertDigits? 0 digits.reverse =
        some (bitset (4 * values.length) (BitVec.ofNat _ (hexNumber values))) := by
    have hroom : (0 + digits.reverse.length) * 4 ≤ (empty (4 * digits.length)).width := by
      rw [List.length_reverse, Nat.zero_add, Nat.mul_comm]
      exact Nat.le_refl _
    obtain ⟨m', hm', hbitset, hwidth, htest⟩ :=
      exists_insertDigits?_eq_some rfl (List.forall₂_reverse_iff.mpr hvalues) hroom
    rw [hm', Option.some.injEq]
    refine eq_of_test (groupId?_eq_none hbitset) ?_ fun cpu => ?_
    · rw [hwidth, hvalues.length_eq]
      rfl
    · rw [htest, test_empty, Bool.false_or, Nat.zero_mul, Nat.shiftLeft_zero, test, number,
        BitVec.toNat_ofNat, Nat.mod_eq_of_lt (hexNumber_lt hvalues), hexNumber]
  constructor
  · intro h
    obtain ⟨values, hvalues⟩ := exists_values_of_insertDigits? h
    have hdigits : List.Forall₂ WritesHexDigit digits values.reverse := by
      rw [← List.forall₂_reverse_iff, List.reverse_reverse]
      exact hvalues
    exact ⟨_, hdigits, Option.some.inj ((hread hdigits).symm.trans h)⟩
  · rintro ⟨values, hvalues, rfl⟩
    exact hread hvalues

/-! ## What is read -/

/-- The text, apart from blanks around it, is digits of these values, the most significant first, at
least one, and possibly after `0x`. -/
def WritesHex (text : List Char) (values : List Nat) : Prop :=
  ∃ digits, (Text.trim text = digits ∨ Text.trim text = '0' :: 'x' :: digits ∨
      Text.trim text = '0' :: 'X' :: digits) ∧
    digits ≠ [] ∧ List.Forall₂ WritesHexDigit digits values

/-- The digits are those that are left without blanks and `0x`, whichever way these are looked
for. -/
theorem writesHex_iff {text : List Char} {values : List Nat} :
    WritesHex text values ↔
      hexDigits text ≠ [] ∧ List.Forall₂ WritesHexDigit (hexDigits text) values := by
  constructor
  · rintro ⟨digits, htext, hsome, hvalues⟩
    have hdigits : hexDigits text = digits := by
      rcases htext with htext | htext | htext
      · rw [hexDigits, htext]
        split
        · cases hvalues with
          | cons _ hrest => cases hrest with
            | cons hx _ => exact absurd rfl hx.not_special.2.1
        · cases hvalues with
          | cons _ hrest => cases hrest with
            | cons hx _ => exact absurd rfl hx.not_special.2.2
        · rfl
      · rw [hexDigits, htext]
        rfl
      · rw [hexDigits, htext]
        rfl
    rw [hdigits]
    exact ⟨hsome, hvalues⟩
  · rintro ⟨hsome, hvalues⟩
    refine ⟨hexDigits text, ?_, hsome, hvalues⟩
    rw [hexDigits]
    split
    · next htrim => exact .inr (.inl htrim)
    · next htrim => exact .inr (.inr htrim)
    · exact .inl rfl

/-- A text writes one row of values at most. -/
theorem WritesHex.unique {text : List Char} {values values' : List Nat} (h : WritesHex text values)
    (h' : WritesHex text values') : values = values' :=
  Relator.RightUnique.forall₂ (fun _ _ _ h h' => h.unique h') (writesHex_iff.mp h).2
    (writesHex_iff.mp h').2

/-- Exactly the texts that write a mask are read, as the number of their digits. -/
theorem ofHex_eq_ok_iff {text : String} {m : Mask} :
    ofHex text = .ok m ↔ ∃ values, WritesHex text.toList values ∧
      bitset (4 * values.length) (BitVec.ofNat _ (hexNumber values)) = m := by
  simp only [writesHex_iff, and_assoc, exists_and_left, ← insertDigits?_reverse_eq_some_iff, ofHex]
  cases hexDigits text.toList with
  | nil => simp
  | cons c rest =>
    simp only [ne_eq, List.cons_ne_nil, not_false_eq_true, true_and]
    split <;> simp_all

/-- What is read is as long as the digits need and has the positions of their number. -/
structure ReadsHex (m : Mask) (values : List Nat) : Prop where
  isGroup : m.isGroup = false
  width : m.width = 4 * values.length
  test : ∀ index, m.test index = (hexNumber values).testBit index

/-- A mask that is read has room for the digits and the positions of their number. -/
theorem readsHex_of_ofHex {text : String} {m : Mask} {values : List Nat} (h : ofHex text = .ok m)
    (hwrites : WritesHex text.toList values) : m.ReadsHex values := by
  obtain ⟨values', hwrites', rfl⟩ := ofHex_eq_ok_iff.mp h
  obtain rfl := hwrites'.unique hwrites
  have hlt := hexNumber_lt (writesHex_iff.mp hwrites).2
  refine ⟨rfl, rfl, fun index => ?_⟩
  rw [test, number, BitVec.toNat_ofNat, Nat.mod_eq_of_lt hlt]

/-- Texts of one number give the same mask. -/
theorem ReadsHex.same {a b : Mask} {values values' : List Nat} (ha : a.ReadsHex values)
    (hb : b.ReadsHex values') (hnumber : hexNumber values = hexNumber values') :
    a.same b = true := by
  refine same_iff_test.mpr ⟨?_, fun index => ?_⟩
  · rw [groupId?_eq_none ha.isGroup, groupId?_eq_none hb.isGroup]
  · rw [ha.test, hb.test, hnumber]

/-! ## Written masks -/

/-- The number of the mask in hexadecimal. -/
def hexText (m : Mask) : String :=
  String.ofList (Nat.toDigits 16 m.number)

/-- The digits of a number write it. -/
theorem exists_values_toDigits (n : Nat) : ∃ values,
    List.Forall₂ WritesHexDigit (Nat.toDigits 16 n) values ∧ hexNumber values = n := by
  induction n using Nat.strongRecOn with
  | ind n ih =>
    rw [Nat.toDigits_eq_if (by decide)]
    split
    · next hlt =>
      refine ⟨[n], .cons ⟨hlt, .inl rfl⟩ .nil, ?_⟩
      rw [hexNumber, List.reverse_singleton, Nat.ofDigits_singleton]
    · next hle =>
      obtain ⟨values, hvalues, hnumber⟩ := ih (n / 16) (by omega)
      have hlast : WritesHexDigit (n % 16).digitChar (n % 16) :=
        ⟨Nat.mod_lt _ (by decide), .inl rfl⟩
      refine ⟨values ++ [n % 16], List.rel_append hvalues (.cons hlast .nil), ?_⟩
      rw [hexNumber_append_singleton, hnumber, Nat.div_add_mod]

/-- The text of a mask's number writes the number. -/
theorem writesHex_hexText (m : Mask) :
    ∃ values, WritesHex m.hexText.toList values ∧ hexNumber values = m.number := by
  obtain ⟨values, hvalues, hnumber⟩ := exists_values_toDigits m.number
  have hspecial : List.Forall₂ (fun c value => Text.isBlank c = false ∧ WritesHexDigit c value)
      (Nat.toDigits 16 m.number) values :=
    hvalues.imp fun _ _ hdigit => ⟨hdigit.not_special.1, hdigit⟩
  have hblank := ((List.forall₂_and_left _ _).mp hspecial).1
  refine ⟨values, ⟨Nat.toDigits 16 m.number, .inl ?_, Nat.toDigits_ne_nil, hvalues⟩, hnumber⟩
  rw [hexText, String.toList_ofList, Text.trim_eq_self hblank]

end Mask

/-- A text is read as a mask exactly if, apart from blanks and possibly `0x` in front, it is one or
more hexadecimal digits. The mask is then a bit-set of four CPUs for each digit, of which those are
selected where the number of the digits has a one. Another text whose digits have the same values,
with any number of zeros in front, gives the same mask. The number of a bit-set, written in
hexadecimal, reads back as the same mask. -/
theorem hex_reads_number :
    (∀ text : String,
      ((∃ m, Mask.ofHex text = .ok m) ↔ ∃ values, Mask.WritesHex text.toList values) ∧
      ∀ m values, Mask.ofHex text = .ok m → Mask.WritesHex text.toList values →
        m.ReadsHex values ∧
        ∀ (other : String) (zeros : Nat),
          Mask.WritesHex other.toList (List.replicate zeros 0 ++ values) →
            ∃ m', Mask.ofHex other = .ok m' ∧ m.same m' = true) ∧
    ∀ m : Mask, m.isGroup = false →
      ∃ read, Mask.ofHex m.hexText = .ok read ∧ read.same m = true := by
  refine ⟨fun text => ⟨?_, fun m values h hwrites => ?_⟩, fun m hbitset => ?_⟩
  · simp only [Mask.ofHex_eq_ok_iff]
    exact ⟨fun ⟨_, values, hwrites, _⟩ => ⟨values, hwrites⟩,
      fun ⟨values, hwrites⟩ => ⟨_, values, hwrites, rfl⟩⟩
  · have hreads := Mask.readsHex_of_ofHex h hwrites
    refine ⟨hreads, fun other zeros hother => ?_⟩
    have hok := Mask.ofHex_eq_ok_iff.mpr ⟨_, hother, rfl⟩
    refine ⟨_, hok, hreads.same (Mask.readsHex_of_ofHex hok hother) ?_⟩
    rw [Mask.hexNumber_replicate_zero]
  · obtain ⟨values, hwrites, hnumber⟩ := m.writesHex_hexText
    have hok := Mask.ofHex_eq_ok_iff.mpr ⟨_, hwrites, rfl⟩
    have hreads := Mask.readsHex_of_ofHex hok hwrites
    refine ⟨_, hok, Mask.same_iff_test.mpr ⟨?_, fun index => ?_⟩⟩
    · rw [Mask.groupId?_eq_none hreads.isGroup, Mask.groupId?_eq_none hbitset]
    · rw [hreads.test, hnumber, Mask.test]

/-- Two spellings of the CPUs 1, 3 and 64 in 17 digits, and a mask that reads back from as many. -/
theorem hex_reads_number_above_word :
    let values := 1 :: (List.replicate 15 0 ++ [10])
    (∃ m, Mask.ofHex " 0x1000000000000000a\n" = .ok m ∧
      Mask.WritesHex " 0x1000000000000000a\n".toList values ∧ m.ReadsHex values ∧
      Mask.WritesHex "001000000000000000A".toList (List.replicate 2 0 ++ values) ∧
      ∃ m', Mask.ofHex "001000000000000000A" = .ok m' ∧ m.same m' = true) ∧
    ∃ read, Mask.ofHex (Mask.bitset 70 0x1000000000000000a).hexText = .ok read ∧
      read.same (.bitset 70 0x1000000000000000a) = true := by
  intro values
  have hwrites : Mask.WritesHex " 0x1000000000000000a\n".toList values :=
    Mask.writesHex_iff.mpr (by decide +kernel)
  have hother : Mask.WritesHex "001000000000000000A".toList (List.replicate 2 0 ++ values) :=
    Mask.writesHex_iff.mpr (by decide +kernel)
  obtain ⟨m, hm⟩ := (hex_reads_number.1 _).1.mpr ⟨values, hwrites⟩
  obtain ⟨hreads, hsame⟩ := (hex_reads_number.1 _).2 m values hm hwrites
  exact ⟨⟨m, hm, hwrites, hreads, hother, hsame _ 2 hother⟩, hex_reads_number.2 _ rfl⟩

end CpuPlacement
