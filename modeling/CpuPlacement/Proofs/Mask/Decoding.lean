import CpuPlacement.Mask.Lemmas
import CpuPlacement.Mask.Text
import CpuPlacement.Proofs.Text.Numeral
import CpuPlacement.Proofs.Text.Parts
import Mathlib

/-!
# Reading the text of a mask back

The text of a mask is a list of pieces with points between, each of them a run of full bytes, a run
of empty bytes or one byte in binary digits, and it may start with a group. `Mask.expand?` reads
such a text. Expanded, the text of a mask gives the group of the mask and its bytes again
(`Mask.Decodes`), so two masks have one text only if they are of one family and one group, as long
in bytes, and select the same positions. Runs are as long as they can be: no two runs of the same
byte are neighbours.
-/

set_option autoImplicit false

namespace CpuPlacement

namespace Mask

/-! ## The format -/

/-- What stands between two points: full bytes, empty bytes, or one byte in binary digits. -/
inductive Piece where
  | full (count : Nat)
  | empty (count : Nat)
  | single (byte : Nat)
deriving DecidableEq, Repr

namespace Piece

/-- The bytes that the piece stands for. -/
def bytes : Piece → List Nat
  | full count => List.replicate count 0xFF
  | empty count => List.replicate count 0
  | single byte => [byte]

/-- The pieces could be one run. -/
def Joins : Piece → Piece → Prop
  | full _, full _ => True
  | empty _, empty _ => True
  | _, _ => False

/-- The number of bytes in a run: one, unless a number is written behind it. -/
def count? : List Char → Option Nat
  | [] => some 1
  | 'x' :: number => Numeral.decimal? number
  | _ => none

/-- The byte of eight binary digits. -/
def binary? (digits : List Char) : Option Nat :=
  if digits.length = 8 ∧ ∀ c ∈ digits, c = '0' ∨ c = '1' then some (Nat.ofDigitChars 2 digits 0)
  else none

def ofText? : List Char → Option Piece
  | 'F' :: 'F' :: rest => (count? rest).map full
  | 'O' :: 'O' :: rest => (count? rest).map empty
  | text => (binary? text).map single

end Piece

/-- The pieces of a text without a group. -/
def pieces? (text : List Char) : Option (List Piece) :=
  (Text.parts '.' text).mapM Piece.ofText?

/-- The group of a text, if it names one, and its pieces. -/
def readText? : List Char → Option (Option Nat × List Piece)
  | 'g' :: rest => do
    let (id, body) ← Text.cut ':' rest
    return (some (← Numeral.decimal? id), ← pieces? body)
  | body => (pieces? body).map (none, ·)

/-- The group of a text and the bytes that it stands for, most significant first. -/
def expand? (text : List Char) : Option (Option Nat × List Nat) :=
  (readText? text).map fun (id, pieces) => (id, pieces.flatMap Piece.bytes)

/-! ## Runs -/

/-- A run as it can occur: of more than one byte only if the byte is full or empty. -/
structure IsRun (run : Nat × Nat) : Prop where
  byte_lt : run.1 < 256
  pos : 0 < run.2
  repeats : isRunByte run.1 = false → run.2 = 1

/-- What bytes are gathered to are runs of bytes. -/
theorem isRun_of_mem_runs {bytes : List Nat} (hbytes : ∀ byte ∈ bytes, byte < 256)
    {run : Nat × Nat} (hrun : run ∈ runs bytes) : IsRun run := by
  induction bytes generalizing run with
  | nil => cases hrun
  | cons byte rest ih =>
    obtain ⟨hbyte, hrest⟩ := List.forall_mem_cons.mp hbytes
    have hsingle : IsRun (byte, 1) := ⟨hbyte, Nat.one_pos, fun _ => rfl⟩
    rw [runs] at hrun
    split at hrun
    · next next count others hruns =>
      have hnext : ∀ {other}, other ∈ (next, count) :: others → IsRun other :=
        fun hother => ih hrest (hruns ▸ hother)
      split at hrun
      -- only a byte that may be repeated joins the run of the bytes after it
      · next hsame =>
        rw [Bool.and_eq_true] at hsame
        rcases List.mem_cons.mp hrun with rfl | hrun
        · exact ⟨hbyte, Nat.succ_pos count, fun hnot => by simp [hsame.1] at hnot⟩
        · exact hnext (List.mem_cons_of_mem _ hrun)
      · rcases List.mem_cons.mp hrun with rfl | hrun
        · exact hsingle
        · exact hnext hrun
    · rw [List.mem_singleton.mp hrun]
      exact hsingle

/-- Written out, the runs are the bytes. -/
theorem flatMap_runs (bytes : List Nat) :
    ((runs bytes).flatMap fun run => List.replicate run.2 run.1) = bytes := by
  induction bytes with
  | nil => rfl
  | cons byte rest ih =>
    rw [runs]
    split
    · next next count others hruns =>
      rw [hruns, List.flatMap_cons] at ih
      split
      · next hsame =>
        obtain rfl : byte = next := beq_iff_eq.mp (Bool.and_eq_true_iff.mp hsame).2
        rw [List.flatMap_cons, List.replicate_succ, List.cons_append, ih]
      · rw [List.flatMap_cons, List.flatMap_cons, ih, List.replicate_one, List.singleton_append]
    · next hruns =>
      rw [hruns, List.flatMap_nil] at ih
      rw [← ih, List.flatMap_singleton, List.replicate_one]

/-- Two neighbouring runs are not of one full or empty byte. -/
theorem isChain_runs (bytes : List Nat) :
    (runs bytes).IsChain fun a b => isRunByte a.1 = true → a.1 ≠ b.1 := by
  induction bytes with
  | nil => exact List.isChain_nil
  | cons byte rest ih =>
    rw [runs]
    split
    · next next count others hruns =>
      rw [hruns] at ih
      split
      · next hsame =>
        obtain rfl : byte = next := beq_iff_eq.mp (Bool.and_eq_true_iff.mp hsame).2
        cases others with
        | nil => exact List.isChain_singleton _
        | cons other others => exact List.isChain_cons_cons.mpr (List.isChain_cons_cons.mp ih)
      · next hdiffer =>
        refine List.isChain_cons_cons.mpr ⟨fun hrun hsame => hdiffer ?_, ih⟩
        rw [hrun, Bool.true_and, beq_iff_eq]
        exact hsame
    · exact List.isChain_singleton _

/-! ## The text of a run -/

/-- Binary digits write the lowest digits of a number, behind the digits that were read before. -/
theorem ofDigitChars_binary (count n value : Nat) :
    Nat.ofDigitChars 2
      ((List.range count).reverse.map fun i => if n.testBit i then '1' else '0') value =
      2 ^ count * value + n % 2 ^ count := by
  induction count generalizing value with
  | zero => simp [Nat.mod_one]
  | succ count ih =>
    have hdigit : (if n.testBit count = true then '1' else '0').toNat - '0'.toNat =
        (n.testBit count).toNat := by
      cases n.testBit count <;> rfl
    rw [List.range_succ, List.reverse_append, List.reverse_singleton, List.singleton_append,
      List.map_cons, Nat.ofDigitChars_cons, ih, hdigit, Nat.toNat_testBit,
      Nat.mod_pow_succ]
    ring

/-- Eight binary digits of a byte read back as the byte. -/
theorem binary?_binaryDigits {byte : Nat} (hbyte : byte < 256) :
    Piece.binary? (binaryDigits byte).toList = some byte := by
  have hchars : ∀ c ∈ (binaryDigits byte).toList, c = '0' ∨ c = '1' := by
    intro c hc
    rw [binaryDigits, String.toList_ofList] at hc
    obtain ⟨i, -, rfl⟩ := List.mem_map.mp hc
    cases byte.testBit i <;> simp
  have hlength : (binaryDigits byte).toList.length = 8 := by simp [binaryDigits]
  have hvalue : Nat.ofDigitChars 2 (binaryDigits byte).toList 0 = byte := by
    rw [binaryDigits, String.toList_ofList, ofDigitChars_binary, Nat.mul_zero, Nat.zero_add]
    exact Nat.mod_eq_of_lt hbyte
  rw [Piece.binary?, if_pos ⟨hlength, hchars⟩, hvalue]

/-- Binary digits cannot be mistaken for a run. -/
theorem Piece.ofText?_of_binary {text : List Char} {byte : Nat} (h : binary? text = some byte) :
    ofText? text = some (single byte) := by
  fun_cases ofText? text with
  | case1 rest => simp [binary?] at h
  | case2 rest => simp [binary?] at h
  | case3 => rw [h, Option.map_some]

/-- The piece that a run is written as. -/
def Piece.ofRun : Nat × Nat → Piece
  | (byte, count) =>
    if byte = 0xFF then full count else if byte = 0 then empty count else single byte

/-- What is written behind the name of a run is the number of its bytes. -/
theorem count?_repeats (count : Nat) :
    Piece.count? (if count = 1 then [] else 'x' :: (toString count).toList) = some count := by
  split
  · next hone => rw [hone, Piece.count?]
  · rw [Piece.count?, Numeral.decimal?_toString]

/-- A run is written as a word of its byte and a count if there is more than one. -/
theorem toList_runText (byte count : Nat) :
    (runText (byte, count)).toList =
      (if byte = 0xFF then ['F', 'F'] else if byte = 0 then ['O', 'O']
        else (binaryDigits byte).toList) ++
      if count = 1 then [] else 'x' :: (toString count).toList := by
  simp only [runText, beq_iff_eq]
  split_ifs <;> simp

/-- A run is read as the piece that it is written as. -/
theorem ofText?_runText {run : Nat × Nat} (hrun : IsRun run) :
    Piece.ofText? (runText run).toList = some (Piece.ofRun run) := by
  obtain ⟨byte, count⟩ := run
  rw [toList_runText, Piece.ofRun]
  by_cases hfull : byte = 0xFF
  · rw [if_pos hfull, if_pos hfull]
    show (Piece.count? ([] ++ _)).map Piece.full = _
    rw [List.nil_append, count?_repeats, Option.map_some]
  by_cases hempty : byte = 0
  · rw [if_neg hfull, if_neg hfull, if_pos hempty, if_pos hempty]
    show (Piece.count? ([] ++ _)).map Piece.empty = _
    rw [List.nil_append, count?_repeats, Option.map_some]
  have hone : count = 1 := hrun.repeats (by simp [isRunByte, hfull, hempty])
  rw [if_neg hfull, if_neg hfull, if_neg hempty, if_neg hempty, if_pos hone, List.append_nil]
  exact Piece.ofText?_of_binary (binary?_binaryDigits hrun.byte_lt)

/-- A run stands for its byte as often as it says. -/
theorem bytes_ofRun {run : Nat × Nat} (hrun : IsRun run) :
    (Piece.ofRun run).bytes = List.replicate run.2 run.1 := by
  obtain ⟨byte, count⟩ := run
  rw [Piece.ofRun]
  split_ifs with hfull hempty
  · rw [hfull, Piece.bytes]
  · rw [hempty, Piece.bytes]
  · have hone : count = 1 := hrun.repeats (by simp [isRunByte, hfull, hempty])
    rw [hone, Piece.bytes, List.replicate_one]

/-- Runs that could be one are of one full or empty byte. -/
theorem eq_of_joins {a b : Nat × Nat} (h : (Piece.ofRun a).Joins (Piece.ofRun b)) :
    isRunByte a.1 = true ∧ a.1 = b.1 := by
  obtain ⟨byte, count⟩ := a
  obtain ⟨other, count'⟩ := b
  simp only [Piece.ofRun] at h
  split_ifs at h <;> simp_all [Piece.Joins, isRunByte]

/-- The characters of a run are letters of runs or digits. -/
theorem mem_runText {run : Nat × Nat} {c : Char} (hc : c ∈ (runText run).toList) :
    c = 'F' ∨ c = 'O' ∨ c = 'x' ∨ c.isDigit = true := by
  obtain ⟨byte, count⟩ := run
  rw [toList_runText] at hc
  rcases List.mem_append.mp hc with hname | hcount
  · split_ifs at hname
    · simp_all
    · simp_all
    · rw [binaryDigits, String.toList_ofList] at hname
      obtain ⟨i, -, rfl⟩ := List.mem_map.mp hname
      cases byte.testBit i <;> simp
  · split_ifs at hcount
    · cases hcount
    · rcases List.mem_cons.mp hcount with rfl | hdigit
      · simp
      · simp [Numeral.isDigit_of_mem_toString hdigit]

/-! ## The text of a mask -/

/-- The runs of a mask, joined with points. -/
def body (m : Mask) : List Char :=
  ['.'].intercalate ((runs m.bytes).map fun run => (runText run).toList)

/-- The text of a mask is its body, after its group if it has one. -/
theorem toList_text (m : Mask) :
    m.text.toList = match m.groupId? with
      | none => m.body
      | some id => 'g' :: ((toString id).toList ++ ':' :: m.body) := by
  have hbody : (".".intercalate ((runs m.bytes).map runText)).toList = m.body := by
    rw [String.toList_intercalate, List.map_map]
    rfl
  cases m with
  | bitset length bits => exact hbody
  | group id bits =>
    rw [text, String.toList_append, hbody, String.toList_append, String.toList_append]
    simp [groupId?, toString]

/-- The bytes of a mask are bytes. -/
theorem mem_bytes_lt {m : Mask} {byte : Nat} (hbyte : byte ∈ m.bytes) : byte < 256 := by
  rw [bytes_eq] at hbyte
  obtain ⟨i, -, rfl⟩ := List.mem_map.mp hbyte
  exact Nat.mod_lt _ (by decide)

theorem length_bytes (m : Mask) : m.bytes.length = m.byteCount := by
  rw [bytes_eq, List.length_map, List.length_reverse, List.length_range]

/-- The text of a mask has a piece at least. -/
theorem runs_bytes_ne_nil (m : Mask) : runs m.bytes ≠ [] := by
  intro hnil
  have hbytes := flatMap_runs m.bytes
  rw [hnil, List.flatMap_nil] at hbytes
  have hlength := m.length_bytes
  rw [← hbytes, List.length_nil] at hlength
  cases m <;> simp only [byteCount] at hlength <;> omega

/-- Few characters occur in the body of a text, and no `g` or colon is among them. -/
theorem mem_body {m : Mask} {c : Char} (hc : c ∈ m.body) :
    c = '.' ∨ c = 'F' ∨ c = 'O' ∨ c = 'x' ∨ c.isDigit = true := by
  rcases Text.mem_or_of_mem_intercalate hc with hpoint | ⟨piece, hpiece, hc⟩
  · exact .inl (List.mem_singleton.mp hpoint)
  · obtain ⟨run, -, rfl⟩ := List.mem_map.mp hpiece
    exact .inr (mem_runText hc)

/-- The pieces of a mask. -/
theorem pieces?_body (m : Mask) : pieces? m.body = some ((runs m.bytes).map Piece.ofRun) := by
  have hpoint : ∀ piece ∈ (runs m.bytes).map fun run => (runText run).toList, '.' ∉ piece := by
    intro piece hpiece hmem
    obtain ⟨run, -, rfl⟩ := List.mem_map.mp hpiece
    have hchar := mem_runText hmem
    revert hchar
    decide
  have hread : ∀ runs : List (Nat × Nat), (∀ run ∈ runs, IsRun run) →
      (runs.map fun run => (runText run).toList).mapM Piece.ofText? =
        some (runs.map Piece.ofRun) := by
    intro runs hruns
    induction runs with
    | nil => rfl
    | cons run rest ih =>
      obtain ⟨hrun, hrest⟩ := List.forall_mem_cons.mp hruns
      simp [List.mapM_cons, ofText?_runText hrun, ih hrest]
  rw [pieces?, body, Text.parts_intercalate (by simpa using m.runs_bytes_ne_nil) hpoint]
  exact hread _ fun run hrun => isRun_of_mem_runs (fun _ => mem_bytes_lt) hrun

/-- A text without a `g` is one of a bit-set. -/
theorem readText?_of_not_mem {text : List Char} (hgroup : 'g' ∉ text) :
    readText? text = (pieces? text).map (none, ·) := by
  fun_cases readText? text with
  | case1 rest => exact absurd List.mem_cons_self hgroup
  | case2 => rfl

/-- A text with a group in front is one of a group mask. -/
theorem readText?_group {id : Nat} {body : List Char} {pieces : List Piece}
    (hbody : pieces? body = some pieces) :
    readText? ('g' :: ((toString id).toList ++ ':' :: body)) = some (some id, pieces) := by
  have hcolon : ':' ∉ (toString id).toList := fun hmem =>
    absurd (Numeral.isDigit_of_mem_toString hmem) (by decide)
  rw [readText?, Text.cut_append hcolon]
  show (do return (some (← Numeral.decimal? (toString id).toList), ← pieces? body)) = _
  rw [Numeral.decimal?_toString, hbody]
  rfl

/-- The text of a mask is read as the group of the mask and its runs. -/
theorem readText?_text (m : Mask) :
    readText? m.text.toList = some (m.groupId?, (runs m.bytes).map Piece.ofRun) := by
  rw [toList_text]
  cases hgroup : m.groupId? with
  | none =>
    have hnone : 'g' ∉ m.body := by
      intro hmem
      have hchar := mem_body hmem
      revert hchar
      decide
    exact (readText?_of_not_mem hnone).trans (by rw [pieces?_body, Option.map_some])
  | some id => exact readText?_group m.pieces?_body

/-! ## What the text tells -/

/-- What the text of a mask tells about it. -/
structure Decodes (m : Mask) : Prop where
  /-- The text gives the group and the bytes. -/
  expand : expand? m.text.toList = some (m.groupId?, m.bytes)
  /-- Exactly the masks of groups have a group. -/
  family : m.isGroup = m.groupId?.isSome
  /-- A mask of a group has eight bytes, a bit-set as many as its length needs and at least one. -/
  length_bytes : m.bytes.length = if m.isGroup then 8 else max 1 (m.width ⌈/⌉ 8)
  /-- Counted from the least significant one, each byte holds eight positions. -/
  bytes_hold : ∀ i bit, (m.bytes.reverse[i]?.getD 0).testBit bit =
    (decide (bit < 8) && m.test (8 * i + bit))
  /-- Of two neighbours in the text not both are runs of full bytes, nor both of empty ones. -/
  apart : ∃ pieces, readText? m.text.toList = some (m.groupId?, pieces) ∧
    pieces.IsChain fun a b => ¬ a.Joins b

/-- The text of a mask gives its group and its bytes back. -/
theorem expand?_text (m : Mask) : expand? m.text.toList = some (m.groupId?, m.bytes) := by
  have hbytes : ((runs m.bytes).map Piece.ofRun).flatMap Piece.bytes = m.bytes := by
    rw [List.flatMap_map]
    refine Eq.trans ?_ (flatMap_runs m.bytes)
    exact List.flatMap_congr fun run hrun =>
      bytes_ofRun (isRun_of_mem_runs (fun _ => mem_bytes_lt) hrun)
  rw [expand?, readText?_text, Option.map_some]
  exact congrArg (fun bytes => some (m.groupId?, bytes)) hbytes

theorem width_le (m : Mask) : m.width ≤ 8 * m.byteCount := by
  cases m <;> simp only [width, byteCount] <;> omega

/-- The bits of the bytes, counted from the last one, are the positions of the mask. -/
theorem testBit_bytes (m : Mask) (i bit : Nat) :
    (m.bytes.reverse[i]?.getD 0).testBit bit = (decide (bit < 8) && m.test (8 * i + bit)) := by
  rw [bytes_eq, List.map_reverse, List.reverse_reverse, List.getElem?_map]
  by_cases hi : i < m.byteCount
  · rw [List.getElem?_range hi, Option.map_some, Option.getD_some, show 256 = 2 ^ 8 from rfl,
      Nat.testBit_mod_two_pow, Nat.testBit_shiftRight, test]
  · have hbeyond : m.test (8 * i + bit) = false := by
      refine test_eq_false_of_width_le ?_
      have hwidth := m.width_le
      omega
    rw [List.getElem?_eq_none (by simpa using hi), hbeyond]
    simp

/-- The text of a mask can be decoded. -/
theorem decodes (m : Mask) : m.Decodes where
  expand := m.expand?_text
  family := by cases m <;> rfl
  length_bytes := by
    rw [m.length_bytes]
    cases m <;> simp [byteCount, isGroup, width, Nat.ceilDiv_eq_add_pred_div]
  bytes_hold := m.testBit_bytes
  apart := by
    refine ⟨_, m.readText?_text, List.isChain_map_of_isChain _ (fun a b hab hjoins => ?_)
      (isChain_runs m.bytes)⟩
    obtain ⟨hrun, hsame⟩ := eq_of_joins hjoins
    exact hab hrun hsame

/-- A position is found in the byte that holds it. -/
theorem test_eq_testBit_bytes (m : Mask) (index : Nat) :
    m.test index = (m.bytes.reverse[index / 8]?.getD 0).testBit (index % 8) := by
  have hbit : index % 8 < 8 := Nat.mod_lt _ (by decide)
  rw [testBit_bytes, decide_eq_true hbit, Bool.true_and, Nat.div_add_mod]

/-- The bytes are determined by their number and the positions. -/
theorem bytes_eq_of_test_eq {a b : Mask} (hlength : a.bytes.length = b.bytes.length)
    (htest : ∀ index, a.test index = b.test index) : a.bytes = b.bytes := by
  have hnumber : a.number = b.number := Nat.eq_of_testBit_eq htest
  rw [length_bytes, length_bytes] at hlength
  rw [bytes_eq, bytes_eq, hlength, hnumber]

/-- Masks have one text if they have one group and the same bytes. -/
theorem text_eq_iff {a b : Mask} :
    a.text = b.text ↔ a.groupId? = b.groupId? ∧ a.bytes = b.bytes := by
  constructor
  · intro htext
    have hexpand : some (a.groupId?, a.bytes) = some (b.groupId?, b.bytes) := by
      rw [← expand?_text, ← expand?_text, htext]
    exact Prod.ext_iff.mp (Option.some.inj hexpand)
  · rintro ⟨hgroup, hbytes⟩
    refine String.toList_injective ?_
    rw [toList_text, toList_text, body, body, hgroup, hbytes]

end Mask

/-- The text of a mask can be read back: it gives the family, the group and the bytes of the mask,
and has no two neighbouring runs of the same byte. Two masks have one text exactly if they are of
one family and one group, have equally many bytes and select the same positions. -/
theorem mask_text_decodes (m other : Mask) :
    m.Decodes ∧
      (m.text = other.text ↔ m.isGroup = other.isGroup ∧ m.groupId? = other.groupId? ∧
        m.bytes.length = other.bytes.length ∧ ∀ index, m.test index = other.test index) := by
  refine ⟨m.decodes, ?_⟩
  rw [Mask.text_eq_iff]
  constructor
  · rintro ⟨hgroup, hbytes⟩
    refine ⟨?_, hgroup, congrArg List.length hbytes, fun index => ?_⟩
    · rw [m.decodes.family, other.decodes.family, hgroup]
    · rw [m.test_eq_testBit_bytes, other.test_eq_testBit_bytes, hbytes]
  · rintro ⟨-, hgroup, hlength, htest⟩
    exact ⟨hgroup, Mask.bytes_eq_of_test_eq hlength htest⟩

end CpuPlacement
