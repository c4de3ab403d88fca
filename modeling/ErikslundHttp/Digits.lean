import ErikslundHttp.Lib.Grouping
import ErikslundHttp.Text
import Mathlib.Tactic.NormNum.Ineq

/-!
# Numbers with grouped digits

`group_digits` (`text.cpp`) writes a number with a comma between groups of three digits.  It
computes the size of the text first, and `resize_and_overwrite` hands out that many bytes, which
hold nothing; the loop then fills them from the right.  A `PresizedBuffer` is such storage: a
byte is there once it is written, and the indices that were written are kept in order.

* `none` is the outcome if the assertion fails, or if a byte outside of the buffer is written.
* `group_digits_fills_its_buffer`: that never happens, and no byte is left unwritten.
-/

namespace ErikslundHttp

open Grouping

/-- What stands between two groups. -/
def kDigitGroupSeparator : UInt8 := byte ','

/-- The digits of a group. -/
def kDigitGroupSize : ℕ := 3

/-- The digits of the largest number. -/
def kMaxUint64Digits : ℕ := 20

/-! ### The buffer -/

/-- Storage that holds nothing before it is written. -/
structure PresizedBuffer where
  /-- What each byte holds, if it has been written. -/
  cells : List (Option UInt8)
  /-- The indices written, in their order. -/
  writes : List ℕ := []

namespace PresizedBuffer

/-- A buffer in which nothing is written yet. -/
def blank (size : ℕ) : PresizedBuffer := { cells := List.replicate size none }

/-- A write of a cell; one outside of the buffer is none. -/
def write (index : ℕ) (character : UInt8) (buffer : PresizedBuffer) : Option PresizedBuffer :=
  if index < buffer.cells.length then
    some ⟨buffer.cells.set index (some character), buffer.writes ++ [index]⟩
  else none

/-- The bytes, if none of them is left without a value. -/
def contents (buffer : PresizedBuffer) : Option Bytes := buffer.cells.mapM id

theorem contents_eq {buffer : PresizedBuffer} {text : Bytes} (h : buffer.cells = text.map some) :
    buffer.contents = some text := by
  rw [contents, h]
  clear h
  induction text with
  | nil => rfl
  | cons b text ih => simp [ih]

end PresizedBuffer

/-- The variables of the loop of `group_digits`. -/
structure Filling where
  buffer : PresizedBuffer
  /-- The last byte written; what is before it is still empty. -/
  writeIndex : ℕ
  /-- How many digits the present group has. -/
  digitsInGroup : ℕ := 0

namespace Filling

/-- `buffer[--write_index] = character`. -/
def put (character : UInt8) (f : Filling) : Option Filling :=
  if f.writeIndex = 0 then none
  else do
    let buffer ← f.buffer.write (f.writeIndex - 1) character
    return { f with buffer := buffer, writeIndex := f.writeIndex - 1 }

/-- One turn of the loop. -/
def step (f : Filling) (digit : UInt8) : Option Filling := do
  let f ←
    if f.digitsInGroup = kDigitGroupSize then do
      let f ← f.put kDigitGroupSeparator
      some { f with digitsInGroup := 0 }
    else some f
  let f ← f.put digit
  return { f with digitsInGroup := f.digitsInGroup + 1 }

end Filling

/-- The digits of the number, which have to fit into `kMaxUint64Digits` characters. -/
def uint64Digits (value : UInt64) : Option Bytes :=
  let digits := toChars value.toNat
  if digits.length ≤ kMaxUint64Digits then some digits else none

/-- Before the loop. -/
def Filling.init (size : ℕ) : Filling := { buffer := .blank size, writeIndex := size }

/-- The loop of `group_digits`, from the last digit on. -/
def fillFromTheRight (digits : Bytes) (size : ℕ) : Option Filling :=
  digits.reverse.foldlM Filling.step (.init size)

/-- The end of the loop of `group_digits`. -/
def groupDigitsFilling (value : UInt64) : Option Filling := do
  let digits ← uint64Digits value
  let digitCount := digits.length
  let separatorCount := (digitCount - 1) / kDigitGroupSize
  fillFromTheRight digits (digitCount + separatorCount)

/-- `group_digits`. -/
def groupDigits (value : UInt64) : Option Bytes := do
  let filling ← groupDigitsFilling value
  filling.buffer.contents

example : groupDigits 1234567 = some (ascii "1,234,567") := by decide +kernel

/-! ### What the loop writes -/

/-- The buffer holds `text`, which was written from the right, behind `writeIndex` bytes that hold
nothing. -/
structure Filling.Holds (f : Filling) (text : Bytes) : Prop where
  cells : f.buffer.cells = List.replicate f.writeIndex none ++ text.map some
  /-- Each index was written once, from the right. -/
  writes : f.buffer.writes = ((List.range text.length).map (· + f.writeIndex)).reverse

theorem Filling.put_holds {f : Filling} {text : Bytes} (hf : f.Holds text)
    (hroom : 0 < f.writeIndex) (character : UInt8) :
    ∃ f', f.put character = some f' ∧ f'.Holds (character :: text) ∧
      f'.writeIndex = f.writeIndex - 1 ∧ f'.digitsInGroup = f.digitsInGroup := by
  obtain ⟨index, hindex⟩ := Nat.exists_eq_succ_of_ne_zero hroom.ne'
  have hcells := hf.cells
  rw [hindex, Nat.succ_eq_add_one, List.replicate_succ', List.append_assoc] at hcells
  have hlength : index < f.buffer.cells.length := by
    rw [hcells]
    simp
  refine ⟨⟨⟨f.buffer.cells.set index (some character), f.buffer.writes ++ [index]⟩, index,
    f.digitsInGroup⟩, ?_, ⟨?_, ?_⟩, by rw [hindex]; rfl, rfl⟩
  · rw [put, if_neg hroom.ne', PresizedBuffer.write]
    simp [hindex, hlength]
  · show f.buffer.cells.set index (some character) = _
    rw [hcells, List.set_append_right index _ (by simp)]
    simp
  · show f.buffer.writes ++ [index] = _
    -- the new index is the least one
    rw [hf.writes, List.length_cons, List.range_succ_eq_map, List.map_cons, List.reverse_cons,
      List.map_map, hindex, Nat.zero_add]
    congr 2
    refine List.map_congr_left fun i _ => ?_
    simp only [Function.comp_apply]
    omega

/-- The loop writes the digits with separators, from the right. -/
theorem Filling.foldlM_step {f : Filling} {text : Bytes} (hf : f.Holds text) (digits : Bytes)
    (hroom : (separated kDigitGroupSize kDigitGroupSeparator f.digitsInGroup digits).length ≤
      f.writeIndex) :
    let written := separated kDigitGroupSize kDigitGroupSeparator f.digitsInGroup digits
    ∃ f', digits.foldlM Filling.step f = some f' ∧ f'.Holds (written.reverse ++ text) ∧
      f'.writeIndex = f.writeIndex - written.length := by
  induction digits generalizing f text with
  | nil => exact ⟨f, rfl, hf, rfl⟩
  | cons digit digits ih =>
    rw [separated] at hroom ⊢
    split_ifs at hroom ⊢ with hfull
    · simp only [List.length_cons] at hroom
      obtain ⟨f₁, hput₁, hf₁, hindex₁, hcount₁⟩ := put_holds hf (by omega) kDigitGroupSeparator
      have hf₁' : Holds { f₁ with digitsInGroup := 0 } (kDigitGroupSeparator :: text) :=
        ⟨hf₁.cells, hf₁.writes⟩
      obtain ⟨f₂, hput₂, hf₂, hindex₂, hcount₂⟩ :=
        put_holds hf₁' (by simp only [hindex₁]; omega) digit
      have hf₂' : Holds { f₂ with digitsInGroup := 1 } (digit :: kDigitGroupSeparator :: text) :=
        ⟨hf₂.cells, hf₂.writes⟩
      have hstep : f.step digit = some { f₂ with digitsInGroup := 1 } := by
        simp [step, hfull, hput₁, hput₂, hcount₂]
      simp only [hindex₁] at hindex₂
      obtain ⟨f', hrun, hf', hindex'⟩ := ih hf₂' (by simp only [hindex₂]; omega)
      refine ⟨f', by rw [List.foldlM_cons, hstep]; exact hrun, ?_, ?_⟩
      · simpa using hf'
      · simp only [hindex₂, List.length_cons] at hindex' ⊢
        omega
    · simp only [List.length_cons] at hroom
      obtain ⟨f₁, hput₁, hf₁, hindex₁, hcount₁⟩ := put_holds hf (by omega) digit
      have hf₁' : Holds { f₁ with digitsInGroup := f.digitsInGroup + 1 } (digit :: text) :=
        ⟨hf₁.cells, hf₁.writes⟩
      have hstep : f.step digit = some { f₁ with digitsInGroup := f.digitsInGroup + 1 } := by
        simp [step, hfull, hput₁, hcount₁]
      obtain ⟨f', hrun, hf', hindex'⟩ := ih hf₁' (by simp only [hindex₁]; omega)
      refine ⟨f', by rw [List.foldlM_cons, hstep]; exact hrun, ?_, ?_⟩
      · simpa using hf'
      · simp only [hindex₁, List.length_cons] at hindex' ⊢
        omega

/-- If the size is what the closed formula says, the loop ends at the start of the buffer. -/
theorem fillFromTheRight_eq (digits : Bytes) :
    let text := (separated kDigitGroupSize kDigitGroupSeparator 0 digits.reverse).reverse
    ∃ f, fillFromTheRight digits (digits.length + (digits.length - 1) / kDigitGroupSize) = some f ∧
      f.writeIndex = 0 ∧ f.buffer.cells = text.map some ∧
      f.buffer.writes = (List.range text.length).reverse := by
  have hlength : (separated kDigitGroupSize kDigitGroupSeparator 0 digits.reverse).length = _ :=
    length_separated (Nat.zero_le kDigitGroupSize) (by decide) digits.reverse
  rw [List.length_reverse, Nat.zero_add] at hlength
  generalize digits.length + (digits.length - 1) / kDigitGroupSize = size at hlength ⊢
  have hinit : (Filling.init size).Holds [] := ⟨by simp [Filling.init, PresizedBuffer.blank], rfl⟩
  obtain ⟨f, hrun, hf, hindex⟩ := Filling.foldlM_step hinit digits.reverse hlength.le
  have hindex : f.writeIndex = 0 := by
    rw [hindex]
    exact Nat.sub_eq_zero_of_le hlength.ge
  refine ⟨f, hrun, hindex, ?_, ?_⟩
  · simpa [hindex, Filling.init] using hf.cells
  · simpa [hindex, Filling.init] using hf.writes

/-! ### The numeral -/

/-- The text is the decimal numeral of the number, without leading zeros. -/
structure IsNumeral (value : ℕ) (text : Bytes) : Prop where
  nonempty : text ≠ []
  /-- It has decimal digits only. -/
  digits : ∀ b ∈ text, isDecimalDigit b = true
  value : decimalValue text = value
  /-- No leading zero. -/
  head : text.head? ≠ some (byte '0') ∨ text.length = 1

theorem isNumeral_toChars (value : ℕ) : IsNumeral value (toChars value) :=
  ⟨toChars_ne_nil value, fun _ => isDecimalDigit_of_mem_toChars, decimalValue_toChars value,
    toChars_head value⟩

theorem notMem_toChars_of_not_digit {b : UInt8} (hb : isDecimalDigit b = false) (value : ℕ) :
    b ∉ toChars value := fun h => by
  rw [isDecimalDigit_of_mem_toChars h] at hb
  cases hb

/-- A number below a power of ten has no more digits than its exponent. -/
theorem length_toChars_le {value count : ℕ} (hcount : 0 < count) (h : value < 10 ^ count) :
    (toChars value).length ≤ count := by
  unfold toChars
  split_ifs with hzero
  · exact hcount
  · rw [List.length_reverse, List.length_map]
    exact (Nat.digits_length_le_iff (by norm_num) value).2 h

theorem uint64Digits_eq (value : UInt64) : uint64Digits value = some (toChars value.toNat) := by
  have hvalue : value.toNat < 10 ^ kMaxUint64Digits :=
    lt_of_lt_of_le value.toNat_lt (by norm_num [kMaxUint64Digits])
  exact if_pos (length_toChars_le (by decide) hvalue)

/-- **Digits are grouped in threes.**  For every number the loop ends, with `write_index` at zero,
after it wrote each byte of the buffer once, from the last to the first.  Without the commas the
text is the decimal numeral of the number; counted from the right there is a comma after every third
digit and nowhere else, and the text does not begin with one. -/
theorem group_digits_fills_its_buffer (value : UInt64) :
    ∃ filling text, groupDigitsFilling value = some filling ∧ groupDigits value = some text ∧
      filling.writeIndex = 0 ∧ filling.buffer.cells = text.map some ∧
      filling.buffer.writes = (List.range text.length).reverse ∧
      IsNumeral value.toNat (text.filter (· ≠ byte ',')) ∧
      (∀ i < text.length, text.reverse[i]? = some (byte ',') ↔ i % 4 = 3) ∧
      text.head? ≠ some (byte ',') := by
  obtain ⟨f, hfill, hindex, hcells, hwrites⟩ := fillFromTheRight_eq (toChars value.toNat)
  have hcomma : kDigitGroupSeparator ∉ (toChars value.toNat).reverse := by
    rw [List.mem_reverse]
    exact notMem_toChars_of_not_digit rfl _
  have hfilling : groupDigitsFilling value = some f := by
    simp only [groupDigitsFilling, uint64Digits_eq, Option.bind_eq_bind, Option.bind_some]
    exact hfill
  have htext : groupDigits value = f.buffer.contents := by
    rw [groupDigits, hfilling]
    rfl
  refine ⟨f, _, hfilling, htext.trans (PresizedBuffer.contents_eq hcells), hindex, hcells, hwrites, ?_, fun i hi => ?_, ?_⟩
  · change IsNumeral _ (List.filter (· ≠ kDigitGroupSeparator) _)
    rw [List.filter_reverse, filter_separated hcomma, List.reverse_reverse]
    exact isNumeral_toChars _
  · rw [List.length_reverse] at hi
    rw [List.reverse_reverse]
    have hposition := getElem?_separated_iff (Nat.zero_le _) (by decide) hcomma hi
    rw [Nat.zero_add] at hposition
    exact hposition
  · rw [List.head?_reverse, getLast?_separated, List.getLast?_reverse]
    exact fun h => notMem_toChars_of_not_digit rfl value.toNat (List.mem_of_head? h)

end ErikslundHttp
