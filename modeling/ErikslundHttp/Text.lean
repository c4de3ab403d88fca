import Mathlib.Data.Nat.Digits.Defs
import Mathlib.Data.Nat.Digits.Lemmas
import Mathlib.Data.List.Basic
import Mathlib.Data.List.Lex
import Mathlib.Order.Defs.LinearOrder

/-!
# Byte strings and text helpers

The character type of the source is an 8-bit byte, and a `std::string` or the bytes a
`std::string_view` denotes are a `Bytes`.  This module has the ASCII helpers of `text.hpp`
(`asciiToLower`, `equalsIgnoreCase`, `fnv1a64`, `weakEtag`), the decimal conversions the source
takes from `<charconv>` (`decimalValue` for `std::from_chars`, `toChars` for `std::to_chars`), and
`httpDate`.
-/

namespace ErikslundHttp

/-- A byte string. -/
abbrev Bytes := List UInt8

/-- The byte of an ASCII character. -/
def byte (c : Char) : UInt8 := UInt8.ofNat c.toNat

/-- The bytes of an ASCII literal. -/
def ascii (s : String) : Bytes := s.toList.map byte

/-- A literal is read character by character. -/
theorem ascii_ofList (characters : List Char) :
    ascii (String.ofList characters) = characters.map byte := by
  simp [ascii]

/-- A carriage return. -/
def CR : UInt8 := 0x0D

/-- A line feed. -/
def LF : UInt8 := 0x0A

/-- A blank. -/
def space : UInt8 := 0x20

/-- A tab. -/
def horizontalTab : UInt8 := 0x09

/-- `kCrlf`. -/
def crlf : Bytes := [CR, LF]

@[simp] theorem length_crlf : crlf.length = 2 := rfl

/-- Bytes are ordered as `unsigned char`, so that byte strings are ordered as `std::string`. -/
instance linearOrderByte : LinearOrder UInt8 where
  le_refl := UInt8.le_refl
  le_trans := fun _ _ _ => UInt8.le_trans
  lt_iff_le_not_ge := fun a b => by
    simp only [UInt8.lt_iff_toNat_lt, UInt8.le_iff_toNat_le]
    omega
  le_antisymm := fun _ _ => UInt8.le_antisymm
  le_total := UInt8.le_total
  toDecidableLE := inferInstance
  toDecidableEq := inferInstance
  toDecidableLT := inferInstance

/-! ### Letter case -/

/-- `ascii_to_lower`. -/
def asciiToLower (character : UInt8) : UInt8 :=
  if byte 'A' ≤ character && character ≤ byte 'Z' then character + (byte 'a' - byte 'A')
  else character

/-- `equals_ignore_case`. -/
def equalsIgnoreCase (left right : Bytes) : Bool :=
  left.length == right.length &&
    (left.zip right).all fun p => asciiToLower p.1 == asciiToLower p.2

theorem equalsIgnoreCase_iff {left right : Bytes} :
    equalsIgnoreCase left right = true ↔ left.map asciiToLower = right.map asciiToLower := by
  induction left generalizing right with
  | nil => cases right <;> simp [equalsIgnoreCase]
  | cons x xs ih =>
    cases right with
    | nil => simp [equalsIgnoreCase]
    | cons y ys =>
      simp only [equalsIgnoreCase, Bool.and_eq_true, beq_iff_eq, List.length_cons, List.zip_cons_cons,
        List.all_cons, List.map_cons, List.cons.injEq, Nat.add_right_cancel_iff] at ih ⊢
      rw [← ih]
      tauto

theorem equalsIgnoreCase_refl (s : Bytes) : equalsIgnoreCase s s = true :=
  equalsIgnoreCase_iff.2 rfl

theorem equalsIgnoreCase_symm {s t : Bytes} (h : equalsIgnoreCase s t = true) :
    equalsIgnoreCase t s = true :=
  equalsIgnoreCase_iff.2 (equalsIgnoreCase_iff.1 h).symm

theorem equalsIgnoreCase_trans {s t u : Bytes} (h : equalsIgnoreCase s t = true)
    (h' : equalsIgnoreCase t u = true) : equalsIgnoreCase s u = true :=
  equalsIgnoreCase_iff.2 ((equalsIgnoreCase_iff.1 h).trans (equalsIgnoreCase_iff.1 h'))

theorem equalsIgnoreCase_congr_left {s t : Bytes} (h : equalsIgnoreCase s t = true) (u : Bytes) :
    equalsIgnoreCase s u = equalsIgnoreCase t u := by
  rw [Bool.eq_iff_iff, equalsIgnoreCase_iff, equalsIgnoreCase_iff, equalsIgnoreCase_iff.1 h]

/-! ### Decimal numerals -/

/-- An ASCII digit. -/
def isDecimalDigit (character : UInt8) : Bool := byte '0' ≤ character && character ≤ byte '9'

/-- The value of a string of decimal digits, as `std::from_chars` reads it. -/
def decimalValue (text : Bytes) : ℕ :=
  text.foldl (fun value digit => value * 10 + (digit.toNat - 48)) 0

/-- The decimal numeral of a number, as `std::to_chars` writes it. -/
def toChars (value : ℕ) : Bytes :=
  if value = 0 then [byte '0']
  else ((Nat.digits 10 value).map fun d => UInt8.ofNat (48 + d)).reverse

/-- `std::to_string` of a signed number. -/
def signedChars (value : ℤ) : Bytes :=
  if value < 0 then byte '-' :: toChars value.natAbs else toChars value.natAbs

theorem isDecimalDigit_of_lt_ten {d : ℕ} (h : d < 10) : isDecimalDigit (UInt8.ofNat (48 + d)) := by
  interval_cases d <;> decide

theorem toNat_digit {d : ℕ} (h : d < 10) : (UInt8.ofNat (48 + d)).toNat - 48 = d := by
  interval_cases d <;> rfl

theorem isDecimalDigit_of_mem_toChars {value : ℕ} {b : UInt8} (h : b ∈ toChars value) :
    isDecimalDigit b = true := by
  unfold toChars at h
  split_ifs at h with h0
  · rw [List.mem_singleton.1 h]; decide
  · simp only [List.mem_reverse, List.mem_map] at h
    obtain ⟨d, hd, rfl⟩ := h
    exact isDecimalDigit_of_lt_ten (Nat.digits_lt_base (by norm_num) hd)

theorem toChars_ne_nil (value : ℕ) : toChars value ≠ [] := by
  unfold toChars
  split_ifs with h0
  · simp
  · simpa using Nat.digits_ne_nil_iff_ne_zero.2 h0

/-- A numeral begins with no zero, unless it is one. -/
theorem toChars_head (value : ℕ) :
    (toChars value).head? ≠ some (byte '0') ∨ (toChars value).length = 1 := by
  unfold toChars
  split_ifs with h0
  · exact .inr rfl
  · left
    have hne : Nat.digits 10 value ≠ [] := Nat.digits_ne_nil_iff_ne_zero.2 h0
    have hlast := Nat.getLast_digit_ne_zero 10 h0
    have hlt := Nat.digits_lt_base (by norm_num) (List.getLast_mem hne)
    rw [List.head?_reverse, List.getLast?_map, List.getLast?_eq_getLast_of_ne_nil hne]
    generalize (Nat.digits 10 value).getLast hne = d at hlast hlt
    interval_cases d
    · exact absurd rfl hlast
    all_goals decide

theorem foldr_digits (ds : List ℕ) (h : ∀ d ∈ ds, d < 10) :
    (ds.map fun d => UInt8.ofNat (48 + d)).foldr
      (fun digit value => value * 10 + (digit.toNat - 48)) 0 = Nat.ofDigits 10 ds := by
  induction ds with
  | nil => rfl
  | cons d ds ih =>
    simp only [List.map_cons, List.foldr_cons, Nat.ofDigits_cons,
      ih fun x hx => h x (List.mem_cons_of_mem _ hx), toNat_digit (h d List.mem_cons_self)]
    ring

/-- Reading back a written number. -/
theorem decimalValue_toChars (value : ℕ) : decimalValue (toChars value) = value := by
  unfold toChars decimalValue
  split_ifs with h0
  · rw [h0]; rfl
  · rw [List.foldl_reverse, foldr_digits _ fun d hd => Nat.digits_lt_base (by norm_num) hd,
      Nat.ofDigits_digits]

/-! ### Hashes and entity tags -/

/-- The hash of the empty string. -/
def kFnvOffsetBasis64 : UInt64 := 14695981039346656037

/-- What the hash is multiplied by for each byte. -/
def kFnvPrime64 : UInt64 := 1099511628211

/-- FNV-1a is used for lookup and ETags, never for security. -/
def fnv1a64 (input : Bytes) : UInt64 :=
  input.foldl (fun hash character => (hash ^^^ character.toUInt64) * kFnvPrime64) kFnvOffsetBasis64

/-- `kLowerHexDigits`. -/
def hexDigits : Bytes := ascii "0123456789abcdef"

/-- `weak_etag_buffer` of a hash: its sixteen hexadecimal digits, most significant first. -/
def weakEtagBuffer (hash : UInt64) : Bytes :=
  ascii "W/\"" ++
    (List.range 16).map (fun index =>
      hexDigits.getD ((hash >>> UInt64.ofNat ((15 - index) * 4)) &&& 0xF).toNat 0) ++
    ascii "\""

/-- `weak_etag`. -/
def weakEtag (body : Bytes) : Bytes := weakEtagBuffer (fnv1a64 body)

/-! ### Dates -/

/-- A reading of `std::chrono::system_clock`, in nanoseconds from 1970-01-01T00:00:00Z. -/
abbrev SystemTime := ℤ

/-- A date of the Gregorian calendar. -/
structure CivilDate where
  year : ℤ
  month : ℕ
  day : ℕ
  deriving DecidableEq, Repr

/-- The proleptic Gregorian date of a day number, which `std::format` computes for `sys_seconds`.
Years are counted from March, in eras of 400 years. -/
def civilDate (days : ℤ) : CivilDate :=
  let shifted := days + 719468
  let era := shifted / 146097
  let dayOfEra := (shifted % 146097).toNat
  let yearOfEra := (dayOfEra - dayOfEra / 1460 + dayOfEra / 36524 - dayOfEra / 146096) / 365
  let dayOfYear := dayOfEra - (365 * yearOfEra + yearOfEra / 4 - yearOfEra / 100)
  let monthFromMarch := (5 * dayOfYear + 2) / 153
  let month := if monthFromMarch < 10 then monthFromMarch + 3 else monthFromMarch - 9
  { year := yearOfEra + era * 400 + (if month ≤ 2 then 1 else 0)
    month := month
    day := dayOfYear - (153 * monthFromMarch + 2) / 5 + 1 }

/-- A numeral padded with zeros to `width`. -/
def padded (width value : ℕ) : Bytes :=
  List.replicate (width - (toChars value).length) (byte '0') ++ toChars value

/-- `%a`. -/
def weekdayNames : List Bytes := ["Sun", "Mon", "Tue", "Wed", "Thu", "Fri", "Sat"].map ascii

/-- `%b`. -/
def monthNames : List Bytes :=
  ["Jan", "Feb", "Mar", "Apr", "May", "Jun", "Jul", "Aug", "Sep", "Oct", "Nov", "Dec"].map ascii

/-- RFC 9110 IMF-fixdate in GMT and the C locale. -/
def httpDate (time : SystemTime) : Bytes :=
  let truncated := time / 1000000000
  let days := truncated / 86400
  let secondOfDay := (truncated % 86400).toNat
  let date := civilDate days
  weekdayNames.getD ((days + 4) % 7).toNat [] ++ ascii ", " ++ padded 2 date.day ++ ascii " " ++
    monthNames.getD (date.month - 1) [] ++ ascii " " ++
    (if date.year < 0 then ascii "-" else []) ++ padded 4 date.year.natAbs ++ ascii " " ++
    padded 2 (secondOfDay / 3600) ++ ascii ":" ++ padded 2 (secondOfDay / 60 % 60) ++ ascii ":" ++
    padded 2 (secondOfDay % 60) ++ ascii " GMT"

example : httpDate 784111777123456789 = ascii "Sun, 06 Nov 1994 08:49:37 GMT" := by decide +kernel

/-- No control character, so that the text can stand in a field line. -/
def IsPrintable (text : Bytes) : Prop := ∀ b ∈ text, 0x20 ≤ b ∧ b ≠ 0x7F

theorem IsPrintable.append {s t : Bytes} (hs : IsPrintable s) (ht : IsPrintable t) :
    IsPrintable (s ++ t) := fun b hb =>
  (List.mem_append.1 hb).elim (hs b) (ht b)

instance (text : Bytes) : Decidable (IsPrintable text) :=
  inferInstanceAs (Decidable (∀ b ∈ text, 0x20 ≤ b ∧ b ≠ 0x7F))

theorem isPrintable_toChars (value : ℕ) : IsPrintable (toChars value) := by
  intro b hb
  have hdigit := isDecimalDigit_of_mem_toChars hb
  simp only [isDecimalDigit, Bool.and_eq_true, decide_eq_true_eq, UInt8.le_iff_toNat_le] at hdigit
  rw [UInt8.le_iff_toNat_le, Ne, ← UInt8.toNat_inj]
  have hlow : (byte '0').toNat = 48 := rfl
  have hhigh : (byte '9').toNat = 57 := rfl
  refine ⟨?_, ?_⟩
  · show 32 ≤ b.toNat
    omega
  · show b.toNat ≠ 127
    omega

theorem isPrintable_padded (width value : ℕ) : IsPrintable (padded width value) := by
  refine IsPrintable.append ?_ (isPrintable_toChars value)
  intro b hb
  rw [List.eq_of_mem_replicate hb]
  decide

theorem isPrintable_getD {names : List Bytes} (h : ∀ name ∈ names, IsPrintable name) (i : ℕ) :
    IsPrintable (names.getD i []) := by
  rw [List.getD_eq_getElem?_getD]
  cases hi : names[i]? with
  | none => exact fun b hb => absurd hb List.not_mem_nil
  | some name => exact h name (List.mem_of_getElem? hi)

theorem isPrintable_httpDate (time : SystemTime) : IsPrintable (httpDate time) := by
  unfold httpDate
  have hweekday := isPrintable_getD (show ∀ name ∈ weekdayNames, IsPrintable name by decide +kernel)
  have hmonth := isPrintable_getD (show ∀ name ∈ monthNames, IsPrintable name by decide +kernel)
  refine ((((((((((((((hweekday _).append ?_).append ?_).append ?_).append (hmonth _)).append ?_).append
    ?_).append ?_).append ?_).append ?_).append ?_).append ?_).append ?_).append ?_).append ?_
  all_goals first | exact isPrintable_padded _ _ | decide +kernel | skip
  split_ifs <;> decide +kernel

end ErikslundHttp
