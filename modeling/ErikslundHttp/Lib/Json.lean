import ErikslundHttp.Lib.Reader
import ErikslundHttp.Lib.Utf8

/-!
# JSON

A reader of JSON texts, byte by byte: `decode` takes a text with one value, and nothing but white
space around it.  Strings are read to their UTF-8, numbers are kept as they are spelled once they
have the form of a number (`isNumber`).

* `Reads text value` says that the reader finds the value at the start of every text that goes on
  after `text` with something that is not part of a number.
* `reads_string`, `reads_number`, `reads_array`, `reads_object`: it holds of the parts of a text.
* `Reads.decode`: and of the text.
-/

namespace ErikslundHttp

open Utf8 Reader

/-- A JSON value.  The names of an object are in order, and may be there more than once. -/
inductive Json where
  | null
  | bool (value : Bool)
  | number (spelled : List UInt8)
  | string (text : List UInt8)
  | array (items : List Json)
  | object (members : List (List UInt8 × Json))

namespace Json

/-! ### Bytes -/

/-- The whitespace of RFC 8259. -/
def isWhitespace (b : UInt8) : Bool := b == 0x20 || b == 0x09 || b == 0x0A || b == 0x0D

/-- The text after its white space. -/
def skip (text : List UInt8) : List UInt8 := text.dropWhile isWhitespace

/-- A decimal digit. -/
def isDigit (b : UInt8) : Bool := 0x30 ≤ b && b ≤ 0x39

/-! ### Numbers -/

/-- A digit, a sign, a point or an exponent. -/
def isNumberByte (b : UInt8) : Bool :=
  isDigit b || b == 0x2B || b == 0x2D || b == 0x2E || b == 0x45 || b == 0x65

/-- At least one digit, and nothing else. -/
def isDigits (text : List UInt8) : Bool := !text.isEmpty && text.all isDigit

/-- `0`, or digits of which the first is not `0`. -/
def isInteger (text : List UInt8) : Bool :=
  isDigits text && (text.head? != some 0x30 || text.length == 1)

/-- What is left after the integer: a fraction, an exponent, both or neither. -/
def isExponent : List UInt8 → Bool
  | [] => true
  | e :: text =>
    (e == 0x45 || e == 0x65) &&
      match text with
      | [] => false
      | sign :: digits => if sign == 0x2B || sign == 0x2D then isDigits digits else isDigits text

/-- What may follow the integer of a number. -/
def isFraction : List UInt8 → Bool
  | [] => true
  | b :: text =>
    if b == 0x2E then
      let (digits, exponent) := readWhile isDigit text
      isDigits digits && isExponent exponent
    else isExponent (b :: text)

/-- A number behind its sign. -/
def isUnsignedNumber (text : List UInt8) : Bool :=
  let (integer, fraction) := readWhile isDigit text
  isInteger integer && isFraction fraction

/-- The form of a number. -/
def isNumber : List UInt8 → Bool
  | [] => false
  | b :: text => if b == 0x2D then isUnsignedNumber text else isUnsignedNumber (b :: text)

/-! ### Strings -/

/-- The value of a hexadecimal digit. -/
def unitDigit (b : UInt8) : Option ℕ :=
  if 0x30 ≤ b && b ≤ 0x39 then some (b.toNat - 0x30)
  else if 0x41 ≤ b && b ≤ 0x46 then some (b.toNat - 0x41 + 10)
  else if 0x61 ≤ b && b ≤ 0x66 then some (b.toNat - 0x61 + 10)
  else none

/-- Four hexadecimal digits. -/
def readUnit : List UInt8 → Option (ℕ × List UInt8)
  | a :: b :: c :: d :: rest => do
    let a ← unitDigit a
    let b ← unitDigit b
    let c ← unitDigit c
    let d ← unitDigit d
    return (((a * 16 + b) * 16 + c) * 16 + d, rest)
  | _ => none

/-- A character in one unit, or in two surrogates. -/
def readUnicode (text : List UInt8) : Option (List UInt8 × List UInt8) := do
  let (unit, rest) ← readUnit text
  if unit < 0xD800 || 0xDFFF < unit then
    return (String.utf8EncodeChar (Char.ofNat unit), rest)
  else if unit ≤ 0xDBFF then do
    let rest ← expect [0x5C, 0x75] rest
    let (low, rest) ← readUnit rest
    if 0xDC00 ≤ low && low ≤ 0xDFFF then
      let code := 0x10000 + (unit - 0xD800) * 0x400 + (low - 0xDC00)
      return (String.utf8EncodeChar (Char.ofNat code), rest)
    else none
  else none

/-- What comes after a backslash. -/
def readEscape : List UInt8 → Option (List UInt8 × List UInt8)
  | [] => none
  | b :: rest =>
    if b == 0x22 || b == 0x5C || b == 0x2F then some ([b], rest)
    else if b == 0x62 then some ([0x08], rest)
    else if b == 0x66 then some ([0x0C], rest)
    else if b == 0x6E then some ([0x0A], rest)
    else if b == 0x72 then some ([0x0D], rest)
    else if b == 0x74 then some ([0x09], rest)
    else if b == 0x75 then readUnicode rest
    else none

/-- A string after its opening quote, of at most `fuel` characters. -/
def readString : ℕ → List UInt8 → Option (List UInt8 × List UInt8)
  | 0, _ => none
  | _, [] => none
  | fuel + 1, b :: rest =>
    if b == 0x22 then some ([], rest)
    else if b == 0x5C then do
      let (character, rest) ← readEscape rest
      let (text, rest) ← readString fuel rest
      return (character ++ text, rest)
    else if b < 0x20 then none
    else do
      let (text, rest) ← readString fuel rest
      return (b :: text, rest)

/-! ### Values -/

/-- An item, and the white space around it. -/
def readItem {β : Type} (read : List UInt8 → Option (β × List UInt8)) (text : List UInt8) :
    Option (β × List UInt8) := do
  let (value, rest) ← read (skip text)
  return (value, skip rest)

/-- Items with commas between them, up to the `close`. -/
def readItems {β : Type} (read : List UInt8 → Option (β × List UInt8)) (close : UInt8)
    (text : List UInt8) : Option (List β × List UInt8) :=
  match skip text with
  | [] => none
  | b :: rest =>
    if b == close then some ([], rest)
    else do
      let (first, rest) ← readItem read (b :: rest)
      let (items, rest) ← readRest (readItem read) 0x2C close rest.length rest
      return (first :: items, rest)

/-- A member of an object, with a reader for its value. -/
def readMember (read : List UInt8 → Option (Json × List UInt8)) (text : List UInt8) :
    Option ((List UInt8 × Json) × List UInt8) := do
  let text ← expect [0x22] text
  let (name, text) ← readString text.length text
  let text ← expect [0x3A] (skip text)
  let (value, text) ← read (skip text)
  return ((name, value), text)

/-- A value, of parts that are nested at most `fuel` deep. -/
def readValue : ℕ → List UInt8 → Option (Json × List UInt8)
  | 0, _ => none
  | _, [] => none
  | fuel + 1, b :: rest =>
    if b == 0x22 then do
      let (text, rest) ← readString rest.length rest
      return (.string text, rest)
    else if b == 0x5B then do
      let (items, rest) ← readItems (readValue fuel) 0x5D rest
      return (.array items, rest)
    else if b == 0x7B then do
      let (members, rest) ← readItems (readMember (readValue fuel)) 0x7D rest
      return (.object members, rest)
    else if b == 0x6E then do
      let rest ← expect [0x75, 0x6C, 0x6C] rest
      return (.null, rest)
    else if b == 0x74 then do
      let rest ← expect [0x72, 0x75, 0x65] rest
      return (.bool true, rest)
    else if b == 0x66 then do
      let rest ← expect [0x61, 0x6C, 0x73, 0x65] rest
      return (.bool false, rest)
    else
      let (spelled, rest) := readWhile isNumberByte (b :: rest)
      if isNumber spelled then some (.number spelled, rest) else none

/-- A text with one value. -/
def decode (text : List UInt8) : Option Json := do
  let (value, rest) ← readValue text.length (skip text)
  if (skip rest).isEmpty then some value else none

/-! ### What the reader finds -/

/-- What comes after a text does not go on with a number. -/
def Ends (rest : List UInt8) : Prop := ∀ b, rest.head? = some b → isNumberByte b = false

/-- A text that begins with neither white space nor the `close` of a list. -/
def Begins (close : UInt8) (text : List UInt8) : Prop :=
  ∃ b rest, text = b :: rest ∧ isWhitespace b = false ∧ b ≠ close

/-- The reader finds the value at the start of every text that goes on after this one. -/
structure Reads (text : List UInt8) (value : Json) : Prop where
  begins : Begins 0x5D text
  /-- Enough fuel reads the value, and leaves what follows. -/
  read : ∀ fuel rest, text.length ≤ fuel → Ends rest →
    readValue fuel (text ++ rest) = some (value, rest)

/-- The reader finds the text at the start of every string that goes on with a quote. -/
def ReadsString (spelled text : List UInt8) : Prop :=
  ∀ fuel rest, spelled.length < fuel → readString fuel (spelled ++ 0x22 :: rest) = some (text, rest)

theorem skip_of_head {rest : List UInt8} (h : ∀ b, rest.head? = some b → isWhitespace b = false) :
    skip rest = rest := by
  cases rest with
  | nil => rfl
  | cons b rest => rw [skip, List.dropWhile_cons_of_neg (by rw [h b rfl]; exact Bool.false_ne_true)]

theorem skip_cons {b : UInt8} (h : isWhitespace b = false) (rest : List UInt8) :
    skip (b :: rest) = b :: rest :=
  skip_of_head fun _ hb => Option.some.inj hb ▸ h

theorem Begins.skip {close : UInt8} {text : List UInt8} (h : Begins close text)
    (rest : List UInt8) : skip (text ++ rest) = text ++ rest := by
  obtain ⟨b, tail, rfl, hb, -⟩ := h
  exact skip_cons hb _

theorem readsString_nil : ReadsString [] [] := by
  intro fuel rest hfuel
  obtain ⟨fuel, rfl⟩ := Nat.exists_eq_add_one_of_ne_zero (Nat.ne_zero_of_lt hfuel)
  rfl

/-- A byte that needs no escape. -/
theorem ReadsString.cons_plain {spelled text : List UInt8} (h : ReadsString spelled text) {b : UInt8}
    (hquote : b ≠ 0x22) (hescape : b ≠ 0x5C) (hcontrol : ¬ b < 0x20) :
    ReadsString (b :: spelled) (b :: text) := by
  intro fuel rest hfuel
  obtain ⟨fuel, rfl⟩ := Nat.exists_eq_add_one_of_ne_zero (Nat.ne_zero_of_lt hfuel)
  have hread := h fuel rest (by simpa using hfuel)
  simp [readString, hquote, hescape, hcontrol, hread]

/-- A character that is escaped. -/
theorem ReadsString.cons_escaped {spelled text : List UInt8} (h : ReadsString spelled text)
    (escape character : List UInt8)
    (hescape : ∀ rest, readEscape (escape ++ rest) = some (character, rest)) :
    ReadsString (0x5C :: (escape ++ spelled)) (character ++ text) := by
  intro fuel rest hfuel
  obtain ⟨fuel, rfl⟩ := Nat.exists_eq_add_one_of_ne_zero (Nat.ne_zero_of_lt hfuel)
  have hread := h fuel rest (by simp at hfuel; omega)
  simp [readString, hescape, hread]

theorem reads_string {spelled text : List UInt8} (h : ReadsString spelled text) :
    Reads (0x22 :: (spelled ++ [0x22])) (.string text) := by
  refine ⟨⟨0x22, _, rfl, by decide, by decide⟩, fun fuel rest hfuel _ => ?_⟩
  obtain ⟨fuel, rfl⟩ := Nat.exists_eq_add_one_of_ne_zero (Nat.ne_zero_of_lt hfuel)
  have hread := h (spelled ++ 0x22 :: rest).length rest (by simp)
  simp only [List.length_append, List.length_cons] at hread
  simp [readValue, hread]

theorem reads_null : Reads [0x6E, 0x75, 0x6C, 0x6C] .null := by
  refine ⟨⟨0x6E, _, rfl, by decide, by decide⟩, fun fuel rest hfuel _ => ?_⟩
  obtain ⟨fuel, rfl⟩ := Nat.exists_eq_add_one_of_ne_zero (Nat.ne_zero_of_lt hfuel)
  have hexpect := expect_append [0x75, 0x6C, 0x6C] rest
  simp only [List.cons_append, List.nil_append] at hexpect
  simp [readValue, hexpect]

/-! ### Numbers are read -/

theorem isNumberByte_of_isDigit {b : UInt8} (h : isDigit b = true) : isNumberByte b = true := by
  simp [isNumberByte, h]

theorem isNumberByte_of_isDigits {text : List UInt8} (h : isDigits text = true) :
    ∀ b ∈ text, isNumberByte b = true := by
  simp only [isDigits, Bool.and_eq_true, List.all_eq_true] at h
  exact fun b hb => isNumberByte_of_isDigit (h.2 b hb)

theorem isNumberByte_of_isExponent {text : List UInt8} (h : isExponent text = true) :
    ∀ b ∈ text, isNumberByte b = true := by
  cases text with
  | nil => simp
  | cons e text =>
    cases text with
    | nil => simp [isExponent] at h
    | cons sign digits =>
      simp only [isExponent, Bool.and_eq_true, Bool.or_eq_true, beq_iff_eq] at h
      obtain ⟨he, hdigits⟩ := h
      have hbyte : isNumberByte e = true := by rcases he with rfl | rfl <;> decide
      refine List.forall_mem_cons.2 ⟨hbyte, ?_⟩
      split_ifs at hdigits with hsign
      · have hbyte : isNumberByte sign = true := by rcases hsign with rfl | rfl <;> decide
        exact List.forall_mem_cons.2 ⟨hbyte, isNumberByte_of_isDigits hdigits⟩
      · exact isNumberByte_of_isDigits hdigits

theorem isNumberByte_of_isFraction {text : List UInt8} (h : isFraction text = true) :
    ∀ b ∈ text, isNumberByte b = true := by
  cases text with
  | nil => simp
  | cons b text =>
    rw [isFraction] at h
    split_ifs at h with hpoint
    · simp only [readWhile, Bool.and_eq_true] at h
      have hbyte : isNumberByte b = true := by rw [beq_iff_eq.1 hpoint]; decide
      have htext : ∀ c ∈ text, isNumberByte c = true := by
        rw [← List.takeWhile_append_dropWhile (p := isDigit) (l := text)]
        exact List.forall_mem_append.2
          ⟨isNumberByte_of_isDigits h.1, isNumberByte_of_isExponent h.2⟩
      exact List.forall_mem_cons.2 ⟨hbyte, htext⟩
    · exact isNumberByte_of_isExponent h

theorem isNumberByte_of_isUnsignedNumber {text : List UInt8} (h : isUnsignedNumber text = true) :
    ∀ b ∈ text, isNumberByte b = true := by
  simp only [isUnsignedNumber, readWhile, isInteger, Bool.and_eq_true] at h
  rw [← List.takeWhile_append_dropWhile (p := isDigit) (l := text)]
  exact List.forall_mem_append.2
    ⟨isNumberByte_of_isDigits h.1.1, isNumberByte_of_isFraction h.2⟩

theorem isNumberByte_of_isNumber {text : List UInt8} (h : isNumber text = true) :
    ∀ b ∈ text, isNumberByte b = true := by
  cases text with
  | nil => simp
  | cons b text =>
    rw [isNumber] at h
    split_ifs at h with hminus
    · have hbyte : isNumberByte b = true := by rw [beq_iff_eq.1 hminus]; decide
      exact List.forall_mem_cons.2 ⟨hbyte, isNumberByte_of_isUnsignedNumber h⟩
    · exact isNumberByte_of_isUnsignedNumber h

/-- An integer is a number. -/
theorem isNumber_of_isInteger {text : List UInt8} (h : isInteger text = true) :
    isNumber text = true := by
  have hdigits : isDigits text = true := by
    simp only [isInteger, Bool.and_eq_true] at h
    exact h.1
  simp only [isDigits, Bool.and_eq_true, List.all_eq_true] at hdigits
  have hread : readWhile isDigit text = (text, []) := by
    simpa using readWhile_append hdigits.2 (by simp : ∀ b, [].head? = some b → isDigit b = false)
  cases text with
  | nil => cases h
  | cons b text =>
    have hb := hdigits.2 b List.mem_cons_self
    have hminus : b ≠ 0x2D := by
      rintro rfl
      cases hb
    simp [isNumber, hminus, isUnsignedNumber, hread, h, isFraction]

theorem ne_of_isNumberByte {b c : UInt8} (h : isNumberByte b = true) (hc : isNumberByte c = false) :
    b ≠ c := fun heq => Bool.false_ne_true (hc.symm.trans (heq ▸ h))

theorem reads_number {spelled : List UInt8} (h : isNumber spelled = true) :
    Reads spelled (.number spelled) := by
  have hbytes := isNumberByte_of_isNumber h
  cases spelled with
  | nil => cases h
  | cons b tail =>
    have hb := hbytes b List.mem_cons_self
    refine ⟨⟨b, tail, rfl, ?_, ne_of_isNumberByte hb (by decide)⟩, fun fuel rest hfuel hrest => ?_⟩
    · simp [isWhitespace, ne_of_isNumberByte hb (c := 0x20) (by decide),
        ne_of_isNumberByte hb (c := 0x09) (by decide),
        ne_of_isNumberByte hb (c := 0x0A) (by decide),
        ne_of_isNumberByte hb (c := 0x0D) (by decide)]
    · obtain ⟨fuel, rfl⟩ := Nat.exists_eq_add_one_of_ne_zero (Nat.ne_zero_of_lt hfuel)
      have hread := readWhile_append hbytes hrest
      rw [List.cons_append] at hread ⊢
      simp [readValue, hread, h, ne_of_isNumberByte hb (c := 0x22) (by decide),
        ne_of_isNumberByte hb (c := 0x5B) (by decide),
        ne_of_isNumberByte hb (c := 0x7B) (by decide),
        ne_of_isNumberByte hb (c := 0x6E) (by decide),
        ne_of_isNumberByte hb (c := 0x74) (by decide),
        ne_of_isNumberByte hb (c := 0x66) (by decide)]

/-! ### Lists are read -/

theorem ends_of_follows {close : UInt8} (hclose : isNumberByte close = false) {rest : List UInt8}
    (h : Follows 0x2C close rest) : Ends rest := by
  intro b hb
  rcases h with hcomma | hlast
  · rw [← Option.some.inj (hcomma.symm.trans hb)]
    decide
  · rwa [← Option.some.inj (hlast.symm.trans hb)]

theorem skip_of_follows {close : UInt8} (hclose : isWhitespace close = false) {rest : List UInt8}
    (h : Follows 0x2C close rest) : skip rest = rest := by
  refine skip_of_head fun b hb => ?_
  rcases h with hcomma | hlast
  · rw [← Option.some.inj (hcomma.symm.trans hb)]
    decide
  · rwa [← Option.some.inj (hlast.symm.trans hb)]

/-- Items that are each read are read off the list of them. -/
theorem readItems_intercalate {β : Type} {read : List UInt8 → Option (β × List UInt8)}
    {close : UInt8} (hcomma : 0x2C ≠ close) (hclose : isWhitespace close = false)
    {items : List (List UInt8 × β)}
    (h : ∀ item ∈ items, Begins close item.1 ∧ ∀ rest, Follows 0x2C close rest →
      read (item.1 ++ rest) = some (item.2, rest)) (rest : List UInt8) :
    readItems read close ([0x2C].intercalate (items.map Prod.fst) ++ close :: rest) =
      some (items.map Prod.snd, rest) := by
  cases items with
  | nil => simp [readItems, skip_cons hclose]
  | cons item items =>
    have hread : ∀ item' ∈ item :: items, ∀ rest, Follows 0x2C close rest →
        readItem read (item'.1 ++ rest) = some (item'.2, rest) := by
      intro item' hitem' rest hrest
      obtain ⟨hbegins, hread⟩ := h item' hitem'
      simp [readItem, hbegins.skip, hread rest hrest, skip_of_follows hclose hrest]
    obtain ⟨hfirst, hitems⟩ := List.forall_mem_cons.1 hread
    obtain ⟨b, tail, htext, hb, hne⟩ := (h item List.mem_cons_self).1
    have hafter : ∀ text, text = items.flatMap (fun item => 0x2C :: item.1) ++ close :: rest →
        readRest (readItem read) 0x2C close text.length text =
          some (items.map Prod.snd, rest) := by
      rintro _ rfl
      exact readRest_flatMap hcomma hitems (length_lt_length_flatMap items Prod.fst _ _ _) rest
    have hfollows := follows_flatMap 0x2C close items Prod.fst rest
    rw [List.map_cons, intercalate_cons, List.flatMap_map, List.append_assoc, readItems,
      Begins.skip ⟨b, tail, htext, hb, hne⟩]
    have hcons := hfirst _ hfollows
    rw [htext, List.cons_append] at hcons ⊢
    simp only [beq_iff_eq, hne, if_false, hcons]
    dsimp only [Option.bind_eq_bind, Option.bind_some]
    rw [hafter _ rfl]
    rfl

theorem reads_array (items : List (List UInt8 × Json)) (h : ∀ item ∈ items, Reads item.1 item.2) :
    Reads (0x5B :: ([0x2C].intercalate (items.map Prod.fst) ++ [0x5D]))
      (.array (items.map Prod.snd)) := by
  refine ⟨⟨0x5B, _, rfl, by decide, by decide⟩, fun fuel rest hfuel _ => ?_⟩
  obtain ⟨fuel, rfl⟩ := Nat.exists_eq_add_one_of_ne_zero (Nat.ne_zero_of_lt hfuel)
  have hitems : ∀ item ∈ items, Begins 0x5D item.1 ∧ ∀ rest, Follows 0x2C 0x5D rest →
      readValue fuel (item.1 ++ rest) = some (item.2, rest) := by
    intro item hitem
    refine ⟨(h item hitem).begins, fun rest hrest => ?_⟩
    refine (h item hitem).read fuel rest ?_ (ends_of_follows (by decide) hrest)
    have hle := length_le_length_intercalate (List.mem_map_of_mem (f := Prod.fst) hitem) 0x2C
    simp only [List.length_cons, List.length_append] at hfuel
    omega
  have hread := readItems_intercalate (by decide) (by decide) hitems rest
  simp [readValue, hread]

/-- A string without escapes. -/
theorem readsString_plain {text : List UInt8}
    (h : ∀ b ∈ text, b ≠ 0x22 ∧ b ≠ 0x5C ∧ ¬ b < 0x20) : ReadsString text text := by
  induction text with
  | nil => exact readsString_nil
  | cons b text ih =>
    obtain ⟨⟨hquote, hescape, hcontrol⟩, htext⟩ := List.forall_mem_cons.1 h
    exact (ih htext).cons_plain hquote hescape hcontrol

/-- A character in one unit that is an ASCII character. -/
theorem readEscape_ascii {a b c d : UInt8} {w x y z : ℕ} (ha : unitDigit a = some w)
    (hb : unitDigit b = some x) (hc : unitDigit c = some y) (hd : unitDigit d = some z)
    {code : UInt8} (hcode : ((w * 16 + x) * 16 + y) * 16 + z = code.toNat)
    (hascii : code.toNat < 0x80) (rest : List UInt8) :
    readEscape (0x75 :: a :: b :: c :: d :: rest) = some ([code], rest) := by
  have hunit : readUnit (a :: b :: c :: d :: rest) = some (code.toNat, rest) := by
    simp [readUnit, ha, hb, hc, hd, hcode]
  have hlow : code.toNat < 0xD800 := by omega
  simp [readEscape, readUnicode, hunit, hlow, utf8EncodeChar_ofNat hascii]

/-- A member of an object: its name and its value, spelled and read. -/
structure ReadsMember (text : List UInt8) (member : List UInt8 × Json) : Prop where
  /-- A name in quotes, a colon and the value. -/
  split : ∃ spelled value, text = 0x22 :: (spelled ++ 0x22 :: 0x3A :: value) ∧
    ReadsString spelled member.1 ∧ Reads value member.2

theorem reads_object (members : List (List UInt8 × (List UInt8 × Json)))
    (h : ∀ member ∈ members, ReadsMember member.1 member.2) :
    Reads (0x7B :: ([0x2C].intercalate (members.map Prod.fst) ++ [0x7D]))
      (.object (members.map Prod.snd)) := by
  refine ⟨⟨0x7B, _, rfl, by decide, by decide⟩, fun fuel rest hfuel _ => ?_⟩
  obtain ⟨fuel, rfl⟩ := Nat.exists_eq_add_one_of_ne_zero (Nat.ne_zero_of_lt hfuel)
  have hmembers : ∀ member ∈ members, Begins 0x7D member.1 ∧ ∀ rest, Follows 0x2C 0x7D rest →
      readMember (readValue fuel) (member.1 ++ rest) = some (member.2, rest) := by
    intro member hmember
    have hle := length_le_length_intercalate (List.mem_map_of_mem (f := Prod.fst) hmember) 0x2C
    obtain ⟨spelled, value, htext, hname, hvalue⟩ := (h member hmember).split
    refine ⟨⟨0x22, _, htext, by decide, by decide⟩, fun rest hrest => ?_⟩
    have hlength : value.length ≤ fuel := by
      simp only [htext, List.length_cons, List.length_append] at hle hfuel
      omega
    have hread := hvalue.read fuel rest hlength (ends_of_follows (by decide) hrest)
    have hstring := hname (spelled ++ 0x22 :: 0x3A :: (value ++ rest)).length
      (0x3A :: (value ++ rest)) (by simp)
    have hquote := expect_append [0x22] (spelled ++ 0x22 :: 0x3A :: (value ++ rest))
    have hcolon := expect_append [0x3A] (value ++ rest)
    simp only [List.cons_append, List.nil_append, List.length_append, List.length_cons]
      at hquote hcolon hstring
    simp [readMember, htext, hquote, hstring, skip_cons (b := 0x3A) (by decide), hcolon,
      hvalue.begins.skip, hread]
  have hread := readItems_intercalate (by decide) (by decide) hmembers rest
  simp [readValue, hread]

/-- A text that is a value, and white space after it. -/
theorem Reads.decode {text : List UInt8} {value : Json} (h : Reads text value) {rest : List UInt8}
    (hrest : ∀ b ∈ rest, isWhitespace b = true) : decode (text ++ rest) = some value := by
  have hends : Ends rest := by
    intro b hb
    have hspace := hrest b (List.mem_of_mem_head? hb)
    simp only [isWhitespace, Bool.or_eq_true, beq_iff_eq] at hspace
    obtain ((rfl | rfl) | rfl) | rfl := hspace <;> decide
  have hread := h.read (text ++ rest).length rest (by simp) hends
  have hskip : skip rest = [] := List.dropWhile_eq_nil_iff.2 hrest
  rw [List.length_append] at hread
  simp [Json.decode, h.begins.skip, hread, hskip]

end Json

end ErikslundHttp
