import ErikslundHttp.Text

/-!
# The identity of a client certificate

A verified client certificate gives its connection a text that names its subject, and handlers
ask that text for an attribute with `client_identity_has_attribute` (`tls.hpp`).  OpenSSL prints
the subject in the form of RFC 2253, which leaves an equals sign in a value as it is;
`escape_equals_inside_values` (`tls_transport.cpp`) then spells those in hex.

Each byte of a value is printed as a piece of text of its own: itself, itself after a backslash, or
two hex digits after one.  The rewriter and the matcher read such a text piece by piece, whatever
stands around it, so a value never ends early and no text in it is taken for an attribute.

* `finalByte_cases`: the pieces of a value.
* `escapeEqualsInsideValues_printName`: the rewriter gives every byte its piece.
* `clientIdentityHasAttribute_printName`: the matcher finds the attributes of a printed name.
* `client_identity_is_exact`: the two together.
-/

namespace ErikslundHttp

namespace ClientIdentity

/-- What stands between two relative names. -/
def kRelativeNameSeparator : UInt8 := byte ','

/-- What stands between the attributes of one. -/
def kRelativeNameValueJoiner : UInt8 := byte '+'

/-- What stands between the type and the value of an attribute. -/
def kRelativeNameAssignment : UInt8 := byte '='

/-- What begins an escape in a value. -/
def kRelativeNameEscape : UInt8 := byte '\\'

/-- The base of an escape by number. -/
def kRelativeNameHexRadix : ℕ := 16

/-- The value of the digit `A`. -/
def kRelativeNameHexLetterOffset : ℕ := 10

/-- What stands for an equals sign inside a value. -/
def kEqualsHexEscape : Bytes := ascii "\\3D"

/-- A separator of attributes. -/
def isSeparator (character : UInt8) : Bool :=
  character == kRelativeNameSeparator || character == kRelativeNameValueJoiner

/-! ### The rewriter -/

/-- The loop of `escape_equals_inside_values` over the text that is left. -/
def escapeEqualsLoop (insideValue : Bool) : Bytes → Bytes
  | [] => []
  | character :: rest =>
    if character = kRelativeNameEscape then
      match rest with
      | [] => [character]
      | next :: rest => character :: next :: escapeEqualsLoop insideValue rest
    else if character = kRelativeNameAssignment then
      if insideValue then kEqualsHexEscape ++ escapeEqualsLoop insideValue rest
      else character :: escapeEqualsLoop true rest
    else if isSeparator character then character :: escapeEqualsLoop false rest
    else character :: escapeEqualsLoop insideValue rest

/-- `escape_equals_inside_values`. -/
def escapeEqualsInsideValues (printed : Bytes) : Bytes := escapeEqualsLoop false printed

/-! ### The matcher -/

/-- `none` is `kNotARelativeNameHexDigit`. -/
def hexDigitValue (character : UInt8) : Option ℕ :=
  if byte '0' ≤ character ∧ character ≤ byte '9' then some (character - byte '0').toNat
  else if byte 'a' ≤ character ∧ character ≤ byte 'f' then
    some ((character - byte 'a').toNat + kRelativeNameHexLetterOffset)
  else if byte 'A' ≤ character ∧ character ≤ byte 'F' then
    some ((character - byte 'A').toNat + kRelativeNameHexLetterOffset)
  else none

/-- `same_value` and `compared`, after one more byte of the value in the identity. -/
def compareNext (value : Bytes) (state : Bool × ℕ) (decoded : UInt8) : Bool × ℕ :=
  if !state.1 then state
  else if state.2 == value.length || value[state.2]? != some decoded then (false, state.2)
  else (true, state.2 + 1)

/-- The loop over one value: `same_value` and `compared` after it, and the text from the separator
on. -/
def valueLoop (value : Bytes) (state : Bool × ℕ) : Bytes → (Bool × ℕ) × Bytes
  | [] => (state, [])
  | decoded :: rest =>
    if isSeparator decoded then (state, decoded :: rest)
    else if decoded = kRelativeNameEscape then
      match rest with
      | [] => (compareNext value state decoded, [])
      | [character] => (compareNext value state character, [])
      | first :: second :: rest =>
        match hexDigitValue first, hexDigitValue second with
        | some high, some low =>
          valueLoop value
            (compareNext value state (UInt8.ofNat (high * kRelativeNameHexRadix + low))) rest
        | _, _ => valueLoop value (compareNext value state first) (second :: rest)
    else valueLoop value (compareNext value state decoded) rest

theorem length_valueLoop_le (value : Bytes) (state : Bool × ℕ) (text : Bytes) :
    (valueLoop value state text).2.length ≤ text.length := by
  fun_induction valueLoop value state text with
  | case1 => exact Nat.le_refl _
  | case2 => exact Nat.le_refl _
  | case3 => exact Nat.zero_le _
  | case4 => exact Nat.zero_le _
  | case5 state first second rest high low hsecond hfirst _ ih =>
    rw [List.length_cons, List.length_cons, List.length_cons]
    omega
  | case6 state first second rest _ _ ih =>
    simp only [List.length_cons] at ih ⊢
    omega
  | case7 state decoded rest _ _ ih =>
    rw [List.length_cons]
    omega

/-- The byte belongs to the type of an attribute. -/
def isTypeByte (character : UInt8) : Bool :=
  character != kRelativeNameAssignment && !isSeparator character

/-- `client_identity_has_attribute` from some place in the identity on. -/
def clientIdentityHasAttribute (identity attributeName value : Bytes) : Bool :=
  match _hrest : identity.dropWhile isTypeByte with
  | [] => false
  | character :: rest =>
    if character != kRelativeNameAssignment then false
    else
      let sameType := equalsIgnoreCase (identity.takeWhile isTypeByte) attributeName
      let result := valueLoop value (sameType, 0) rest
      if result.1.1 && result.1.2 == value.length then true
      else clientIdentityHasAttribute (result.2.drop 1) attributeName value
  termination_by identity.length
  decreasing_by
    have hvalue := length_valueLoop_le value
      (equalsIgnoreCase (identity.takeWhile isTypeByte) attributeName, 0) rest
    have hrest := (List.dropWhile_suffix (p := isTypeByte) (l := identity)).length_le
    rw [_hrest, List.length_cons] at hrest
    rw [List.length_drop]
    omega

/-! ### Names as they are printed -/

/-- An attribute of a subject.  No name of a type that OpenSSL prints has a byte that the form
gives a meaning. -/
structure NameAttribute where
  /-- The short name of the attribute, as `CN`. -/
  type : Bytes
  /-- Any bytes; what the name means by itself is escaped when it is written. -/
  value : Bytes
  type_ne_nil : type ≠ []
  /-- A type holds none of the bytes that the text is cut at. -/
  type_plain : ∀ b ∈ type, b ≠ byte '=' ∧ b ≠ byte ',' ∧ b ≠ byte '+' ∧ b ≠ byte '\\'

theorem NameAttribute.plain (a : NameAttribute) :
    ∀ b ∈ a.type, b ≠ kRelativeNameEscape ∧ isTypeByte b = true := by
  intro b hb
  obtain ⟨hequals, hcomma, hplus, hescape⟩ := a.type_plain b hb
  refine ⟨hescape, ?_⟩
  simpa [isTypeByte, isSeparator] using ⟨hequals, hcomma, hplus⟩

/-- What stands between two attributes: a comma between names, or a plus inside one. -/
inductive Separator where
  | comma
  | plus
  deriving DecidableEq, Repr

/-- The character of a separator. -/
def Separator.character : Separator → UInt8
  | .comma => kRelativeNameSeparator
  | .plus => kRelativeNameValueJoiner

/-- A hexadecimal digit. -/
def upperHexDigit (digit : ℕ) : UInt8 := (ascii "0123456789ABCDEF").getD digit 0

/-- The escapes of `XN_FLAG_RFC2253` for one byte of a value. -/
def printByte (first last : Bool) (b : UInt8) : Bytes :=
  if b < 0x20 ∨ b ≥ 0x7F then
    [kRelativeNameEscape, upperHexDigit (b.toNat / 16), upperHexDigit (b.toNat % 16)]
  else if b ∈ ascii ",+\"\\<>;" ∨ first ∧ b ∈ ascii "# " ∨ last ∧ b = space then
    [kRelativeNameEscape, b]
  else [b]

/-- What follows the first byte of a value. -/
def spellRest (spell : Bool → Bool → UInt8 → Bytes) : Bytes → Bytes
  | [] => []
  | b :: rest => spell false rest.isEmpty b ++ spellRest spell rest

/-- A value printed byte by byte, by a function that is told of the first byte and of the last. -/
def spellValue (spell : Bool → Bool → UInt8 → Bytes) : Bytes → Bytes
  | [] => []
  | b :: rest => spell true rest.isEmpty b ++ spellRest spell rest

/-- An attribute, with a spelling for the bytes of its value. -/
def printAttribute (spell : Bool → Bool → UInt8 → Bytes) (a : NameAttribute) : Bytes :=
  a.type ++ kRelativeNameAssignment :: spellValue spell a.value

/-- A name of one attribute and any more, each after its separator. -/
def printName (spell : Bool → Bool → UInt8 → Bytes) (first : NameAttribute)
    (rest : List (Separator × NameAttribute)) : Bytes :=
  printAttribute spell first ++
    rest.flatMap fun entry => entry.1.character :: printAttribute spell entry.2

/-- A byte of a value in the rewritten name. -/
def finalByte (first last : Bool) (b : UInt8) : Bytes :=
  if b = kRelativeNameAssignment then kEqualsHexEscape else printByte first last b

theorem hexDigitValue_upperHexDigit {digit : ℕ} (h : digit < 16) :
    hexDigitValue (upperHexDigit digit) = some digit := by
  interval_cases digit <;> rfl

/-- The pieces of a value: a byte without a meaning, an escaped byte that is no hex digit, or the
hex digits of a byte. -/
theorem finalByte_cases (first last : Bool) (b : UInt8) :
    (finalByte first last b = [b] ∧ b ≠ kRelativeNameEscape ∧ isTypeByte b = true) ∨
    (finalByte first last b = [kRelativeNameEscape, b] ∧ hexDigitValue b = none) ∨
    ∃ x y high low, finalByte first last b = [kRelativeNameEscape, x, y] ∧
      hexDigitValue x = some high ∧ hexDigitValue y = some low ∧
      UInt8.ofNat (high * kRelativeNameHexRadix + low) = b := by
  unfold finalByte
  by_cases hequals : b = kRelativeNameAssignment
  · subst hequals
    exact .inr (.inr ⟨byte '3', byte 'D', 3, 13, rfl, rfl, rfl, rfl⟩)
  · rw [if_neg hequals]
    unfold printByte
    split_ifs with hcontrol hspecial
    · refine .inr (.inr ⟨_, _, b.toNat / 16, b.toNat % 16, rfl, ?_, ?_, ?_⟩)
      · exact hexDigitValue_upperHexDigit (Nat.div_lt_of_lt_mul b.toNat_lt)
      · exact hexDigitValue_upperHexDigit (Nat.mod_lt _ (by decide))
      · rw [kRelativeNameHexRadix, Nat.div_add_mod', UInt8.ofNat_toNat]
    · refine .inr (.inl ⟨rfl, ?_⟩)
      rcases hspecial with hmem | ⟨-, hmem⟩ | ⟨-, rfl⟩
      · exact (by decide +kernel : ∀ b ∈ ascii ",+\"\\<>;", hexDigitValue b = none) b hmem
      · exact (by decide +kernel : ∀ b ∈ ascii "# ", hexDigitValue b = none) b hmem
      · rfl
    · have hplain : ∀ c ∈ ascii ",+\"\\<>;", b ≠ c := fun c hc heq => hspecial (.inl (heq ▸ hc))
      refine .inl ⟨rfl, hplain _ (by decide), ?_⟩
      simpa [isTypeByte, isSeparator] using
        ⟨hequals, hplain kRelativeNameSeparator (by decide),
          hplain kRelativeNameValueJoiner (by decide)⟩

/-- Every byte of a piece after its first is read as it stands, also by the rewriter. -/
theorem isTypeByte_of_hexDigitValue {b : UInt8} {digit : ℕ} (h : hexDigitValue b = some digit) :
    b ≠ kRelativeNameEscape ∧ isTypeByte b = true := by
  refine ⟨?_, ?_⟩
  · rintro rfl
    cases h
  · simp only [isTypeByte, isSeparator, Bool.and_eq_true, bne_iff_ne, Bool.not_eq_true',
      Bool.or_eq_false_iff, beq_eq_false_iff_ne]
    refine ⟨?_, ?_, ?_⟩ <;>
      rintro rfl <;>
      cases h

/-! ### The rewriter reads pieces -/

/-- A byte without a meaning is copied. -/
theorem escapeEqualsLoop_plain {b : UInt8} (hescape : b ≠ kRelativeNameEscape)
    (htype : isTypeByte b = true) (insideValue : Bool) (rest : Bytes) :
    escapeEqualsLoop insideValue (b :: rest) = b :: escapeEqualsLoop insideValue rest := by
  simp only [isTypeByte, Bool.and_eq_true, bne_iff_ne, Bool.not_eq_true'] at htype
  rw [escapeEqualsLoop.eq_def]
  dsimp only
  rw [if_neg hescape, if_neg htype.1, htype.2]
  rfl

theorem escapeEqualsLoop_append_plain {text : Bytes}
    (h : ∀ b ∈ text, b ≠ kRelativeNameEscape ∧ isTypeByte b = true) (insideValue : Bool)
    (rest : Bytes) :
    escapeEqualsLoop insideValue (text ++ rest) = text ++ escapeEqualsLoop insideValue rest := by
  induction text with
  | nil => rfl
  | cons b text ih =>
    obtain ⟨hb, htext⟩ := List.forall_mem_cons.1 h
    rw [List.cons_append, escapeEqualsLoop_plain hb.1 hb.2, ih htext, List.cons_append]

/-- An equals sign starts a value, or is spelled in hex inside one. -/
theorem escapeEqualsLoop_assignment (insideValue : Bool) (rest : Bytes) :
    escapeEqualsLoop insideValue (kRelativeNameAssignment :: rest) =
      (if insideValue then kEqualsHexEscape else [kRelativeNameAssignment]) ++
        escapeEqualsLoop true rest := by
  rw [escapeEqualsLoop.eq_def]
  cases insideValue <;> rfl

theorem escapeEqualsLoop_separator (insideValue : Bool) (separator : Separator) (rest : Bytes) :
    escapeEqualsLoop insideValue (separator.character :: rest) =
      separator.character :: escapeEqualsLoop false rest := by
  rw [escapeEqualsLoop.eq_def]
  cases separator <;> rfl

theorem escapeEqualsLoop_finalByte (first last : Bool) (b : UInt8) (rest : Bytes) :
    escapeEqualsLoop true (finalByte first last b ++ rest) =
      finalByte first last b ++ escapeEqualsLoop true rest := by
  obtain ⟨hb, hescape, htype⟩ | ⟨hb, -⟩ | ⟨x, y, high, low, hb, hx, hy, -⟩ :=
    finalByte_cases first last b
  · rw [hb]
    exact escapeEqualsLoop_plain hescape htype true rest
  · rw [hb]
    rfl
  · obtain ⟨hescape, htype⟩ := isTypeByte_of_hexDigitValue hy
    rw [hb]
    exact congrArg (kRelativeNameEscape :: x :: ·) (escapeEqualsLoop_plain hescape htype true rest)

theorem escapeEqualsLoop_printByte (first last : Bool) (b : UInt8) (rest : Bytes) :
    escapeEqualsLoop true (printByte first last b ++ rest) =
      finalByte first last b ++ escapeEqualsLoop true rest := by
  by_cases hequals : b = kRelativeNameAssignment
  · subst hequals
    have hprint : printByte first last kRelativeNameAssignment = [kRelativeNameAssignment] := by
      cases first <;> cases last <;> decide
    rw [hprint]
    exact escapeEqualsLoop_assignment true rest
  · have hfinal : finalByte first last b = printByte first last b := if_neg hequals
    rw [← hfinal, escapeEqualsLoop_finalByte]

section

variable {spell : Bool → Bool → UInt8 → Bytes}
  (hspell : ∀ first last b rest, escapeEqualsLoop true (spell first last b ++ rest) =
    finalByte first last b ++ escapeEqualsLoop true rest)
include hspell

theorem escapeEqualsLoop_spellRest (value rest : Bytes) :
    escapeEqualsLoop true (spellRest spell value ++ rest) =
      spellRest finalByte value ++ escapeEqualsLoop true rest := by
  induction value with
  | nil => rfl
  | cons b value ih =>
    rw [spellRest, spellRest, List.append_assoc, hspell, ih, List.append_assoc]

theorem escapeEqualsLoop_spellValue (value rest : Bytes) :
    escapeEqualsLoop true (spellValue spell value ++ rest) =
      spellValue finalByte value ++ escapeEqualsLoop true rest := by
  cases value with
  | nil => rfl
  | cons b value =>
    rw [spellValue, spellValue, List.append_assoc, hspell, escapeEqualsLoop_spellRest hspell,
      List.append_assoc]

theorem escapeEqualsLoop_printAttribute (a : NameAttribute) (rest : Bytes) :
    escapeEqualsLoop false (printAttribute spell a ++ rest) =
      printAttribute finalByte a ++ escapeEqualsLoop true rest := by
  unfold printAttribute
  rw [List.append_assoc, List.cons_append, escapeEqualsLoop_append_plain a.plain,
    escapeEqualsLoop_assignment, escapeEqualsLoop_spellValue hspell]
  simp

/-- The rewriter gives every byte of every value its piece, and changes nothing else. -/
theorem escapeEqualsInsideValues_printName (first : NameAttribute)
    (rest : List (Separator × NameAttribute)) :
    escapeEqualsInsideValues (printName spell first rest) = printName finalByte first rest := by
  unfold escapeEqualsInsideValues printName
  rw [escapeEqualsLoop_printAttribute hspell]
  congr 1
  induction rest with
  | nil => rfl
  | cons entry rest ih =>
    rw [List.flatMap_cons, List.flatMap_cons, List.cons_append, escapeEqualsLoop_separator,
      escapeEqualsLoop_printAttribute hspell, ih, List.cons_append]

end

/-! ### The matcher reads pieces -/

theorem valueLoop_finalByte (value : Bytes) (state : Bool × ℕ) (first last : Bool) (b : UInt8)
    (rest : Bytes) : valueLoop value state (finalByte first last b ++ rest) =
      valueLoop value (compareNext value state b) rest := by
  obtain ⟨hb, hescape, htype⟩ | ⟨hb, hhex⟩ | ⟨x, y, high, low, hb, hx, hy, hvalue⟩ :=
    finalByte_cases first last b
  · simp only [isTypeByte, Bool.and_eq_true, Bool.not_eq_true'] at htype
    rw [hb, List.singleton_append, valueLoop.eq_def]
    dsimp only
    rw [htype.2, if_neg hescape]
    rfl
  · rw [hb, valueLoop.eq_def]
    cases rest with
    | nil => rfl
    | cons second rest =>
      simp only [List.cons_append, List.nil_append, hhex]
      rfl
  · rw [hb, valueLoop.eq_def]
    simp only [List.cons_append, List.nil_append, hx, hy, hvalue]
    rfl

/-- A reader that takes each byte's piece as that byte takes a value's text as its bytes. -/
theorem read_spellRest {σ β : Type} {spell : Bool → Bool → UInt8 → Bytes} (read : σ → Bytes → β)
    (next : σ → UInt8 → σ)
    (h : ∀ state first last b rest, read state (spell first last b ++ rest) =
      read (next state b) rest) (state : σ) (v rest : Bytes) :
    read state (spellRest spell v ++ rest) = read (v.foldl next state) rest := by
  induction v generalizing state with
  | nil => rfl
  | cons b v ih => rw [spellRest, List.append_assoc, h, ih, List.foldl_cons]

theorem read_spellValue {σ β : Type} {spell : Bool → Bool → UInt8 → Bytes} (read : σ → Bytes → β)
    (next : σ → UInt8 → σ)
    (h : ∀ state first last b rest, read state (spell first last b ++ rest) =
      read (next state b) rest) (state : σ) (v rest : Bytes) :
    read state (spellValue spell v ++ rest) = read (v.foldl next state) rest := by
  cases v with
  | nil => rfl
  | cons b v => rw [spellValue, List.append_assoc, h, read_spellRest read next h, List.foldl_cons]

/-- The text is at its end, or at a separator. -/
def EndsValue (text : Bytes) : Prop := ∀ b ∈ text.head?, isSeparator b = true

theorem valueLoop_spellValue (value : Bytes) (state : Bool × ℕ) (v : Bytes) {rest : Bytes}
    (hrest : EndsValue rest) : valueLoop value state (spellValue finalByte v ++ rest) =
      (v.foldl (compareNext value) state, rest) := by
  have hends : ∀ state, valueLoop value state rest = (state, rest) := by
    intro state
    cases rest with
    | nil => rfl
    | cons b rest =>
      rw [valueLoop.eq_def]
      exact if_pos (hrest b rfl)
  rw [read_spellValue (valueLoop value) (compareNext value) (valueLoop_finalByte value), hends]

theorem foldl_compareNext_false (value v : Bytes) (compared : ℕ) :
    v.foldl (compareNext value) (false, compared) = (false, compared) := by
  induction v with
  | nil => rfl
  | cons b v ih => exact ih

/-- `same_value && compared == value.size()`. -/
def isComplete (value : Bytes) (state : Bool × ℕ) : Bool := state.1 && state.2 == value.length

theorem isComplete_foldl_compareNext (value v : Bytes) {compared : ℕ}
    (h : compared ≤ value.length) :
    isComplete value (v.foldl (compareNext value) (true, compared)) = true ↔
      v = value.drop compared := by
  induction v generalizing compared with
  | nil =>
    rw [@eq_comm _ [], List.drop_eq_nil_iff]
    simp only [isComplete, List.foldl_nil, Bool.true_and, beq_iff_eq]
    omega
  | cons b v ih =>
    rw [List.foldl_cons]
    rcases h.eq_or_lt with heq | hlt
    · -- the value in the identity is longer than the one that is asked for
      have hnext : compareNext value (true, compared) b = (false, compared) := by
        simp [compareNext, heq]
      rw [hnext, foldl_compareNext_false, heq, List.drop_length]
      simp [isComplete]
    · rw [List.drop_eq_getElem_cons hlt, List.cons.injEq]
      by_cases hb : b = value[compared]
      · have hnext : compareNext value (true, compared) b = (true, compared + 1) := by
          simp [compareNext, hb, hlt.ne]
        rw [hnext, ih hlt]
        exact (and_iff_right hb).symm
      · have hnext : compareNext value (true, compared) b = (false, compared) := by
          simp [compareNext, List.getElem?_eq_getElem hlt, Ne.symm hb]
        rw [hnext, foldl_compareNext_false]
        simp [isComplete, hb]

/-! ### Names -/

theorem clientIdentityHasAttribute_nil (attributeName value : Bytes) :
    clientIdentityHasAttribute [] attributeName value = false := by
  rw [clientIdentityHasAttribute]
  rfl

theorem clientIdentityHasAttribute_of_dropWhile {identity rest : Bytes}
    (h : identity.dropWhile isTypeByte = kRelativeNameAssignment :: rest)
    (attributeName value : Bytes) :
    clientIdentityHasAttribute identity attributeName value =
      let result := valueLoop value
        (equalsIgnoreCase (identity.takeWhile isTypeByte) attributeName, 0) rest
      (isComplete value result.1 ||
        clientIdentityHasAttribute (result.2.drop 1) attributeName value) := by
  rw [clientIdentityHasAttribute]
  split
  case h_1 hnil => rw [h] at hnil; cases hnil
  case h_2 character rest' hcons =>
    rw [h] at hcons
    cases hcons
    simp only [bne_self_eq_false, Bool.false_eq_true, if_false, Bool.if_true_left,
      Bool.decide_eq_true, isComplete]

/-- The matcher takes an attribute for exactly what it is, and goes on after it. -/
theorem clientIdentityHasAttribute_printAttribute (a : NameAttribute) {rest : Bytes}
    (hrest : EndsValue rest) (attributeName value : Bytes) :
    clientIdentityHasAttribute (printAttribute finalByte a ++ rest) attributeName value =
      ((equalsIgnoreCase a.type attributeName && a.value == value) ||
        clientIdentityHasAttribute (rest.drop 1) attributeName value) := by
  have hplain : ∀ b ∈ a.type, isTypeByte b = true := fun b hb => (a.plain b hb).2
  unfold printAttribute
  rw [List.append_assoc, List.cons_append]
  generalize hafter : spellValue finalByte a.value ++ rest = after
  have hdrop : (a.type ++ kRelativeNameAssignment :: after).dropWhile isTypeByte =
      kRelativeNameAssignment :: after := by
    rw [List.dropWhile_append_of_pos hplain]
    rfl
  have htake : (a.type ++ kRelativeNameAssignment :: after).takeWhile isTypeByte = a.type := by
    rw [List.takeWhile_append_of_pos hplain]
    simp [isTypeByte]
  rw [clientIdentityHasAttribute_of_dropWhile hdrop, htake]
  dsimp only
  rw [← hafter, valueLoop_spellValue value _ _ hrest]
  congr 1
  cases equalsIgnoreCase a.type attributeName with
  | false => rw [foldl_compareNext_false]; rfl
  | true =>
    rw [Bool.true_and, Bool.eq_iff_iff, isComplete_foldl_compareNext value _ (Nat.zero_le _),
      List.drop_zero, beq_iff_eq]

theorem clientIdentityHasAttribute_printName (first : NameAttribute)
    (rest : List (Separator × NameAttribute)) (attributeName value : Bytes) :
    clientIdentityHasAttribute (printName finalByte first rest) attributeName value =
      (first :: rest.map Prod.snd).any fun a =>
        equalsIgnoreCase a.type attributeName && a.value == value := by
  induction rest generalizing first with
  | nil =>
    have hends : EndsValue [] := fun b hb => by cases hb
    rw [printName, List.flatMap_nil, clientIdentityHasAttribute_printAttribute first hends]
    simp [clientIdentityHasAttribute_nil]
  | cons entry rest ih =>
    rw [printName, clientIdentityHasAttribute_printAttribute first]
    · rw [List.any_cons, List.map_cons, ← ih entry.2]
      rfl
    · intro b hb
      cases hb
      cases entry.1 <;> rfl

/-- The equals signs of a text that no backslash stands before; one that is itself escaped does
not count as one. -/
def unescapedEquals : Bytes → ℕ
  | [] => 0
  | character :: rest =>
    if character = kRelativeNameEscape then
      match rest with
      | [] => 0
      | _ :: rest => unescapedEquals rest
    else (if character = kRelativeNameAssignment then 1 else 0) + unescapedEquals rest

theorem unescapedEquals_plain {b : UInt8} (hescape : b ≠ kRelativeNameEscape)
    (htype : isTypeByte b = true) (rest : Bytes) :
    unescapedEquals (b :: rest) = unescapedEquals rest := by
  simp only [isTypeByte, Bool.and_eq_true, bne_iff_ne] at htype
  rw [unescapedEquals.eq_def]
  dsimp only
  rw [if_neg hescape, if_neg htype.1, Nat.zero_add]

theorem unescapedEquals_append_plain {text : Bytes}
    (h : ∀ b ∈ text, b ≠ kRelativeNameEscape ∧ isTypeByte b = true) (rest : Bytes) :
    unescapedEquals (text ++ rest) = unescapedEquals rest := by
  induction text with
  | nil => rfl
  | cons b text ih =>
    obtain ⟨hb, htext⟩ := List.forall_mem_cons.1 h
    rw [List.cons_append, unescapedEquals_plain hb.1 hb.2, ih htext]

theorem unescapedEquals_finalByte (first last : Bool) (b : UInt8) (rest : Bytes) :
    unescapedEquals (finalByte first last b ++ rest) = unescapedEquals rest := by
  obtain ⟨hb, hescape, htype⟩ | ⟨hb, -⟩ | ⟨x, y, high, low, hb, hx, hy, -⟩ :=
    finalByte_cases first last b
  · rw [hb]
    exact unescapedEquals_plain hescape htype rest
  · rw [hb]
    rfl
  · obtain ⟨hescape, htype⟩ := isTypeByte_of_hexDigitValue hy
    rw [hb]
    exact unescapedEquals_plain hescape htype rest

theorem unescapedEquals_printAttribute (a : NameAttribute) (rest : Bytes) :
    unescapedEquals (printAttribute finalByte a ++ rest) = 1 + unescapedEquals rest := by
  have hvalue := read_spellValue (fun (_ : Unit) => unescapedEquals) (fun state _ => state)
    (fun _ => unescapedEquals_finalByte) () a.value rest
  unfold printAttribute
  rw [List.append_assoc, List.cons_append, unescapedEquals_append_plain a.plain, ← hvalue,
    unescapedEquals.eq_def]
  rfl

theorem unescapedEquals_printName (first : NameAttribute)
    (rest : List (Separator × NameAttribute)) :
    unescapedEquals (printName finalByte first rest) = (first :: rest.map Prod.snd).length := by
  rw [printName, unescapedEquals_printAttribute, List.length_cons, List.length_map, Nat.add_comm]
  congr 1
  induction rest with
  | nil => rfl
  | cons entry rest ih =>
    have hseparator : ∀ text, unescapedEquals (entry.1.character :: text) =
        unescapedEquals text := by
      intro text
      rw [unescapedEquals.eq_def]
      cases entry.1 <;> exact Nat.zero_add _
    rw [List.flatMap_cons, List.cons_append, hseparator, unescapedEquals_printAttribute, ih,
      List.length_cons, Nat.add_comm]

/-- **The identity of a client is exact.**  For every name that is printed in the form of RFC 2253
and rewritten: it has an attribute of a type and a value exactly when the name does, the type up to
letter case; rewriting it again changes nothing; and it has an unescaped equals sign for each
attribute and no other. -/
theorem client_identity_is_exact (first : NameAttribute)
    (rest : List (Separator × NameAttribute)) :
    let attributes := first :: rest.map Prod.snd
    let identity := escapeEqualsInsideValues (printName printByte first rest)
    (∀ attributeName value, clientIdentityHasAttribute identity attributeName value = true ↔
      ∃ a ∈ attributes,
        a.type.map asciiToLower = attributeName.map asciiToLower ∧ a.value = value) ∧
    escapeEqualsInsideValues identity = identity ∧
    unescapedEquals identity = attributes.length := by
  intro attributes identity
  have hidentity : identity = printName finalByte first rest :=
    escapeEqualsInsideValues_printName escapeEqualsLoop_printByte first rest
  rw [hidentity]
  refine ⟨fun attributeName value => ?_, ?_, unescapedEquals_printName first rest⟩
  · rw [clientIdentityHasAttribute_printName, List.any_eq_true]
    simp only [Bool.and_eq_true, beq_iff_eq, equalsIgnoreCase_iff]
    rfl
  · exact escapeEqualsInsideValues_printName escapeEqualsLoop_finalByte first rest

-- a common name that spells another attribute
example : escapeEqualsInsideValues (printName printByte
    ⟨ascii "CN", ascii "guest,CN=admin", by decide, by decide +kernel⟩ []) =
      ascii "CN=guest\\,CN\\3Dadmin" := by decide +kernel

end ClientIdentity

end ErikslundHttp
