import ErikslundHttp.Lib.Utf8
import ErikslundHttp.Text

/-!
# Escaping text

The escapes of `text.cpp` for texts that may hold any bytes.  A byte that no well-formed UTF-8
sequence starts with is written as U+FFFD (`wellFormed`), and so are the control characters that a
label of the Prometheus format cannot hold.

Each function is therefore two passes in one: what is left of the text once such bytes are replaced,
and the escapes of the format.  The second can be read back; the first cannot.

* `jsonEscape_eq`, `prometheusLabelEscape_eq`: the two passes.
* `readQuoted_escape`: the escapes of the Prometheus format are read back.
-/

namespace ErikslundHttp

open Utf8

/-! ### UTF-8 -/

/-- U+FFFD. -/
def kReplacementCharacter : Bytes := [0xEF, 0xBF, 0xBD]

/-- `is_continuation`. -/
def isContinuation (b : UInt8) : Bool := 0x80 ≤ b && b ≤ 0xBF

/-- The length of the well-formed sequence at the start of the text, `0` if there is none. -/
def validUtf8SequenceLength (input : Bytes) : ℕ :=
  let byteAt (index : ℕ) : UInt8 := input.getD index 0
  let first := byteAt 0
  let remaining := input.length
  if first < 0x80 then 1
  else if 0xC2 ≤ first && first ≤ 0xDF then
    if 2 ≤ remaining && isContinuation (byteAt 1) then 2 else 0
  else if 0xE0 ≤ first && first ≤ 0xEF then
    if remaining < 3 || !isContinuation (byteAt 2) then 0
    else
      let second := byteAt 1
      if !isContinuation second then 0
      else if first == 0xE0 && second < 0xA0 then 0
      else if first == 0xED && 0x9F < second then 0
      else 3
  else if 0xF0 ≤ first && first ≤ 0xF4 then
    if remaining < 4 || !isContinuation (byteAt 2) || !isContinuation (byteAt 3) then 0
    else
      let second := byteAt 1
      if !isContinuation second then 0
      else if first == 0xF0 && second < 0x90 then 0
      else if first == 0xF4 && 0x8F < second then 0
      else 4
  else 0

/-- What `append_utf8_or_replacement` appends, and how many bytes of the text it takes. -/
def appendUtf8OrReplacement (input : Bytes) : Bytes × ℕ :=
  let sequenceLength := validUtf8SequenceLength input
  if sequenceLength = 0 then (kReplacementCharacter, 1)
  else (input.take sequenceLength, sequenceLength)

theorem appendUtf8OrReplacement_pos (input : Bytes) : 0 < (appendUtf8OrReplacement input).2 := by
  unfold appendUtf8OrReplacement
  dsimp only
  split_ifs with h
  · exact Nat.one_pos
  · exact Nat.pos_of_ne_zero h

theorem isContinuation_iff {b : UInt8} : isContinuation b = true ↔ IsTail b.toNat := by
  simp [isContinuation, IsTail, UInt8.le_iff_toNat_le]

theorem validUtf8SequenceLength_of_isSequence {s : Bytes} (h : IsSequence s) (rest : Bytes) :
    validUtf8SequenceLength (s ++ rest) = s.length := by
  cases h with
  | @one a ha =>
    have h1 : a < 0x80 := UInt8.lt_iff_toNat_lt.2 ha
    simp [validUtf8SequenceLength, h1]
  | @two a b ha hb =>
    have h1 : ¬ a < 0x80 := by simp [UInt8.lt_iff_toNat_lt]; omega
    have h2 : 0xC2 ≤ a ∧ a ≤ 0xDF := by simpa [UInt8.le_iff_toNat_le] using ha
    simp [validUtf8SequenceLength, h1, h2, isContinuation_iff.2 hb]
  | @three a b c ha hb hc hlow hsurrogate =>
    have h1 : ¬ a < 0x80 := by simp [UInt8.lt_iff_toNat_lt]; omega
    have h2 : ¬ (0xC2 ≤ a ∧ a ≤ 0xDF) := by simp [UInt8.le_iff_toNat_le]; omega
    have h3 : 0xE0 ≤ a ∧ a ≤ 0xEF := by simpa [UInt8.le_iff_toNat_le] using ha
    have h4 : ¬ (a = 0xE0 ∧ b < 0xA0) := by
      rintro ⟨rfl, hb⟩
      have := hlow rfl
      simp [UInt8.lt_iff_toNat_lt] at hb
      omega
    have h5 : ¬ (a = 0xED ∧ 0x9F < b) := by
      rintro ⟨rfl, hb⟩
      have := hsurrogate rfl
      simp [UInt8.lt_iff_toNat_lt] at hb
      omega
    simp [validUtf8SequenceLength, h1, h2, h3, h4, h5, isContinuation_iff.2 hb,
      isContinuation_iff.2 hc]
  | @four a b c d ha hb hc hd hlow hhigh =>
    have h1 : ¬ a < 0x80 := by simp [UInt8.lt_iff_toNat_lt]; omega
    have h2 : ¬ (0xC2 ≤ a ∧ a ≤ 0xDF) := by simp [UInt8.le_iff_toNat_le]; omega
    have h3 : ¬ (0xE0 ≤ a ∧ a ≤ 0xEF) := by simp [UInt8.le_iff_toNat_le]; omega
    have h4 : 0xF0 ≤ a ∧ a ≤ 0xF4 := by simpa [UInt8.le_iff_toNat_le] using ha
    have h5 : ¬ (a = 0xF0 ∧ b < 0x90) := by
      rintro ⟨rfl, hb⟩
      have := hlow rfl
      simp [UInt8.lt_iff_toNat_lt] at hb
      omega
    have h6 : ¬ (a = 0xF4 ∧ 0x8F < b) := by
      rintro ⟨rfl, hb⟩
      have := hhigh rfl
      simp [UInt8.lt_iff_toNat_lt] at hb
      omega
    simp [validUtf8SequenceLength, h1, h2, h3, h4, h5, h6, isContinuation_iff.2 hb,
      isContinuation_iff.2 hc, isContinuation_iff.2 hd]

/-- What the length counts is a sequence. -/
theorem isSequence_take {first : UInt8} {rest : Bytes}
    (h : validUtf8SequenceLength (first :: rest) ≠ 0) :
    IsSequence ((first :: rest).take (validUtf8SequenceLength (first :: rest))) := by
  unfold validUtf8SequenceLength at h ⊢
  dsimp only [List.getD_cons_zero] at h ⊢
  simp only [UInt8.lt_iff_toNat_lt, UInt8.le_iff_toNat_le] at h ⊢
  split_ifs at h ⊢ with hascii htwo hsecond hthree hthird hthree₂ he0 hed hfour hfourth
    hfour₂ hf0 hf4
  all_goals try exact absurd rfl h
  · exact .one hascii
  · obtain _ | ⟨b, rest⟩ := rest
    · simp at hsecond
    simp [isContinuation_iff] at hsecond htwo
    exact .two htwo hsecond
  · obtain _ | ⟨b, _ | ⟨c, rest⟩⟩ := rest
    · simp at hthird
    · simp at hthird
    simp [isContinuation_iff] at hthree hthird hthree₂ he0 hed
    exact .three hthree hthree₂ hthird (fun hlow => he0 (UInt8.toNat_inj.1 hlow))
      fun hsurrogate => hed (UInt8.toNat_inj.1 hsurrogate)
  · obtain _ | ⟨b, _ | ⟨c, _ | ⟨d, rest⟩⟩⟩ := rest
    · simp at hfourth
    · simp at hfourth
    · simp at hfourth
    simp [isContinuation_iff] at hfour hfourth hfour₂ hf0 hf4
    exact .four hfour hfour₂ hfourth.1 hfourth.2 (fun hlow => hf0 (UInt8.toNat_inj.1 hlow))
      fun hhigh => hf4 (UInt8.toNat_inj.1 hhigh)

/-- What is appended is one sequence. -/
theorem isSequence_appendUtf8OrReplacement (first : UInt8) (rest : Bytes) :
    IsSequence (appendUtf8OrReplacement (first :: rest)).1 := by
  unfold appendUtf8OrReplacement
  dsimp only
  split_ifs with hzero
  · exact .three (by decide) (by unfold IsTail; decide) (by unfold IsTail; decide) (by decide)
      (by decide)
  · exact isSequence_take hzero

/-- A character at the start of the text is appended as it is. -/
theorem appendUtf8OrReplacement_char (c : Char) (rest : Bytes) :
    appendUtf8OrReplacement (String.utf8EncodeChar c ++ rest) =
      (String.utf8EncodeChar c, (String.utf8EncodeChar c).length) := by
  have hlength := validUtf8SequenceLength_of_isSequence (isSequence_char c) rest
  have hpos : (String.utf8EncodeChar c).length ≠ 0 :=
    mt List.eq_nil_of_length_eq_zero (isSequence_char c).ne_nil
  simp only [appendUtf8OrReplacement, hlength, hpos, if_false, List.take_left]

/-- After a byte that is not ASCII, nothing that is ASCII is appended. -/
theorem appendUtf8OrReplacement_high {first : UInt8} (h : 0x80 ≤ first) (rest : Bytes) :
    ∀ b ∈ (appendUtf8OrReplacement (first :: rest)).1, 0x80 ≤ b := by
  unfold appendUtf8OrReplacement
  dsimp only
  split_ifs with hzero
  · decide +kernel
  · intro b hb
    have hsequence := isSequence_take hzero
    obtain ⟨length, hlength⟩ := Nat.exists_eq_succ_of_ne_zero hzero
    rw [hlength, List.take_succ_cons] at hsequence hb
    exact UInt8.le_iff_toNat_le.2 (hsequence.high (UInt8.le_iff_toNat_le.1 h) b hb)

theorem appendUtf8OrReplacement_ascii {first : UInt8} (h : first < 0x80) (rest : Bytes) :
    appendUtf8OrReplacement (first :: rest) = ([first], 1) := by
  have hlength := validUtf8SequenceLength_of_isSequence
    (IsSequence.one (UInt8.lt_iff_toNat_lt.1 h)) rest
  rw [List.singleton_append] at hlength
  simp [appendUtf8OrReplacement, hlength]

/-- Escapes of ASCII characters leave the others as they are. -/
theorem flatMap_eq_self_of_high {spell : UInt8 → Bytes} (hspell : ∀ b, 0x80 ≤ b → spell b = [b])
    {text : Bytes} (h : ∀ b ∈ text, 0x80 ≤ b) : text.flatMap spell = text := by
  induction text with
  | nil => rfl
  | cons b text ih =>
    obtain ⟨hb, htext⟩ := List.forall_mem_cons.1 h
    rw [List.flatMap_cons, ih htext, hspell b hb, List.singleton_append]

/-- The text with a replacement for every byte that starts no sequence. -/
def wellFormed (input : Bytes) : Bytes :=
  match input with
  | [] => []
  | character :: rest =>
    let result := appendUtf8OrReplacement (character :: rest)
    result.1 ++ wellFormed ((character :: rest).drop result.2)
  termination_by input.length
  decreasing_by
    have hpos := appendUtf8OrReplacement_pos (character :: rest)
    simp only [List.length_drop, List.length_cons]
    omega

theorem isUtf8_wellFormed (input : Bytes) : IsUtf8 (wellFormed input) := by
  induction input using wellFormed.induct with
  | case1 => rw [wellFormed]; exact isUtf8_nil
  | case2 character rest result ih =>
    rw [wellFormed]
    exact (isSequence_appendUtf8OrReplacement character rest).isUtf8.append ih

theorem wellFormed_of_isUtf8 {text : Bytes} (h : IsUtf8 text) : wellFormed text = text := by
  obtain ⟨characters, rfl⟩ := h
  induction characters with
  | nil => rw [List.flatMap_nil, wellFormed]
  | cons c characters ih =>
    have hchar := appendUtf8OrReplacement_char c (characters.flatMap String.utf8EncodeChar)
    obtain ⟨first, tail, heq⟩ := List.exists_cons_of_ne_nil (isSequence_char c).ne_nil
    rw [List.flatMap_cons]
    rw [heq, List.cons_append] at hchar ⊢
    rw [wellFormed, hchar, ← List.cons_append, List.drop_left, ih]

/-! ### Texts of HTML -/

/-- What stands for a character of a text. -/
def escapeHtmlByte (character : UInt8) : Bytes :=
  if character = byte '&' then ascii "&amp;"
  else if character = byte '<' then ascii "&lt;"
  else if character = byte '>' then ascii "&gt;"
  else if character = byte '"' then ascii "&quot;"
  else if character = byte '\'' then ascii "&#39;"
  else [character]

/-- What `html_escape_into` appends. -/
def htmlEscape (input : Bytes) : Bytes := input.flatMap escapeHtmlByte

/-! ### Strings of JSON -/

/-- The digits of an escape. -/
def kLowerHexDigits : Bytes := ascii "0123456789abcdef"

/-- The escapes of a string. -/
def escapeJsonByte (character : UInt8) : Bytes :=
  if character = byte '"' ∨ character = byte '\\' then [byte '\\', character]
  else if character < 0x20 then
    ascii "\\u00" ++ [kLowerHexDigits.getD (character.toNat / 16) 0,
      kLowerHexDigits.getD (character.toNat % 16) 0]
  else [character]

/-- `json_escape`. -/
def jsonEscape (input : Bytes) : Bytes :=
  match input with
  | [] => []
  | character :: rest =>
    if character = byte '"' ∨ character = byte '\\' then
      [byte '\\', character] ++ jsonEscape rest
    else if character < 0x20 then
      ascii "\\u00" ++ [kLowerHexDigits.getD (character.toNat / 16) 0,
        kLowerHexDigits.getD (character.toNat % 16) 0] ++ jsonEscape rest
    else
      let result := appendUtf8OrReplacement (character :: rest)
      result.1 ++ jsonEscape ((character :: rest).drop result.2)
  termination_by input.length
  decreasing_by
    · exact Nat.lt_succ_self _
    · exact Nat.lt_succ_self _
    · have hpos := appendUtf8OrReplacement_pos (character :: rest)
      simp only [List.length_drop, List.length_cons]
      omega

theorem escapeJsonByte_of_high {b : UInt8} (h : 0x80 ≤ b) : escapeJsonByte b = [b] := by
  have hne : ∀ c : UInt8, c < 0x80 → b ≠ c := fun c hc heq => absurd h (heq ▸ not_le.2 hc)
  have hlow : ¬ b < 0x20 := not_lt.2 (le_trans (by decide) h)
  simp [escapeJsonByte, hne (byte '"') (by decide), hne (byte '\\') (by decide), hlow]

/-- The escapes come after the replacements. -/
theorem jsonEscape_eq (input : Bytes) :
    jsonEscape input = (wellFormed input).flatMap escapeJsonByte := by
  induction input using jsonEscape.induct with
  | case1 => rw [jsonEscape, wellFormed, List.flatMap_nil]
  | case2 character rest hescaped ih =>
    have hascii : character < 0x80 := by rcases hescaped with rfl | rfl <;> decide
    rw [jsonEscape, if_pos hescaped, wellFormed, appendUtf8OrReplacement_ascii hascii, ih]
    simp [escapeJsonByte, hescaped]
  | case3 character rest hescaped hcontrol ih =>
    have hascii : character < 0x80 := lt_trans hcontrol (by decide)
    rw [jsonEscape, if_neg hescaped, if_pos hcontrol, wellFormed,
      appendUtf8OrReplacement_ascii hascii, ih]
    simp [escapeJsonByte, hescaped, hcontrol]
  | case4 character rest hescaped hcontrol result ih =>
    rw [jsonEscape, if_neg hescaped, if_neg hcontrol, wellFormed]
    dsimp only
    rw [ih, List.flatMap_append]
    congr 1
    by_cases hascii : character < 0x80
    · rw [appendUtf8OrReplacement_ascii hascii]
      simp [escapeJsonByte, hescaped, hcontrol]
    · rw [flatMap_eq_self_of_high (fun _ => escapeJsonByte_of_high)
        (appendUtf8OrReplacement_high (not_lt.1 hascii) rest)]

/-! ### Labels of the Prometheus format -/

/-- The escapes of a label value. -/
def escapeLabelByte (character : UInt8) : Bytes :=
  if character = byte '\\' then ascii "\\\\"
  else if character = byte '"' then ascii "\\\""
  else if character = LF then ascii "\\n"
  else [character]

/-- The loop of `prometheus_label_escape` over the text that is left; `spell` is the last `switch`
of it. -/
def labelLoop (spell : UInt8 → Bytes) (input : Bytes) : Bytes :=
  match input with
  | [] => []
  | character :: rest =>
    if 0x80 ≤ character then
      let result := appendUtf8OrReplacement (character :: rest)
      result.1 ++ labelLoop spell ((character :: rest).drop result.2)
    else if character < 0x20 && character != LF || character == 0x7F then
      kReplacementCharacter ++ labelLoop spell rest
    else spell character ++ labelLoop spell rest
  termination_by input.length
  decreasing_by
    · have hpos := appendUtf8OrReplacement_pos (character :: rest)
      simp only [List.length_drop, List.length_cons]
      omega
    · exact Nat.lt_succ_self _
    · exact Nat.lt_succ_self _

/-- `prometheus_label_escape`. -/
def prometheusLabelEscape (input : Bytes) : Bytes := labelLoop escapeLabelByte input

/-- The text once every byte that cannot stand in a label is replaced. -/
def sanitized (input : Bytes) : Bytes := labelLoop (fun character => [character]) input

/-- The bytes that the format escapes are ASCII. -/
theorem escapeLabelByte_of_high {b : UInt8} (h : 0x80 ≤ b) : escapeLabelByte b = [b] := by
  have hne : ∀ c : UInt8, c < 0x80 → b ≠ c := fun c hc heq => absurd h (heq ▸ not_le.2 hc)
  unfold escapeLabelByte
  rw [if_neg (hne _ (by decide)), if_neg (hne _ (by decide)), if_neg (hne _ (by decide))]

/-- The escapes come after the replacements. -/
theorem prometheusLabelEscape_eq (input : Bytes) :
    prometheusLabelEscape input = (sanitized input).flatMap escapeLabelByte := by
  unfold prometheusLabelEscape sanitized
  induction input using labelLoop.induct with
  | case1 => rw [labelLoop, labelLoop, List.flatMap_nil]
  | case2 character rest hhigh result ih =>
    rw [labelLoop, labelLoop, if_pos hhigh, if_pos hhigh]
    dsimp only
    rw [ih, List.flatMap_append,
      flatMap_eq_self_of_high (fun _ => escapeLabelByte_of_high)
        (appendUtf8OrReplacement_high hhigh rest)]
  | case3 character rest hhigh hcontrol ih =>
    rw [labelLoop, labelLoop, if_neg hhigh, if_neg hhigh, if_pos hcontrol, if_pos hcontrol, ih,
      List.flatMap_append]
    rfl
  | case4 character rest hhigh hcontrol ih =>
    rw [labelLoop, labelLoop, if_neg hhigh, if_neg hhigh, if_neg hcontrol, if_neg hcontrol, ih,
      List.flatMap_append, List.flatMap_singleton]

/-- Nothing of a text in UTF-8 is replaced but control characters. -/
theorem sanitized_of_isUtf8 {text : Bytes} (hutf8 : IsUtf8 text)
    (hplain : ∀ b ∈ text, b = LF ∨ 0x20 ≤ b ∧ b ≠ 0x7F) : sanitized text = text := by
  obtain ⟨characters, rfl⟩ := hutf8
  unfold sanitized
  induction characters with
  | nil => rw [List.flatMap_nil, labelLoop]
  | cons c characters ih =>
    rw [List.flatMap_cons] at hplain ⊢
    have hrest := ih fun b hb => hplain b (List.mem_append_right _ hb)
    have hchar := appendUtf8OrReplacement_char c (characters.flatMap String.utf8EncodeChar)
    have hsequence := isSequence_char c
    obtain ⟨first, tail, heq⟩ := List.exists_cons_of_ne_nil hsequence.ne_nil
    rw [heq, List.cons_append] at hchar hplain ⊢
    rw [heq] at hsequence
    rw [labelLoop]
    dsimp only
    split_ifs with hhigh hcontrol
    · rw [hchar, ← List.cons_append, List.drop_left, hrest]
    · have hfirst := hplain first List.mem_cons_self
      simp only [Bool.or_eq_true, Bool.and_eq_true, decide_eq_true_eq, bne_iff_ne, beq_iff_eq]
        at hcontrol
      rcases hfirst with hline | ⟨hlow, hdelete⟩
      · exact absurd hline (hcontrol.resolve_right (by rw [hline]; decide)).2
      · exact absurd (hcontrol.resolve_right hdelete).1 (not_lt.2 hlow)
    · rw [hsequence.eq_nil_of_ascii (UInt8.lt_iff_toNat_lt.1 (not_le.1 hhigh)), List.nil_append,
        hrest]
      rfl

/-- A quoted label value of the format, read up to its closing quote, and the text after it. -/
def readQuoted : Bytes → Option (Bytes × Bytes)
  | [] => none
  | character :: rest =>
    if character = byte '"' then some ([], rest)
    else if character = byte '\\' then
      match rest with
      | [] => none
      | escaped :: rest =>
        (readQuoted rest).map fun (value, after) =>
          ((if escaped = byte 'n' then LF else escaped) :: value, after)
    else (readQuoted rest).map fun (value, after) => (character :: value, after)

theorem readQuoted_plain {character : UInt8} (hquote : character ≠ byte '"')
    (hescape : character ≠ byte '\\') (rest : Bytes) :
    readQuoted (character :: rest) =
      (readQuoted rest).map fun (value, after) => (character :: value, after) := by
  rw [readQuoted.eq_def]
  dsimp only
  rw [if_neg hquote, if_neg hescape]

theorem readQuoted_escaped (escaped : UInt8) (rest : Bytes) :
    readQuoted (byte '\\' :: escaped :: rest) =
      (readQuoted rest).map fun (value, after) =>
        ((if escaped = byte 'n' then LF else escaped) :: value, after) := by
  rw [readQuoted.eq_def]
  dsimp only
  rw [if_neg (by decide), if_pos rfl]

/-- A byte is written as it is, or as a character after a backslash. -/
theorem escapeLabelByte_cases (b : UInt8) :
    (escapeLabelByte b = [b] ∧ b ≠ byte '"' ∧ b ≠ byte '\\') ∨
    ∃ escaped, escapeLabelByte b = [byte '\\', escaped] ∧
      (if escaped = byte 'n' then LF else escaped) = b := by
  unfold escapeLabelByte
  split_ifs with hescape hquote hline
  · exact .inr ⟨byte '\\', rfl, hescape.symm⟩
  · exact .inr ⟨byte '"', rfl, hquote.symm⟩
  · exact .inr ⟨byte 'n', rfl, hline.symm⟩
  · exact .inl ⟨rfl, hquote, hescape⟩

/-- What is escaped is read back. -/
theorem readQuoted_escape (value rest : Bytes) :
    readQuoted (value.flatMap escapeLabelByte ++ byte '"' :: rest) = some (value, rest) := by
  induction value with
  | nil =>
    rw [List.flatMap_nil, List.nil_append, readQuoted.eq_def]
    exact if_pos rfl
  | cons b value ih =>
    rw [List.flatMap_cons, List.append_assoc]
    obtain ⟨hb, hquote, hescape⟩ | ⟨escaped, hb, hescaped⟩ := escapeLabelByte_cases b
    · rw [hb, List.singleton_append, readQuoted_plain hquote hescape, ih]
      rfl
    · rw [hb, List.cons_append, List.singleton_append, readQuoted_escaped, ih, hescaped]
      rfl

end ErikslundHttp
