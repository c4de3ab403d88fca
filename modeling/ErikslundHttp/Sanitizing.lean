import ErikslundHttp.Metrics.Reading
import ErikslundHttp.Observability.SnapshotJson

/-!
# Sanitizing text

The scans of `text.cpp` go through a text by an index.  Here they are written so, with every read of
a byte checked: a scan that reads past the end answers nothing.

* `validUtf8SequenceLength_iff`: the table of the scan is that of UTF-8.
* `jsonEscape_eq`, `prometheusLabelEscape_eq`: no scan reads past the end, and each leaves its index
  at the end of the text.
* `Replaced` says which text is meant: a character for every well-formed sequence, and U+FFFD for
  every byte that starts none.
* `sanitizing_is_exact`: that is what is read back from the escaped text, and it is the text itself
  if that was well formed.
-/

namespace ErikslundHttp

namespace Sanitizing

open Utf8 Reader

/-! ### The scans -/

/-- The length of the well-formed sequence at the index, `0` if there is none. -/
def validUtf8SequenceLength (input : Bytes) (index : ℕ) : Option ℕ :=
  input[index]?.bind fun first =>
    let remaining := input.length - index
    if first < 0x80 then some 1
    else if 0xC2 ≤ first && first ≤ 0xDF then
      if remaining < 2 then some 0
      else input[index + 1]?.map fun second => if isContinuation second then 2 else 0
    else if 0xE0 ≤ first && first ≤ 0xEF then
      if remaining < 3 then some 0
      else input[index + 2]?.bind fun third =>
        if !isContinuation third then some 0
        else input[index + 1]?.map fun second =>
          if !isContinuation second then 0
          else if first == 0xE0 && second < 0xA0 then 0
          else if first == 0xED && 0x9F < second then 0
          else 3
    else if 0xF0 ≤ first && first ≤ 0xF4 then
      if remaining < 4 then some 0
      else input[index + 2]?.bind fun third =>
        if !isContinuation third then some 0
        else input[index + 3]?.bind fun fourth =>
          if !isContinuation fourth then some 0
          else input[index + 1]?.map fun second =>
            if !isContinuation second then 0
            else if first == 0xF0 && second < 0x90 then 0
            else if first == 0xF4 && 0x8F < second then 0
            else 4
    else some 0

/-- The text and the index after `append_utf8_or_replacement`. -/
def appendUtf8OrReplacement (out input : Bytes) (index : ℕ) : Option (Bytes × ℕ) :=
  (validUtf8SequenceLength input index).map fun sequenceLength =>
    if sequenceLength = 0 then (out ++ kReplacementCharacter, index + 1)
    else (out ++ (input.drop index).take sequenceLength, index + sequenceLength)

theorem lt_of_appendUtf8OrReplacement {out input out' : Bytes} {index index' : ℕ}
    (h : appendUtf8OrReplacement out input index = some (out', index')) : index < index' := by
  obtain ⟨sequenceLength, -, h⟩ := Option.map_eq_some_iff.1 h
  split_ifs at h with hzero <;> cases h <;> omega

/-- The loop of `json_escape`. -/
def jsonEscapeLoop (escaped input : Bytes) (index : ℕ) : Option (Bytes × ℕ) :=
  if hindex : index < input.length then
    let character := input[index]
    if character = byte '"' ∨ character = byte '\\' then
      jsonEscapeLoop (escaped ++ [byte '\\', character]) input (index + 1)
    else if character < 0x20 then
      jsonEscapeLoop (escaped ++ ascii "\\u00" ++ [kLowerHexDigits.getD (character.toNat / 16) 0,
        kLowerHexDigits.getD (character.toNat % 16) 0]) input (index + 1)
    else
      match h : appendUtf8OrReplacement escaped input index with
      | none => none
      | some (escaped, index') => jsonEscapeLoop escaped input index'
  else some (escaped, index)
  termination_by input.length - index
  decreasing_by
    · omega
    · omega
    · have hlt := lt_of_appendUtf8OrReplacement h
      omega

/-- `json_escape`, with the position at which it ends. -/
def jsonEscape (input : Bytes) : Option (Bytes × ℕ) := jsonEscapeLoop [] input 0

/-- The loop of `prometheus_label_escape`. -/
def prometheusLabelEscapeLoop (escaped input : Bytes) (index : ℕ) : Option (Bytes × ℕ) :=
  if hindex : index < input.length then
    let character := input[index]
    if 0x80 ≤ character then
      match h : appendUtf8OrReplacement escaped input index with
      | none => none
      | some (escaped, index') => prometheusLabelEscapeLoop escaped input index'
    else if character < 0x20 && character != LF || character == 0x7F then
      prometheusLabelEscapeLoop (escaped ++ kReplacementCharacter) input (index + 1)
    else prometheusLabelEscapeLoop (escaped ++ escapeLabelByte character) input (index + 1)
  else some (escaped, index)
  termination_by input.length - index
  decreasing_by
    · have hlt := lt_of_appendUtf8OrReplacement h
      omega
    · omega
    · omega

/-- `prometheus_label_escape`, likewise. -/
def prometheusLabelEscape (input : Bytes) : Option (Bytes × ℕ) :=
  prometheusLabelEscapeLoop [] input 0

/-! ### No read past the end -/

/-- At an index inside the text, the scan is that of the text from there. -/
theorem validUtf8SequenceLength_eq {input : Bytes} {index : ℕ} (h : index < input.length) :
    validUtf8SequenceLength input index =
      some (ErikslundHttp.validUtf8SequenceLength (input.drop index)) := by
  have hread (k : ℕ) : input[index + k]? = (input.drop index)[k]? := List.getElem?_drop.symm
  have hfirst : input[index]? = (input.drop index)[0]? := hread 0
  have hremaining : input.length - index = (input.drop index).length := List.length_drop.symm
  have hne : input.drop index ≠ [] := by simpa using h
  rw [validUtf8SequenceLength, hread, hread, hread, hfirst, hremaining]
  generalize input.drop index = rest at hne ⊢
  obtain ⟨first, rest, rfl⟩ := List.exists_cons_of_ne_nil hne
  rw [ErikslundHttp.validUtf8SequenceLength, List.getElem?_cons_zero, Option.bind_some]
  simp only [List.getD_cons_zero]
  by_cases hone : first < 0x80
  · rw [if_pos hone, if_pos hone]
  rw [if_neg hone, if_neg hone]
  by_cases htwo : (0xC2 ≤ first && first ≤ 0xDF) = true
  · rw [if_pos htwo, if_pos htwo]
    rcases rest with _ | ⟨second, rest⟩
    · rfl
    · simp
  rw [if_neg htwo, if_neg htwo]
  by_cases hthree : (0xE0 ≤ first && first ≤ 0xEF) = true
  · rw [if_pos hthree, if_pos hthree]
    rcases rest with _ | ⟨second, _ | ⟨third, rest⟩⟩
    · rfl
    · rfl
    · have hlong : ¬ rest.length + 1 + 1 + 1 < 3 := by omega
      cases hthird : isContinuation third <;> simp [hthird, hlong]
  rw [if_neg hthree, if_neg hthree]
  by_cases hfour : (0xF0 ≤ first && first ≤ 0xF4) = true
  · rw [if_pos hfour, if_pos hfour]
    rcases rest with _ | ⟨second, _ | ⟨third, _ | ⟨fourth, rest⟩⟩⟩
    · rfl
    · rfl
    · rfl
    · have hlong : ¬ rest.length + 1 + 1 + 1 + 1 < 4 := by omega
      cases hthird : isContinuation third <;> cases hfourth : isContinuation fourth <;>
        simp [hthird, hfourth, hlong]
  rw [if_neg hfour, if_neg hfour]

/-- **The table of sequences.**  Inside the text the scan reads no byte past the end, and what it
counts is the encoding of one character. -/
theorem validUtf8SequenceLength_iff {input : Bytes} {index : ℕ} (h : index < input.length) :
    (∃ k, validUtf8SequenceLength input index = some k) ∧ ∀ k, 0 < k →
      (validUtf8SequenceLength input index = some k ↔
        ∃ c : Char, String.utf8EncodeChar c <+: input.drop index ∧
          (String.utf8EncodeChar c).length = k) := by
  rw [validUtf8SequenceLength_eq h]
  refine ⟨⟨_, rfl⟩, fun k hk => ?_⟩
  rw [Option.some.injEq]
  constructor
  · rintro rfl
    obtain ⟨first, rest, hdrop⟩ : ∃ first rest, input.drop index = first :: rest :=
      List.exists_cons_of_ne_nil (by simpa using h)
    rw [hdrop] at hk ⊢
    have hsequence := isSequence_take (Nat.ne_of_gt hk)
    obtain ⟨c, hc⟩ := hsequence.exists_char
    refine ⟨c, hc ▸ List.take_prefix _ _, ?_⟩
    have hlength := validUtf8SequenceLength_of_isSequence hsequence
      ((first :: rest).drop (ErikslundHttp.validUtf8SequenceLength (first :: rest)))
    rw [List.take_append_drop] at hlength
    rw [← hc, ← hlength]
  · rintro ⟨c, ⟨rest, hrest⟩, rfl⟩
    rw [← hrest]
    exact validUtf8SequenceLength_of_isSequence (isSequence_char c) rest

theorem appendUtf8OrReplacement_eq {input : Bytes} {index : ℕ} (h : index < input.length)
    (out : Bytes) : appendUtf8OrReplacement out input index =
      some (out ++ (ErikslundHttp.appendUtf8OrReplacement (input.drop index)).1,
        index + (ErikslundHttp.appendUtf8OrReplacement (input.drop index)).2) := by
  rw [appendUtf8OrReplacement, validUtf8SequenceLength_eq h, Option.map_some,
    ErikslundHttp.appendUtf8OrReplacement]
  split_ifs <;> rfl

/-- No more bytes are taken than there are. -/
theorem appendUtf8OrReplacement_le {rest : Bytes} (h : rest ≠ []) :
    (ErikslundHttp.appendUtf8OrReplacement rest).2 ≤ rest.length := by
  obtain ⟨first, rest, rfl⟩ := List.exists_cons_of_ne_nil h
  rw [ErikslundHttp.appendUtf8OrReplacement]
  split_ifs with hzero
  · exact Nat.le_add_left 1 rest.length
  · have hlength := validUtf8SequenceLength_of_isSequence (isSequence_take hzero)
      ((first :: rest).drop (ErikslundHttp.validUtf8SequenceLength (first :: rest)))
    rw [List.take_append_drop, List.length_take] at hlength
    omega

/-! ### The loops -/

/-- The loop escapes what is left and ends at the end of the text. -/
theorem jsonEscapeLoop_eq {input : Bytes} (escaped : Bytes) {index : ℕ}
    (h : index ≤ input.length) :
    jsonEscapeLoop escaped input index =
      some (escaped ++ ErikslundHttp.jsonEscape (input.drop index), input.length) := by
  induction hleft : input.length - index using Nat.strong_induction_on
    generalizing escaped index with
  | _ left ih =>
    subst hleft
    rw [jsonEscapeLoop]
    by_cases hindex : index < input.length
    · rw [dif_pos hindex]
      have hdrop : input.drop index = input[index] :: input.drop (index + 1) :=
        List.drop_eq_getElem_cons hindex
      have hstep (escaped : Bytes) := ih (input.length - (index + 1)) (by omega) escaped
        (show index + 1 ≤ input.length by omega) rfl
      rw [hdrop, ErikslundHttp.jsonEscape]
      dsimp only
      by_cases hescaped : input[index] = byte '"' ∨ input[index] = byte '\\'
      · rw [if_pos hescaped, if_pos hescaped, hstep, List.append_assoc]
      rw [if_neg hescaped, if_neg hescaped]
      by_cases hcontrol : input[index] < 0x20
      · rw [if_pos hcontrol, if_pos hcontrol, hstep]
        simp only [List.append_assoc]
      rw [if_neg hcontrol, if_neg hcontrol, ← hdrop]
      have hle := appendUtf8OrReplacement_le (List.drop_eq_nil_iff.not.2 (not_le.2 hindex))
      have hpos := appendUtf8OrReplacement_pos (input.drop index)
      rw [List.length_drop] at hle
      split
      · rename_i hnone
        rw [appendUtf8OrReplacement_eq hindex] at hnone
        cases hnone
      · rename_i hsome
        rw [appendUtf8OrReplacement_eq hindex] at hsome
        cases hsome
        rw [ih _ (by omega) _ (by omega) rfl, List.append_assoc, List.drop_drop]
    · rw [dif_neg hindex, List.drop_eq_nil_of_le (by omega), ErikslundHttp.jsonEscape,
        List.append_nil, show index = input.length by omega]

theorem prometheusLabelEscapeLoop_eq {input : Bytes} (escaped : Bytes) {index : ℕ}
    (h : index ≤ input.length) :
    prometheusLabelEscapeLoop escaped input index =
      some (escaped ++ ErikslundHttp.prometheusLabelEscape (input.drop index), input.length) := by
  unfold ErikslundHttp.prometheusLabelEscape
  induction hleft : input.length - index using Nat.strong_induction_on
    generalizing escaped index with
  | _ left ih =>
    subst hleft
    rw [prometheusLabelEscapeLoop]
    by_cases hindex : index < input.length
    · rw [dif_pos hindex]
      have hdrop : input.drop index = input[index] :: input.drop (index + 1) :=
        List.drop_eq_getElem_cons hindex
      have hstep (escaped : Bytes) := ih (input.length - (index + 1)) (by omega) escaped
        (show index + 1 ≤ input.length by omega) rfl
      rw [hdrop, labelLoop]
      dsimp only
      by_cases hhigh : 0x80 ≤ input[index]
      · rw [if_pos hhigh, if_pos hhigh, ← hdrop]
        have hle := appendUtf8OrReplacement_le (List.drop_eq_nil_iff.not.2 (not_le.2 hindex))
        have hpos := appendUtf8OrReplacement_pos (input.drop index)
        rw [List.length_drop] at hle
        split
        · rename_i hnone
          rw [appendUtf8OrReplacement_eq hindex] at hnone
          cases hnone
        · rename_i hsome
          rw [appendUtf8OrReplacement_eq hindex] at hsome
          cases hsome
          rw [ih _ (by omega) _ (by omega) rfl, List.append_assoc, List.drop_drop]
      rw [if_neg hhigh, if_neg hhigh]
      split_ifs <;> rw [hstep, List.append_assoc]
    · rw [dif_neg hindex, List.drop_eq_nil_of_le (by omega), labelLoop, List.append_nil,
        show index = input.length by omega]

/-- The whole text is escaped. -/
theorem jsonEscape_eq (input : Bytes) :
    jsonEscape input = some (ErikslundHttp.jsonEscape input, input.length) :=
  jsonEscapeLoop_eq [] (Nat.zero_le _)

theorem prometheusLabelEscape_eq (input : Bytes) :
    prometheusLabelEscape input = some (ErikslundHttp.prometheusLabelEscape input, input.length) :=
  prometheusLabelEscapeLoop_eq [] (Nat.zero_le _)

/-! ### Replacements -/

/-- A character for every well-formed sequence, unless it is forbidden, and U+FFFD for those and for
every byte that starts none. -/
inductive Replaced (forbidden : Char → Prop) : Bytes → Bytes → Prop where
  | nil : Replaced forbidden [] []
  | kept {c : Char} {rest text : Bytes} (hc : ¬ forbidden c) (h : Replaced forbidden rest text) :
    Replaced forbidden (String.utf8EncodeChar c ++ rest) (String.utf8EncodeChar c ++ text)
  | forbidden {c : Char} {rest text : Bytes} (hc : forbidden c) (h : Replaced forbidden rest text) :
    Replaced forbidden (String.utf8EncodeChar c ++ rest) (kReplacementCharacter ++ text)
  | invalid {b : UInt8} {rest text : Bytes} (hb : ∀ c, ¬ String.utf8EncodeChar c <+: b :: rest)
    (h : Replaced forbidden rest text) :
    Replaced forbidden (b :: rest) (kReplacementCharacter ++ text)

/-- JSON spells every character. -/
def NoCharacter (_ : Char) : Prop := False

/-- The control characters that a label cannot hold. -/
def IsLabelControl (c : Char) : Prop := c.val.toNat < 0x20 ∧ c ≠ '\n' ∨ c.val.toNat = 0x7F

/-- What the scan does at the start of a text. -/
theorem appendUtf8OrReplacement_cases (b : UInt8) (rest : Bytes) :
    (∃ c rest', b :: rest = String.utf8EncodeChar c ++ rest') ∨
      (∀ c, ¬ String.utf8EncodeChar c <+: b :: rest) ∧
        ErikslundHttp.appendUtf8OrReplacement (b :: rest) = (kReplacementCharacter, 1) := by
  by_cases hzero : ErikslundHttp.validUtf8SequenceLength (b :: rest) = 0
  · refine .inr ⟨?_, if_pos hzero⟩
    rintro c ⟨rest', hrest⟩
    have hlength := validUtf8SequenceLength_of_isSequence (isSequence_char c) rest'
    rw [hrest, hzero] at hlength
    exact (isSequence_char c).ne_nil (List.eq_nil_of_length_eq_zero hlength.symm)
  · obtain ⟨c, hc⟩ := (isSequence_take hzero).exists_char
    exact .inl ⟨c, _, by rw [← hc, List.take_append_drop]⟩

/-- A function with the equations of `Replaced` is what it says. -/
theorem replaced_iff {forbidden : Char → Prop} {replace : Bytes → Bytes} (hnil : replace [] = [])
    (hkept : ∀ c rest, ¬ forbidden c →
      replace (String.utf8EncodeChar c ++ rest) = String.utf8EncodeChar c ++ replace rest)
    (hforbidden : ∀ c rest, forbidden c →
      replace (String.utf8EncodeChar c ++ rest) = kReplacementCharacter ++ replace rest)
    (hinvalid : ∀ b rest, (∀ c, ¬ String.utf8EncodeChar c <+: b :: rest) →
      replace (b :: rest) = kReplacementCharacter ++ replace rest)
    {input text : Bytes} : Replaced forbidden input text ↔ text = replace input := by
  constructor
  · intro h
    induction h with
    | nil => exact hnil.symm
    | kept hc _ ih => rw [hkept _ _ hc, ih]
    | forbidden hc _ ih => rw [hforbidden _ _ hc, ih]
    | invalid hb _ ih => rw [hinvalid _ _ hb, ih]
  · rintro rfl
    induction hlength : input.length using Nat.strong_induction_on generalizing input with
    | _ length ih =>
      subst hlength
      cases input with
      | nil =>
        rw [hnil]
        exact .nil
      | cons b rest =>
        rcases appendUtf8OrReplacement_cases b rest with ⟨c, rest', hsplit⟩ | ⟨hb, -⟩
        · have hpos := List.length_pos_iff.2 (isSequence_char c).ne_nil
          have hrest := ih rest'.length (by rw [hsplit, List.length_append]; omega) rfl
          rw [hsplit]
          by_cases hc : forbidden c
          · rw [hforbidden c rest' hc]
            exact .forbidden hc hrest
          · rw [hkept c rest' hc]
            exact .kept hc hrest
        · rw [hinvalid b rest hb]
          exact .invalid hb (ih rest.length (Nat.lt_succ_self _) rfl)

theorem wellFormed_char (c : Char) (rest : Bytes) :
    wellFormed (String.utf8EncodeChar c ++ rest) =
      String.utf8EncodeChar c ++ wellFormed rest := by
  have hchar := appendUtf8OrReplacement_char c rest
  obtain ⟨first, tail, heq⟩ := List.exists_cons_of_ne_nil (isSequence_char c).ne_nil
  rw [heq, List.cons_append] at hchar ⊢
  rw [wellFormed, hchar, ← List.cons_append, List.drop_left]

theorem replaced_iff_wellFormed {input text : Bytes} :
    Replaced NoCharacter input text ↔ text = wellFormed input := by
  refine replaced_iff (by rw [wellFormed]) (fun c rest _ => wellFormed_char c rest) nofun ?_
  intro b rest hb
  obtain ⟨c, rest', hsplit⟩ | ⟨-, happend⟩ := appendUtf8OrReplacement_cases b rest
  · exact absurd ⟨rest', hsplit.symm⟩ (hb c)
  · rw [wellFormed, happend]
    rfl

/-- A character is one ASCII byte, or none of its bytes is. -/
theorem utf8EncodeChar_cases (c : Char) :
    (c.val.toNat < 0x80 ∧ String.utf8EncodeChar c = [UInt8.ofNat c.val.toNat]) ∨
      0x80 ≤ c.val.toNat ∧ ∀ b ∈ String.utf8EncodeChar c, 0x80 ≤ b := by
  by_cases hascii : c.val.toNat < 0x80
  · refine .inl ⟨hascii, ?_⟩
    rw [String.utf8EncodeChar, if_pos (by omega)]
  · refine .inr ⟨by omega, fun b hb => UInt8.le_iff_toNat_le.2 ?_⟩
    have hsequence := isSequence_char c
    have hvalid : c.val.toNat < 0xD800 ∨ 0xDFFF < c.val.toNat ∧ c.val.toNat < 0x110000 := c.valid
    rw [String.utf8EncodeChar] at hsequence hb
    generalize c.val.toNat = v at hascii hvalid hsequence hb
    rw [if_neg (by omega)] at hsequence hb
    -- the first byte of every longer sequence is a lead byte
    split_ifs at hsequence hb
    all_goals
      refine hsequence.high ?_ b hb
      rw [toNat_ofNat_of_lt (by omega)]
      omega

/-- The control characters are those that the loop replaces. -/
theorem isLabelControl_iff {c : Char} (hascii : c.val.toNat < 0x80) {b : UInt8}
    (hb : b = UInt8.ofNat c.val.toNat) :
    IsLabelControl c ↔ (b < 0x20 && b != LF || b == 0x7F) = true := by
  have hnat : b.toNat = c.val.toNat := by rw [hb, toNat_ofNat_of_lt (by omega)]
  have hline : c = '\n' ↔ b = LF := by
    rw [Char.ext_iff, ← UInt32.toNat_inj, ← UInt8.toNat_inj, hnat]
    rfl
  have hdelete : c.val.toNat = 0x7F ↔ b = 0x7F := by
    rw [← UInt8.toNat_inj, hnat]
    rfl
  simp only [IsLabelControl, Bool.or_eq_true, Bool.and_eq_true, decide_eq_true_eq, bne_iff_ne,
    beq_iff_eq, UInt8.lt_iff_toNat_lt, hnat, ne_eq, hline, hdelete]
  rfl

theorem sanitized_char (c : Char) (rest : Bytes) (hc : ¬ IsLabelControl c) :
    sanitized (String.utf8EncodeChar c ++ rest) =
      String.utf8EncodeChar c ++ sanitized rest := by
  have hchar := appendUtf8OrReplacement_char c rest
  unfold sanitized
  rcases utf8EncodeChar_cases c with ⟨hascii, hone⟩ | ⟨-, hhigh⟩
  · have hlow : ¬ 0x80 ≤ UInt8.ofNat c.val.toNat := by
      rw [UInt8.le_iff_toNat_le, toNat_ofNat_of_lt (by omega)]
      exact not_le.2 hascii
    rw [hone, List.singleton_append, labelLoop, if_neg hlow,
      if_neg (mt (isLabelControl_iff hascii rfl).2 hc)]
  · obtain ⟨first, tail, heq⟩ := List.exists_cons_of_ne_nil (isSequence_char c).ne_nil
    have hfirst : 0x80 ≤ first := hhigh first (heq ▸ List.mem_cons_self)
    rw [heq, List.cons_append] at hchar ⊢
    rw [labelLoop, if_pos hfirst, hchar]
    dsimp only
    rw [← List.cons_append, List.drop_left]

theorem sanitized_control (c : Char) (rest : Bytes) (hc : IsLabelControl c) :
    sanitized (String.utf8EncodeChar c ++ rest) = kReplacementCharacter ++ sanitized rest := by
  have hcontrol : c.val.toNat < 0x80 := by
    rcases hc with ⟨hlow, -⟩ | hdelete <;> omega
  obtain ⟨hascii, hone⟩ := (utf8EncodeChar_cases c).resolve_right fun h => absurd h.1 (by omega)
  have hlow : ¬ 0x80 ≤ UInt8.ofNat c.val.toNat := by
    rw [UInt8.le_iff_toNat_le, toNat_ofNat_of_lt (by omega)]
    exact not_le.2 hascii
  unfold sanitized
  rw [hone, List.singleton_append, labelLoop, if_neg hlow,
    if_pos ((isLabelControl_iff hascii rfl).1 hc)]

theorem replaced_iff_sanitized {input text : Bytes} :
    Replaced IsLabelControl input text ↔ text = sanitized input := by
  refine replaced_iff (by rw [sanitized, labelLoop]) sanitized_char sanitized_control ?_
  intro b rest hb
  obtain ⟨c, rest', hsplit⟩ | ⟨-, happend⟩ := appendUtf8OrReplacement_cases b rest
  · exact absurd ⟨rest', hsplit.symm⟩ (hb c)
  -- an ASCII byte is a character
  have hhigh : 0x80 ≤ b := by
    by_contra hlow
    refine hb (Char.ofNat b.toNat) ?_
    rw [utf8EncodeChar_ofNat (UInt8.lt_iff_toNat_lt.1 (not_le.1 hlow))]
    exact ⟨rest, rfl⟩
  rw [sanitized, labelLoop, if_pos hhigh, happend]
  rfl

/-- What is replaced leaves UTF-8. -/
theorem Replaced.isUtf8 {forbidden : Char → Prop} {input text : Bytes}
    (h : Replaced forbidden input text) : IsUtf8 text := by
  have hreplacement : IsUtf8 kReplacementCharacter := isUtf8_char '\uFFFD'
  induction h with
  | nil => exact isUtf8_nil
  | kept _ _ ih => exact (isUtf8_char _).append ih
  | forbidden _ _ ih => exact hreplacement.append ih
  | invalid _ _ ih => exact hreplacement.append ih

/-- No control character is left but line feeds. -/
theorem Replaced.printable {input text : Bytes} (h : Replaced IsLabelControl input text) :
    ∀ b ∈ text, b = LF ∨ 0x20 ≤ b := by
  have hhigh : (kReplacementCharacter.all fun b => 0x20 ≤ b) = true := by decide
  have hreplacement : ∀ b ∈ kReplacementCharacter, b = LF ∨ 0x20 ≤ b :=
    fun b hb => .inr (of_decide_eq_true (List.all_eq_true.1 hhigh b hb))
  induction h with
  | nil => exact fun _ hb => absurd hb List.not_mem_nil
  | @kept c _ _ hc _ ih =>
    refine List.forall_mem_append.2 ⟨fun b hb => ?_, ih⟩
    rcases utf8EncodeChar_cases c with ⟨hascii, hone⟩ | ⟨-, hhigh⟩
    · have heq : b = UInt8.ofNat c.val.toNat := by simpa only [hone, List.mem_singleton] using hb
      rw [isLabelControl_iff hascii heq] at hc
      by_contra hplain
      rw [not_or, not_le] at hplain
      simp [hplain.1, hplain.2] at hc
    · exact .inr (le_trans (by decide) (hhigh b hb))
  | forbidden _ _ ih => exact List.forall_mem_append.2 ⟨hreplacement, ih⟩
  | invalid _ _ ih => exact List.forall_mem_append.2 ⟨hreplacement, ih⟩

/-! ### Escapes -/

/-- A text in which every quote comes after a backslash. -/
inductive NoBareQuote : Bytes → Prop where
  | nil : NoBareQuote []
  | plain {b : UInt8} {rest : Bytes} (hquote : b ≠ byte '"') (hescape : b ≠ byte '\\')
    (h : NoBareQuote rest) : NoBareQuote (b :: rest)
  | escaped (b : UInt8) {rest : Bytes} (h : NoBareQuote rest) :
    NoBareQuote (byte '\\' :: b :: rest)

/-- What can stand between quotes. -/
structure IsQuotable (escaped : Bytes) : Prop where
  isUtf8 : IsUtf8 escaped
  /-- Every quote is escaped. -/
  quotes : NoBareQuote escaped
  printable : ∀ b ∈ escaped, 0x20 ≤ b

/-- A digit is none of the characters that are escaped. -/
theorem lowerHexDigit_plain {d : ℕ} (h : d < 16) :
    kLowerHexDigits.getD d 0 ≠ byte '"' ∧ kLowerHexDigits.getD d 0 ≠ byte '\\' ∧
      0x20 ≤ kLowerHexDigits.getD d 0 ∧ kLowerHexDigits.getD d 0 < 0x80 := by
  interval_cases d <;> decide

theorem noBareQuote_escapeJsonByte (b : UInt8) {rest : Bytes} (h : NoBareQuote rest) :
    NoBareQuote (escapeJsonByte b ++ rest) := by
  unfold escapeJsonByte
  split_ifs with hescaped hcontrol
  · exact .escaped b h
  · have hlow : b.toNat < 0x20 := UInt8.lt_iff_toNat_lt.1 hcontrol
    obtain ⟨hquote₁, hescape₁, -⟩ := lowerHexDigit_plain (show b.toNat / 16 < 16 by omega)
    obtain ⟨hquote₂, hescape₂, -⟩ := lowerHexDigit_plain (show b.toNat % 16 < 16 by omega)
    exact .escaped _ (.plain (by decide) (by decide) (.plain (by decide) (by decide)
      (.plain hquote₁ hescape₁ (.plain hquote₂ hescape₂ h))))
  · rw [not_or] at hescaped
    exact .plain hescaped.1 hescaped.2 h

theorem noBareQuote_escapeLabelByte (b : UInt8) {rest : Bytes} (h : NoBareQuote rest) :
    NoBareQuote (escapeLabelByte b ++ rest) := by
  obtain ⟨hb, hquote, hescape⟩ | ⟨escaped, hb, -⟩ := escapeLabelByte_cases b
  · rw [hb]
    exact .plain hquote hescape h
  · rw [hb]
    exact .escaped escaped h

theorem noBareQuote_flatMap {spell : UInt8 → Bytes}
    (hspell : ∀ b rest, NoBareQuote rest → NoBareQuote (spell b ++ rest)) (text : Bytes) :
    NoBareQuote (text.flatMap spell) := by
  induction text with
  | nil => exact .nil
  | cons b text ih =>
    rw [List.flatMap_cons]
    exact hspell b _ ih

/-- Escapes in ASCII of ASCII characters leave UTF-8. -/
theorem isUtf8_escaped {spell : UInt8 → Bytes} (hhigh : ∀ b, 0x80 ≤ b → spell b = [b])
    (hascii : ∀ b < 0x80, ∀ x ∈ spell b, x < 0x80) {text : Bytes} (h : IsUtf8 text) :
    IsUtf8 (text.flatMap spell) := by
  obtain ⟨characters, rfl⟩ := h
  rw [List.flatMap_assoc]
  refine isUtf8_flatMap fun c _ => ?_
  rcases utf8EncodeChar_cases c with ⟨hlow, hone⟩ | ⟨-, hc⟩
  · rw [hone, List.flatMap_singleton]
    refine isUtf8_of_ascii fun x hx => UInt8.lt_iff_toNat_lt.1 (hascii _ ?_ x hx)
    rw [UInt8.lt_iff_toNat_lt, toNat_ofNat_of_lt (by omega)]
    exact hlow
  · rw [flatMap_eq_self_of_high hhigh hc]
    exact isUtf8_char c

theorem printable_of_all {text : Bytes} (h : (text.all fun x => 0x20 ≤ x ∧ x < 0x80) = true) :
    ∀ x ∈ text, 0x20 ≤ x ∧ x < 0x80 := by
  simpa using h

theorem escapeJsonByte_mem {b x : UInt8} (hx : x ∈ escapeJsonByte b) :
    0x20 ≤ x ∧ (b < 0x80 → x < 0x80) := by
  unfold escapeJsonByte at hx
  split_ifs at hx with hescaped hcontrol
  · have hb : 0x20 ≤ b := by rcases hescaped with rfl | rfl <;> decide
    rcases List.mem_pair.1 hx with rfl | rfl
    · exact ⟨by decide, fun _ => by decide⟩
    · exact ⟨hb, id⟩
  · have hlow : b.toNat < 0x20 := UInt8.lt_iff_toNat_lt.1 hcontrol
    obtain ⟨-, -, hhigh⟩ := lowerHexDigit_plain (show b.toNat / 16 < 16 by omega)
    obtain ⟨-, -, hrest⟩ := lowerHexDigit_plain (show b.toNat % 16 < 16 by omega)
    have hmark : ∀ x ∈ ascii "\\u00", 0x20 ≤ x ∧ x < 0x80 := printable_of_all (by decide)
    rcases List.mem_append.1 hx with hx | hx
    · exact ⟨(hmark x hx).1, fun _ => (hmark x hx).2⟩
    · rcases List.mem_pair.1 hx with rfl | rfl
      · exact ⟨hhigh.1, fun _ => hhigh.2⟩
      · exact ⟨hrest.1, fun _ => hrest.2⟩
  · obtain rfl := List.mem_singleton.1 hx
    exact ⟨not_lt.1 hcontrol, id⟩

theorem escapeLabelByte_mem {b x : UInt8} (hx : x ∈ escapeLabelByte b) :
    (b = LF ∨ 0x20 ≤ b → 0x20 ≤ x) ∧ (b < 0x80 → x < 0x80) := by
  have hescapes : ∀ text ∈ [ascii "\\\\", ascii "\\\"", ascii "\\n"],
      ∀ x ∈ text, 0x20 ≤ x ∧ x < 0x80 := by
    intro text htext
    refine printable_of_all ?_
    simp only [List.mem_cons, List.not_mem_nil, or_false] at htext
    rcases htext with rfl | rfl | rfl <;> decide
  have hspelled {text : Bytes} (htext : text ∈ [ascii "\\\\", ascii "\\\"", ascii "\\n"])
      (hx : x ∈ text) : (b = LF ∨ 0x20 ≤ b → 0x20 ≤ x) ∧ (b < 0x80 → x < 0x80) :=
    ⟨fun _ => (hescapes text htext x hx).1, fun _ => (hescapes text htext x hx).2⟩
  unfold escapeLabelByte at hx
  split_ifs at hx with hescape hquote hline
  · exact hspelled (by simp) hx
  · exact hspelled (by simp) hx
  · exact hspelled (by simp) hx
  · obtain rfl := List.mem_singleton.1 hx
    exact ⟨fun h => h.resolve_left hline, id⟩

theorem isQuotable_jsonEscape (input : Bytes) : IsQuotable (ErikslundHttp.jsonEscape input) := by
  rw [ErikslundHttp.jsonEscape_eq]
  refine ⟨?_, noBareQuote_flatMap (fun b _ => noBareQuote_escapeJsonByte b) _, ?_⟩
  · exact isUtf8_escaped (fun _ => escapeJsonByte_of_high)
      (fun _ hb _ hx => (escapeJsonByte_mem hx).2 hb) (isUtf8_wellFormed input)
  · intro x hx
    obtain ⟨b, -, hx⟩ := List.mem_flatMap.1 hx
    exact (escapeJsonByte_mem hx).1

theorem isQuotable_prometheusLabelEscape (input : Bytes) :
    IsQuotable (ErikslundHttp.prometheusLabelEscape input) := by
  have hreplaced : Replaced IsLabelControl input (sanitized input) := replaced_iff_sanitized.2 rfl
  rw [ErikslundHttp.prometheusLabelEscape_eq]
  refine ⟨?_, noBareQuote_flatMap (fun b _ => noBareQuote_escapeLabelByte b) _, ?_⟩
  · exact isUtf8_escaped (fun _ => escapeLabelByte_of_high)
      (fun _ hb _ hx => (escapeLabelByte_mem hx).2 hb) hreplaced.isUtf8
  · intro x hx
    obtain ⟨b, hb, hx⟩ := List.mem_flatMap.1 hx
    exact (escapeLabelByte_mem hx).1 (hreplaced.printable b hb)

/-! ### What is read back -/

/-- The text that stands for itself up to the end. -/
def whole (read : Option (Bytes × Bytes)) : Option Bytes :=
  read.bind fun (text, rest) => if rest = [] then some text else none

/-- A string of JSON, of which the quotes are left out. -/
def unescapeJson (escaped : Bytes) : Option Bytes :=
  whole (Json.readString (escaped.length + 1) (escaped ++ [byte '"']))

/-- A label value of the Prometheus format, of which the quotes are left out. -/
def unescapePrometheusLabel (escaped : Bytes) : Option Bytes :=
  whole (readEscaped (byte '\\') (byte '"') unescapeLabel (escaped ++ [byte '"']))

theorem unescapeJson_jsonEscape (input : Bytes) :
    unescapeJson (ErikslundHttp.jsonEscape input) = some (wellFormed input) := by
  have hread := readsString_jsonEscape input _ [] (Nat.lt_succ_self _)
  exact congrArg whole hread

theorem unescapePrometheusLabel_escape (input : Bytes) :
    unescapePrometheusLabel (ErikslundHttp.prometheusLabelEscape input) =
      some (sanitized input) := by
  rw [ErikslundHttp.prometheusLabelEscape_eq]
  exact congrArg whole (readEscaped_flatMap spells_label (by decide) (sanitized input) [])

/-- **Sanitizing is exact.**  The table is that of UTF-8.  The whole of a text is escaped, between
quotes it reads as the text with its replacements, and those leave a good text as it is. -/
theorem sanitizing_is_exact (input : Bytes) :
    (∀ index < input.length, (∃ k, validUtf8SequenceLength input index = some k) ∧
      ∀ k, 0 < k → (validUtf8SequenceLength input index = some k ↔
        ∃ c : Char, String.utf8EncodeChar c <+: input.drop index ∧
          (String.utf8EncodeChar c).length = k)) ∧
    (∃ escaped text, jsonEscape input = some (escaped, input.length) ∧ IsQuotable escaped ∧
      unescapeJson escaped = some text ∧
      (∀ text', Replaced NoCharacter input text' ↔ text' = text) ∧
      (IsUtf8 input → text = input)) ∧
    ∃ escaped text, prometheusLabelEscape input = some (escaped, input.length) ∧
      IsQuotable escaped ∧ unescapePrometheusLabel escaped = some text ∧
      (∀ text', Replaced IsLabelControl input text' ↔ text' = text) ∧
      (IsUtf8 input → (∀ b ∈ input, b = LF ∨ 0x20 ≤ b ∧ b ≠ 0x7F) → text = input) := by
  refine ⟨fun index hindex => validUtf8SequenceLength_iff hindex, ?_, ?_⟩
  · exact ⟨_, wellFormed input, jsonEscape_eq input, isQuotable_jsonEscape input,
      unescapeJson_jsonEscape input, fun _ => replaced_iff_wellFormed, wellFormed_of_isUtf8⟩
  · exact ⟨_, sanitized input, prometheusLabelEscape_eq input,
      isQuotable_prometheusLabelEscape input, unescapePrometheusLabel_escape input,
      fun _ => replaced_iff_sanitized, sanitized_of_isUtf8⟩

end Sanitizing

end ErikslundHttp
