import ErikslundHttp.Digits
import ErikslundHttp.Request.Grammar

/-!
# The authority scanners accept exactly their grammar

`authority_is_well_formed` cuts an authority at its first `]` or `:` and looks at what is before and
behind it.  The grammar builds it from a host and a port.

* `eq_toChars_iff`: canonical decimals are what `std::to_chars` writes.
* `portIsWellFormed_iff`, `registeredNameIsWellFormed_iff`, `ipLiteralIsWellFormed_iff`: the parts.
* `authorityIsWellFormed_iff`: the whole.  The text is one without NUL, as every field and target
  is: `inet_pton` is handed a C string.
-/

namespace ErikslundHttp

open Scan Grammar

/-! ### Canonical decimals -/

/-- The digits of a numeral, the last one first, are those of its value. -/
theorem toChars_decimalValue {text : Bytes} (hne : text ≠ [])
    (hdigits : ∀ b ∈ text, isDecimalDigit b = true) (hhead : text.head? ≠ some (byte '0')) :
    toChars (decimalValue text) = text := by
  have hrange : ∀ b ∈ text, 48 ≤ b.toNat ∧ b.toNat ≤ 57 := by
    intro b hb
    have hdigit := hdigits b hb
    rw [isDecimalDigit, Bool.and_eq_true, decide_eq_true_eq, decide_eq_true_eq,
      UInt8.le_iff_toNat_le, UInt8.le_iff_toNat_le] at hdigit
    exact hdigit
  set digits := text.reverse.map fun b => b.toNat - 48 with hset
  have hback : (digits.map fun d => UInt8.ofNat (48 + d)).reverse = text := by
    rw [hset, List.map_map, ← List.map_reverse, List.reverse_reverse]
    refine (List.map_congr_left fun b hb => ?_).trans (List.map_id text)
    obtain ⟨hlow, -⟩ := hrange b hb
    rw [Function.comp_apply, Nat.add_sub_cancel' hlow, UInt8.ofNat_toNat]
    rfl
  have hlt : ∀ d ∈ digits, d < 10 := by
    intro d hd
    obtain ⟨b, hb, rfl⟩ := List.mem_map.1 hd
    obtain ⟨-, hhigh⟩ := hrange b (List.mem_reverse.1 hb)
    omega
  have hvalue : decimalValue text = Nat.ofDigits 10 digits := by
    rw [← foldr_digits digits hlt, ← List.foldl_reverse, hback]
    rfl
  have hlast : ∀ h : digits ≠ [], digits.getLast h ≠ 0 := by
    intro h hzero
    obtain ⟨b, rest, rfl⟩ := List.exists_cons_of_ne_nil hne
    have hb : b.toNat - 48 = 0 := by simpa [hset] using hzero
    obtain ⟨hlow, -⟩ := hrange b List.mem_cons_self
    have hzeroByte : b = byte '0' := UInt8.toNat_inj.1 (by
      show b.toNat = 48
      omega)
    exact hhead (by rw [hzeroByte]; rfl)
  have hdigitsOf : Nat.digits 10 (decimalValue text) = digits := by
    rw [hvalue, Nat.digits_ofDigits 10 (by decide) digits hlt hlast]
  have hpos : decimalValue text ≠ 0 := by
    intro hzero
    rw [hzero, Nat.digits_zero] at hdigitsOf
    rw [← hback, ← hdigitsOf] at hne
    exact hne rfl
  rw [toChars, if_neg hpos, hdigitsOf, hback]

/-- A canonical decimal is what a number is written as. -/
theorem eq_toChars_iff {text : Bytes} {value : ℕ} :
    text = toChars value ↔ isCanonicalDecimal text = true ∧ decimalValue text = value := by
  constructor
  · rintro rfl
    have hempty : (toChars value).isEmpty = false := by simpa using toChars_ne_nil value
    have hall : (toChars value).all isDecimalDigit = true :=
      List.all_eq_true.2 fun b hb => isDecimalDigit_of_mem_toChars hb
    refine ⟨?_, decimalValue_toChars value⟩
    rw [isCanonicalDecimal, hempty, hall]
    rcases toChars_head value with hhead | hlength
    · simp [hhead]
    · simp [hlength]
  · rintro ⟨hcanonical, rfl⟩
    simp only [isCanonicalDecimal, Bool.and_eq_true, Bool.not_eq_true', List.isEmpty_eq_false_iff,
      List.all_eq_true, Bool.and_eq_false_iff, decide_eq_false_iff_not, not_lt] at hcanonical
    obtain ⟨⟨hne, hdigits⟩, hshort | hhead⟩ := hcanonical
    · -- one digit is its own value
      obtain ⟨b, rest, rfl⟩ := List.exists_cons_of_ne_nil hne
      obtain rfl : rest = [] := List.length_eq_zero_iff.1 (by simpa using hshort)
      by_cases hzero : b = byte '0'
      · rw [hzero]
        rfl
      · exact (toChars_decimalValue hne hdigits (by simpa using hzero)).symm
    · exact (toChars_decimalValue hne hdigits (by simpa using hhead)).symm

/-! ### Ports -/

theorem portIsWellFormed_iff (port : Bytes) : portIsWellFormed port = true ↔ PortNumber port := by
  simp only [portIsWellFormed, Bool.and_eq_true, Bool.not_eq_true', Bool.or_eq_false_iff,
    List.isEmpty_eq_false_iff, decide_eq_false_iff_not, decide_eq_true_eq, List.all_eq_true,
    beq_eq_false_iff_ne]
  constructor
  · rintro ⟨⟨⟨⟨hne, -⟩, hhead⟩, hdigits⟩, hle⟩
    have hport := toChars_decimalValue hne hdigits hhead
    refine ⟨decimalValue port, Nat.pos_of_ne_zero fun hzero => ?_, hle, hport.symm⟩
    rw [hzero] at hport
    rw [← hport] at hhead
    exact hhead rfl
  · rintro ⟨number, hpos, hle, rfl⟩
    have hlength : (toChars number).length ≤ 5 := length_toChars_le (by decide) (by omega)
    -- five digits are enough for 65535
    refine ⟨⟨⟨⟨toChars_ne_nil number, by omega⟩, fun hzero => ?_⟩,
      fun b hb => isDecimalDigit_of_mem_toChars hb⟩, by rwa [decimalValue_toChars]⟩
    rcases toChars_head number with hhead | hone
    · exact hhead hzero
    · -- the only numeral that begins with a zero is that of zero
      obtain ⟨b, hb⟩ := List.length_eq_one_iff.1 hone
      rw [hb] at hzero
      have hvalue := decimalValue_toChars number
      rw [hb, Option.some.inj hzero] at hvalue
      exact hpos.ne hvalue

/-! ### Registered names -/

theorem nameByte_iff {b : UInt8} (hb : b ≠ byte '.') :
    (isAlphanumeric b || (ascii "-._~").contains b) = true ↔ NameByte b := by
  have hcontains : (ascii "-._~").contains b = true ↔
      b = byte '-' ∨ b = byte '.' ∨ b = byte '_' ∨ b = byte '~' := by
    simp [ascii]
  simp only [Bool.or_eq_true, hcontains, hb, false_or, isAlphanumeric, Bool.and_eq_true,
    decide_eq_true_eq, NameByte]
  tauto

/-- A label holds none of the bytes that an authority is cut at. -/
theorem Grammar.NameByte.ne {b : UInt8} (h : NameByte b) :
    b ≠ byte '.' ∧ b ≠ byte ':' ∧ b ≠ byte '@' ∧ b ≠ byte '[' := by
  refine ⟨?_, ?_, ?_, ?_⟩ <;>
    (rintro rfl
     revert h
     unfold NameByte
     decide)

theorem Grammar.Label.dot_notMem {label : Bytes} (h : Label label) : byte '.' ∉ label :=
  fun hdot => (h.bytes _ hdot).ne.1 rfl

theorem label_iff {label : Bytes} (hdot : byte '.' ∉ label) :
    (!label.isEmpty && label.all fun character =>
      isAlphanumeric character || (ascii "-._~").contains character) = true ↔ Label label := by
  rw [Bool.and_eq_true, Bool.not_eq_true', List.isEmpty_eq_false_iff, List.all_eq_true]
  constructor
  · rintro ⟨hne, hall⟩
    exact ⟨hne, fun b hb => (nameByte_iff fun h => hdot (h ▸ hb)).1 (hall b hb)⟩
  · rintro ⟨hne, hbytes⟩
    exact ⟨hne, fun b hb => (nameByte_iff fun h => hdot (h ▸ hb)).2 (hbytes b hb)⟩

section

variable {labels : List Bytes}

/-- Labels with dots between them, and one at the end or not. -/
theorem regName_of_labels (hne : labels ≠ []) (h : ∀ label ∈ labels, Label label) :
    RegName ([byte '.'].intercalate labels) ∧
      RegName ([byte '.'].intercalate labels ++ [byte '.']) := by
  induction labels with
  | nil => exact absurd rfl hne
  | cons label labels ih =>
    obtain ⟨hlabel, hlabels⟩ := List.forall_mem_cons.1 h
    cases labels with
    | nil =>
      rw [List.intercalate_singleton]
      exact ⟨.label hlabel, .root hlabel⟩
    | cons next labels =>
      obtain ⟨hplain, hroot⟩ := ih (List.cons_ne_nil _ _) hlabels
      rw [List.intercalate_cons_cons, List.append_assoc, List.append_assoc, List.append_assoc]
      exact ⟨.dot hlabel hplain, .dot hlabel hroot⟩

theorem Grammar.RegName.exists_labels {host : Bytes} (h : RegName host) :
    ∃ labels, labels ≠ [] ∧ (∀ label ∈ labels, Label label) ∧
      (host = [byte '.'].intercalate labels ∨ host = [byte '.'].intercalate labels ++ [byte '.']) := by
  induction h with
  | @label label h => exact ⟨[label], by simp, by simpa using h, .inl (by simp)⟩
  | @root label h => exact ⟨[label], by simp, by simpa using h, .inr (by simp)⟩
  | @dot label rest h hrest ih =>
    obtain ⟨labels, hne, hlabels, hhost⟩ := ih
    obtain ⟨next, others, rfl⟩ := List.exists_cons_of_ne_nil hne
    refine ⟨label :: next :: others, List.cons_ne_nil _ _, List.forall_mem_cons.2 ⟨h, hlabels⟩, ?_⟩
    rw [List.intercalate_cons_cons]
    rcases hhost with rfl | rfl
    · exact .inl (by simp)
    · exact .inr (by simp)

/-- Labels do not end with a dot. -/
theorem getLast?_intercalate_ne (hne : labels ≠ []) (h : ∀ label ∈ labels, Label label) :
    ∃ b, ([byte '.'].intercalate labels).getLast? = some b ∧ b ≠ byte '.' := by
  induction labels with
  | nil => exact absurd rfl hne
  | cons label labels ih =>
    obtain ⟨hlabel, hlabels⟩ := List.forall_mem_cons.1 h
    cases labels with
    | nil =>
      rw [List.intercalate_singleton, List.getLast?_eq_getLast_of_ne_nil hlabel.ne_nil]
      exact ⟨_, rfl, (hlabel.bytes _ (List.getLast_mem hlabel.ne_nil)).ne.1⟩
    | cons next labels =>
      obtain ⟨b, hb, hdot⟩ := ih (List.cons_ne_nil _ _) hlabels
      refine ⟨b, ?_, hdot⟩
      rw [List.intercalate_cons_cons, List.getLast?_append, hb, Option.some_or]

end

/-- The loop of `registered_name_is_well_formed` over the labels. -/
theorem all_labels_iff (rest : Bytes) :
    ((rest.splitOn (byte '.')).all fun label => !label.isEmpty && label.all fun character =>
      isAlphanumeric character || (ascii "-._~").contains character) = true ↔
      ∀ label ∈ rest.splitOn (byte '.'), Label label := by
  rw [List.all_eq_true]
  exact forall₂_congr fun label hlabel => label_iff (notMem_of_mem_splitOn hlabel)

theorem registeredNameIsWellFormed_iff (host : Bytes) :
    registeredNameIsWellFormed host = true ↔ RegName host := by
  rw [registeredNameIsWellFormed, all_labels_iff]
  constructor
  · intro h
    obtain ⟨hplain, hroot⟩ := regName_of_labels (List.splitOn_ne_nil _ _) h
    rw [List.intercalate_splitOn] at hplain hroot
    -- the scanner drops a dot at the end before it cuts the text at the others
    split_ifs at hplain hroot with hdot
    · have hlast : host.getLast? = some (byte '.') := by simpa using hdot
      have hne : host ≠ [] := by
        rintro rfl
        cases hlast
      have hhost : host.dropLast ++ [byte '.'] = host := by
        rw [List.getLast?_eq_getLast_of_ne_nil hne] at hlast
        rw [← Option.some.inj hlast, List.dropLast_concat_getLast]
      rwa [hhost] at hroot
    · exact hplain
  · intro h
    obtain ⟨labels, hne, hlabels, hhost⟩ := h.exists_labels
    have hrest : (if host.getLast? == some (byte '.') then host.dropLast else host) =
        [byte '.'].intercalate labels := by
      rcases hhost with rfl | rfl
      · -- the labels do not end with a dot, so the scanner drops nothing
        obtain ⟨b, hb, hdot⟩ := getLast?_intercalate_ne hne hlabels
        rw [hb, if_neg (by simpa using hdot)]
      · rw [List.getLast?_concat, if_pos (beq_self_eq_true _), List.dropLast_concat]
    rw [hrest, List.splitOn_intercalate _ (fun label hmem => (hlabels label hmem).dot_notMem) hne]
    exact hlabels

/-- The bytes of a registered name: those of its labels, and dots. -/
theorem Grammar.RegName.mem {host : Bytes} (h : RegName host) {b : UInt8} (hb : b ∈ host) :
    b ≠ byte ':' ∧ b ≠ byte '@' ∧ b ≠ byte '[' := by
  have hdot : byte '.' ≠ byte ':' ∧ byte '.' ≠ byte '@' ∧ byte '.' ≠ byte '[' := by decide
  induction h with
  | label h => exact (h.bytes b hb).ne.2
  | root h =>
    rcases List.mem_append.1 hb with hb | hb
    · exact (h.bytes b hb).ne.2
    · exact List.mem_singleton.1 hb ▸ hdot
  | dot h hrest ih =>
    rcases List.mem_append.1 hb with hb | hb
    · exact (h.bytes b hb).ne.2
    · rcases List.mem_cons.1 hb with rfl | hb
      · exact hdot
      · exact ih hb

theorem Grammar.RegName.ne_nil {host : Bytes} (h : RegName host) : host ≠ [] := by
  cases h with
  | label h => exact h.ne_nil
  | root h => simp
  | dot h hrest => simp

/-! ### IP literals -/

/-- The scanner of an IP literal, on a text between brackets. -/
theorem ipLiteralIsWellFormed_iff {pton : InetPton} {address : Bytes}
    (hclose : byte ']' ∉ address) (hmark : byte '@' ∉ address) (hnul : 0 ∉ address) :
    ipLiteralIsWellFormed pton (byte '[' :: (address ++ [byte ']'])) = true ↔
      AddressText pton address := by
  have hshape : ((byte '[' :: (address ++ [byte ']'])).head? != some (byte '[') ||
      (byte '[' :: (address ++ [byte ']'])).getLast? != some (byte ']')) = false := by
    rw [← List.cons_append, List.getLast?_concat]
    rfl
  have hbody : ((byte '[' :: (address ++ [byte ']'])).drop 1).take
      ((byte '[' :: (address ++ [byte ']'])).length - 2) = address := by
    simp
  have htext : address.takeWhile (· != 0) = address :=
    List.takeWhile_eq_self_iff.2 fun b hb => by
      rw [bne_iff_ne]
      exact fun hzero => hnul (hzero ▸ hb)
  have hlength : (byte '[' :: (address ++ [byte ']'])).length = address.length + 2 := by simp
  -- the text has its brackets, so that what is left to check is what stands between them
  rw [ipLiteralIsWellFormed, hshape, Bool.false_or]
  dsimp only
  rw [hbody, htext, hlength]
  constructor
  · intro h
    split_ifs at h with hshort hlong
    rw [decide_eq_true_eq] at hshort
    refine ⟨fun hnil => hshort ?_, not_le.1 hlong, fun b hb => ⟨?_, ?_⟩, h⟩
    · rw [hnil, List.length_nil]
    · exact fun heq => hclose (heq ▸ hb)
    · exact fun heq => hmark (heq ▸ hb)
  · rintro ⟨hne, hlt, -, hreads⟩
    have hpos := List.length_pos_iff.2 hne
    rw [if_neg (by rw [decide_eq_true_eq]; omega), if_neg (not_le.2 hlt)]
    exact hreads

/-! ### The whole -/

variable {pton : InetPton}

/-- The tail behind an IP literal. -/
theorem portTail_iff (tail : Bytes) :
    (tail.isEmpty || (tail.head? == some (byte ':') && portIsWellFormed (tail.drop 1))) = true ↔
      tail = [] ∨ ∃ port, PortNumber port ∧ tail = byte ':' :: port := by
  cases tail with
  | nil => simp
  | cons b port =>
    rw [List.isEmpty_cons, Bool.false_or, Bool.and_eq_true, List.head?_cons, List.drop_one,
      List.tail_cons, portIsWellFormed_iff, beq_iff_eq, Option.some.injEq]
    constructor
    · rintro ⟨rfl, hport⟩
      exact .inr ⟨port, hport, rfl⟩
    · rintro (h | ⟨_, hport, h⟩)
      · cases h
      · obtain ⟨rfl, rfl⟩ := List.cons.inj h
        exact ⟨rfl, hport⟩

theorem Grammar.PortNumber.mark_notMem {port : Bytes} (h : PortNumber port) : byte '@' ∉ port := by
  obtain ⟨number, -, -, rfl⟩ := h
  exact notMem_toChars_of_not_digit (by decide) number

/-- An authority holds no user information. -/
theorem Grammar.Authority.mark_notMem {authority : Bytes} (h : Authority pton authority) :
    byte '@' ∉ authority := by
  have hhost : ∀ {host}, UriHost pton host → byte '@' ∉ host := by
    intro host hhost
    cases hhost with
    | name h => exact fun hmem => (h.mem hmem).2.1 rfl
    | literal h =>
      have hmark : byte '@' ∉ _ := fun hmem => (h.bytes _ hmem).2 rfl
      simpa using ⟨by decide, hmark, by decide⟩
  cases h with
  | host h => exact hhost h
  | port h hport =>
    rw [List.mem_append, List.mem_cons, not_or, not_or]
    exact ⟨hhost h, by decide, hport.mark_notMem⟩

/-- The scanner behind a bracket: a literal up to the first `]`, and a port or nothing behind it. -/
theorem literal_iff {authority : Bytes} (hopen : authority.head? = some (byte '['))
    (hmark : byte '@' ∉ authority) (hnul : 0 ∉ authority) :
    authorityIsWellFormed pton authority = true ↔ ∃ address tail, AddressText pton address ∧
      (tail = [] ∨ ∃ port, PortNumber port ∧ tail = byte ':' :: port) ∧
      authority = byte '[' :: (address ++ byte ']' :: tail) := by
  have hne : authority.isEmpty = false := by
    cases authority with
    | nil => cases hopen
    | cons b rest => rfl
  have hguard : (authority.isEmpty || authority.contains (byte '@')) = false := by
    rw [hne, Bool.false_or]
    simpa using hmark
  rw [authorityIsWellFormed, hguard, if_neg Bool.false_ne_true, hopen, if_pos (beq_self_eq_true _)]
  constructor
  · intro h
    cases hfind : find (byte ']') authority with
    | none =>
      rw [hfind] at h
      cases h
    | some literalEnd =>
      obtain ⟨before, tail, rfl, hclose, rfl⟩ := find_eq_some_iff.1 hfind
      rw [hfind] at h
      dsimp only at h
      -- the bracket that opens is not the one that closes
      obtain ⟨address, rfl⟩ : ∃ address, before = byte '[' :: address := by
        cases before with
        | nil => exact absurd hopen (by simp [show byte ']' ≠ byte '[' by decide])
        | cons b address => exact ⟨address, by simpa using hopen⟩
      rw [drop_succ_append_cons, Bool.and_eq_true, portTail_iff] at h
      obtain ⟨hliteral, htail⟩ := h
      rw [take_succ_append_cons, List.cons_append] at hliteral
      simp only [List.cons_append, List.mem_cons, List.mem_append, not_or] at hmark hnul hclose
      exact ⟨address, tail, (ipLiteralIsWellFormed_iff hclose.2 hmark.2.1 hnul.2.1).1 hliteral,
        htail, rfl⟩
  · rintro ⟨address, tail, haddress, htail, rfl⟩
    have hclose : byte ']' ∉ address := fun hmem => (haddress.bytes _ hmem).1 rfl
    have hfind : find (byte ']') (byte '[' :: (address ++ byte ']' :: tail)) =
        some (byte '[' :: address).length :=
      find_append_cons
        (show byte ']' ∉ byte '[' :: address by simpa using ⟨by decide, hclose⟩) tail
    have htake : (byte '[' :: (address ++ byte ']' :: tail)).take
        ((byte '[' :: address).length + 1) = byte '[' :: (address ++ [byte ']']) :=
      take_succ_append_cons (byte '[' :: address) (byte ']') tail
    have hdrop : (byte '[' :: (address ++ byte ']' :: tail)).drop
        ((byte '[' :: address).length + 1) = tail :=
      drop_succ_append_cons (byte '[' :: address) (byte ']') tail
    simp only [List.mem_cons, List.mem_append, not_or] at hmark hnul
    rw [hfind]
    dsimp only
    rw [htake, hdrop, Bool.and_eq_true, portTail_iff]
    exact ⟨(ipLiteralIsWellFormed_iff hclose hmark.2.1 hnul.2.1).2 haddress, htail⟩

/-- The scanner of a text without a bracket: a name up to the first `:`, and a port behind it. -/
theorem name_iff {authority : Bytes} (hopen : authority.head? ≠ some (byte '['))
    (hmark : byte '@' ∉ authority) :
    authorityIsWellFormed pton authority = true ↔ RegName authority ∨
      ∃ host port, RegName host ∧ PortNumber port ∧ authority = host ++ byte ':' :: port := by
  by_cases hnil : authority = []
  · subst hnil
    refine iff_of_false Bool.false_ne_true ?_
    rintro (h | ⟨host, port, -, -, h⟩)
    · exact h.ne_nil rfl
    · simp at h
  have hguard : (authority.isEmpty || authority.contains (byte '@')) = false := by
    rw [List.isEmpty_eq_false_iff.2 hnil, Bool.false_or]
    simpa using hmark
  rw [authorityIsWellFormed, hguard, if_neg Bool.false_ne_true, if_neg (by simpa using hopen)]
  cases hfind : find (byte ':') authority with
  | none =>
    dsimp only
    rw [registeredNameIsWellFormed_iff]
    refine ⟨.inl, ?_⟩
    rintro (h | ⟨host, port, -, -, rfl⟩)
    · exact h
    · exact absurd hfind (by simp)
  | some separator =>
    obtain ⟨host, port, rfl, hcolon, rfl⟩ := find_eq_some_iff.1 hfind
    dsimp only
    rw [drop_succ_append_cons, List.take_left, Bool.and_eq_true, registeredNameIsWellFormed_iff,
      portIsWellFormed_iff]
    constructor
    · rintro ⟨hhost, hport⟩
      exact .inr ⟨host, port, hhost, hport, rfl⟩
    · rintro (h | ⟨host', port', hhost, hport, heq⟩)
      · exact absurd rfl (h.mem (b := byte ':') (by simp)).1
      · obtain ⟨rfl, rfl⟩ := append_cons_inj hcolon (fun hmem => (hhost.mem hmem).1 rfl) heq
        exact ⟨hhost, hport⟩

/-- An authority is accepted iff it is one. -/
theorem authorityIsWellFormed_iff {authority : Bytes} (hnul : 0 ∉ authority) :
    authorityIsWellFormed pton authority = true ↔ Authority pton authority := by
  by_cases hmark : byte '@' ∈ authority
  · refine iff_of_false (fun h => ?_) fun h => h.mark_notMem hmark
    have hguard : (authority.isEmpty || authority.contains (byte '@')) = true := by
      simp [hmark]
    rw [authorityIsWellFormed, hguard, if_pos rfl] at h
    cases h
  by_cases hopen : authority.head? = some (byte '[')
  · rw [literal_iff hopen hmark hnul]
    constructor
    · rintro ⟨address, tail, haddress, rfl | ⟨port, hport, rfl⟩, rfl⟩
      · exact .host (.literal haddress)
      · have h := Authority.port (.literal haddress) hport
        rwa [List.cons_append, List.append_assoc] at h
    · intro h
      cases h with
      | host h =>
        cases h with
        | name h =>
          exact absurd rfl (h.mem (List.mem_of_mem_head? hopen)).2.2
        | literal h => exact ⟨_, [], h, .inl rfl, rfl⟩
      | port h hport =>
        cases h with
        | name h =>
          rw [List.head?_append_of_ne_nil _ h.ne_nil] at hopen
          exact absurd rfl (h.mem (List.mem_of_mem_head? hopen)).2.2
        | literal h =>
          refine ⟨_, _, h, .inr ⟨_, hport, rfl⟩, ?_⟩
          rw [List.cons_append, List.append_assoc]
          rfl
  · rw [name_iff hopen hmark]
    constructor
    · rintro (h | ⟨host, port, hhost, hport, rfl⟩)
      · exact .host (.name h)
      · exact .port (.name hhost) hport
    · intro h
      cases h with
      | host h =>
        cases h with
        | name h => exact .inl h
        | literal h => exact absurd rfl hopen
      | port h hport =>
        cases h with
        | name h => exact .inr ⟨_, _, h, hport, rfl⟩
        | literal h => exact absurd rfl hopen

end ErikslundHttp
