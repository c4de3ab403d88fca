import ErikslundHttp.Lib.Json
import ErikslundHttp.Metrics.Reading

/-!
# The JSON export of the metrics

`snapshot_to_json` (`observability.cpp`) puts a JSON text together from literals, escaped strings and
the texts of the values, which it checks for the characters of a number only.

* `snapshotJson` is what the document is to mean: everything of the snapshot in order, its strings
  with a replacement for every byte that is not UTF-8, its values as they are spelled but for those
  that are no numbers, its kinds as `counter` and `gauge`.
* `reads_snapshotToJson`: a JSON reader finds that meaning, and the newline behind it.
* `MetricsRegistry.decode_snapshotToJson`: so it is in every state of a registry, in UTF-8.
-/

namespace ErikslundHttp

open Utf8 Json

variable {ρ φ : Type}

/-! ### The text -/

/-- The labels as the members of an object. -/
def labelsToJson (labels : Labels) : Bytes :=
  ascii "\x7b" ++
    (ascii ",").intercalate (labels.map fun label =>
      ascii "\"" ++ jsonEscape label.1 ++ ascii "\":\"" ++ jsonEscape label.2 ++ ascii "\"") ++
    ascii "\x7d"

/-- The characters that `value_to_json` lets through. -/
def isNumberCharacter (character : UInt8) : Bool :=
  byte '0' ≤ character && character ≤ byte '9' || character == byte '-' || character == byte '.' ||
    character == byte 'e' || character == byte 'E' || character == byte '+'

/-- A value that is no JSON number becomes `null`. -/
def valueToJson (token : Bytes) : Bytes :=
  if token.isEmpty || (ascii "+").isPrefixOf token then ascii "null"
  else if token.all isNumberCharacter then token
  else ascii "null"

/-- A series with its labels and its value. -/
def seriesToJson (entry : MetricSeriesSnapshot) : Bytes :=
  ascii "\x7b\"labels\":" ++ labelsToJson entry.labels ++ ascii ",\"value\":" ++
    valueToJson entry.value ++ ascii "\x7d"

/-- A metric; the kind is one of two words, which need no escape. -/
def metricToJson (metric : MetricSnapshot) : Bytes :=
  ascii "\x7b\"name\":\"" ++ jsonEscape metric.name ++ ascii "\",\"type\":\"" ++
    (if metric.kind = .counter then ascii "counter" else ascii "gauge") ++
    ascii "\",\"help\":\"" ++ jsonEscape metric.help ++
    ascii "\",\"series\":[" ++ (ascii ",").intercalate (metric.series.map seriesToJson) ++
    ascii "]\x7d"

/-- The document and its newline. -/
def snapshotToJson (metricPrefix : Bytes) (snapshot : MetricsSnapshot) : Bytes :=
  ascii "\x7b\"prefix\":\"" ++ jsonEscape metricPrefix ++ ascii "\",\"metrics\":[" ++
    (ascii ",").intercalate (snapshot.map metricToJson) ++ ascii "]\x7d\n"

/-! ### What the text means -/

/-- The labels, in order. -/
def labelsJson (labels : Labels) : Json :=
  .object (labels.map fun label => (wellFormed label.1, .string (wellFormed label.2)))

/-- The number that the value spells, or nothing if it is none. -/
def valueJson (value : Bytes) : Json :=
  if value ∈ [kNotANumberText, kPositiveInfinityText, kNegativeInfinityText] then .null
  else .number value

/-- What an entry of the array of series means. -/
def seriesJson (entry : MetricSeriesSnapshot) : Json :=
  .object [(ascii "labels", labelsJson entry.labels), (ascii "value", valueJson entry.value)]

/-- The kind in the words of the document. -/
def kindJson : MetricKind → Json
  | .counter => .string (ascii "counter")
  | .gauge => .string (ascii "gauge")

/-- A metric with its kind and its series. -/
def metricJson (metric : MetricSnapshot) : Json :=
  .object [(ascii "name", .string (wellFormed metric.name)),
    (ascii "type", kindJson metric.kind),
    (ascii "help", .string (wellFormed metric.help)),
    (ascii "series", .array (metric.series.map seriesJson))]

/-- What the whole document means. -/
def snapshotJson (metricPrefix : Bytes) (snapshot : MetricsSnapshot) : Json :=
  .object [(ascii "prefix", .string (wellFormed metricPrefix)),
    (ascii "metrics", .array (snapshot.map metricJson))]

/-! ### Strings -/

theorem unitDigit_lowerHexDigit {d : ℕ} (h : d < 16) :
    unitDigit (kLowerHexDigits.getD d 0) = some d := by
  interval_cases d <;> rfl

/-- An escaped byte is read back. -/
theorem readsString_escapeJsonByte {spelled text : Bytes} (h : ReadsString spelled text)
    (b : UInt8) : ReadsString (escapeJsonByte b ++ spelled) (b :: text) := by
  unfold escapeJsonByte
  split_ifs with hescaped hcontrol
  · refine h.cons_escaped [b] [b] fun rest => ?_
    rcases hescaped with rfl | rfl <;> rfl
  · refine h.cons_escaped (ascii "u00" ++ [kLowerHexDigits.getD (b.toNat / 16) 0,
      kLowerHexDigits.getD (b.toNat % 16) 0]) [b] fun rest => ?_
    have hlow : b.toNat < 0x20 := UInt8.lt_iff_toNat_lt.1 hcontrol
    exact readEscape_ascii (b := byte '0') (w := 0) (x := 0) rfl rfl
      (unitDigit_lowerHexDigit (by omega)) (unitDigit_lowerHexDigit (by omega)) (by omega)
      (by omega) rest
  · rw [not_or] at hescaped
    exact h.cons_plain hescaped.1 hescaped.2 hcontrol

theorem readsString_jsonEscape (input : Bytes) :
    ReadsString (jsonEscape input) (wellFormed input) := by
  rw [jsonEscape_eq]
  induction wellFormed input with
  | nil => exact readsString_nil
  | cons b text ih => exact readsString_escapeJsonByte ih b

/-- A text that needs no escape. -/
theorem readsString_literal (text : Bytes)
    (h : (text.all fun b => b ≠ 0x22 ∧ b ≠ 0x5C ∧ ¬ b < 0x20) = true) : ReadsString text text :=
  readsString_plain (by simpa using h)

/-- A member whose name needs no escape. -/
theorem readsMember_key (key : Bytes)
    (hkey : (key.all fun b => b ≠ 0x22 ∧ b ≠ 0x5C ∧ ¬ b < 0x20) = true)
    {text : Bytes} {value : Json} (h : Reads text value) :
    ReadsMember (byte '"' :: (key ++ byte '"' :: byte ':' :: text)) (key, value) :=
  ⟨key, text, rfl, readsString_literal key hkey, h⟩

theorem reads_jsonEscape (input : Bytes) :
    Reads (byte '"' :: (jsonEscape input ++ [byte '"'])) (.string (wellFormed input)) :=
  reads_string (readsString_jsonEscape input)

/-! ### Values -/

/-- The filter of `value_to_json` lets the characters of a number through. -/
theorem isNumberCharacter_eq (b : UInt8) : isNumberCharacter b = isNumberByte b := by
  show (isDigit b || b == 0x2D || b == 0x2E || b == 0x65 || b == 0x45 || b == 0x2B) =
    (isDigit b || b == 0x2B || b == 0x2D || b == 0x2E || b == 0x45 || b == 0x65)
  ac_rfl

/-- The value of a series: a number, or what stands for the `double`s that are none. -/
def IsValue (value : Bytes) : Prop :=
  isNumber value = true ∨
    value ∈ [kNotANumberText, kPositiveInfinityText, kNegativeInfinityText]

theorem valueToJson_of_isNumber {value : Bytes} (h : isNumber value = true) :
    valueToJson value = value := by
  have hall : value.all isNumberCharacter = true := by
    rw [List.all_eq_true]
    intro b hb
    rw [isNumberCharacter_eq, isNumberByte_of_isNumber h b hb]
  cases value with
  | nil => cases h
  | cons b rest =>
    -- no number begins with a plus sign
    have hplus : b ≠ byte '+' := by
      rintro rfl
      cases h
    have hprefix : (ascii "+").isPrefixOf (b :: rest) = false := by
      show (byte '+' == b && [].isPrefixOf rest) = false
      rw [beq_false_of_ne hplus.symm, Bool.false_and]
    simp [valueToJson, hprefix, hall]

theorem reads_valueToJson {value : Bytes} (h : IsValue value) :
    Reads (valueToJson value) (valueJson value) := by
  rcases h with hnumber | hmem
  · have hne : value ∉ [kNotANumberText, kPositiveInfinityText, kNegativeInfinityText] := by
      simp only [List.mem_cons, List.not_mem_nil, or_false]
      rintro (rfl | rfl | rfl) <;> cases hnumber
    rw [valueToJson_of_isNumber hnumber, valueJson, if_neg hne]
    exact reads_number hnumber
  · have hnull : valueToJson value = ascii "null" := by
      simp only [List.mem_cons, List.not_mem_nil, or_false] at hmem
      obtain rfl | rfl | rfl := hmem <;> rfl
    rw [hnull, valueJson, if_pos hmem]
    exact reads_null

/-! ### The parts of the text -/

theorem reads_labelsToJson (labels : Labels) : Reads (labelsToJson labels) (labelsJson labels) := by
  -- each label, as it is written and as it is read
  let members := labels.map fun label =>
    (byte '"' :: (jsonEscape label.1 ++ byte '"' :: byte ':' ::
      (byte '"' :: (jsonEscape label.2 ++ [byte '"']))),
      (wellFormed label.1, Json.string (wellFormed label.2)))
  have hread : Reads (byte '\x7b' :: ([byte ','].intercalate (members.map Prod.fst) ++
      [byte '\x7d'])) (.object (members.map Prod.snd)) := by
    refine reads_object members (List.forall_mem_map.2 fun label _ => ?_)
    exact ⟨_, _, rfl, readsString_jsonEscape label.1, reads_jsonEscape label.2⟩
  simpa [members, labelsToJson, labelsJson, ascii, Function.comp_def] using hread

theorem reads_seriesToJson {entry : MetricSeriesSnapshot} (h : IsValue entry.value) :
    Reads (seriesToJson entry) (seriesJson entry) := by
  have hlabels := readsMember_key (ascii "labels") (by decide) (reads_labelsToJson entry.labels)
  have hvalue := readsMember_key (ascii "value") (by decide) (reads_valueToJson h)
  have hread : Reads (byte '\x7b' :: ([byte ','].intercalate
      [byte '"' :: (ascii "labels" ++ byte '"' :: byte ':' :: labelsToJson entry.labels),
        byte '"' :: (ascii "value" ++ byte '"' :: byte ':' :: valueToJson entry.value)] ++
      [byte '\x7d'])) (seriesJson entry) :=
    reads_object [(_, _), (_, _)]
      (List.forall_mem_cons.2 ⟨hlabels, List.forall_mem_singleton.2 hvalue⟩)
  simpa [seriesToJson, ascii] using hread

/-- The kind is read as it is meant. -/
theorem reads_kind (kind : MetricKind) :
    Reads (byte '"' :: ((if kind = .counter then ascii "counter" else ascii "gauge") ++ [byte '"']))
      (kindJson kind) := by
  cases kind with
  | counter =>
    rw [if_pos rfl]
    exact reads_string (readsString_literal _ (by decide))
  | gauge =>
    rw [if_neg (by decide)]
    exact reads_string (readsString_literal _ (by decide))

theorem reads_metricToJson {metric : MetricSnapshot}
    (h : ∀ entry ∈ metric.series, IsValue entry.value) :
    Reads (metricToJson metric) (metricJson metric) := by
  have hname := readsMember_key (ascii "name") (by decide) (reads_jsonEscape metric.name)
  have hkind := readsMember_key (ascii "type") (by decide) (reads_kind metric.kind)
  have hhelp := readsMember_key (ascii "help") (by decide) (reads_jsonEscape metric.help)
  have hseries := readsMember_key (ascii "series") (by decide)
    (reads_array (metric.series.map fun entry => (seriesToJson entry, seriesJson entry))
      (List.forall_mem_map.2 fun entry hentry => reads_seriesToJson (h entry hentry)))
  have hread := reads_object [(_, _), (_, _), (_, _), (_, _)]
    (List.forall_mem_cons.2 ⟨hname, List.forall_mem_cons.2 ⟨hkind, List.forall_mem_cons.2
      ⟨hhelp, List.forall_mem_singleton.2 hseries⟩⟩⟩)
  have htext : metricToJson metric = byte '\x7b' :: ([byte ','].intercalate
      [byte '"' :: (ascii "name" ++ byte '"' :: byte ':' ::
          (byte '"' :: (jsonEscape metric.name ++ [byte '"']))),
        byte '"' :: (ascii "type" ++ byte '"' :: byte ':' ::
          (byte '"' :: ((if metric.kind = .counter then ascii "counter" else ascii "gauge") ++
            [byte '"']))),
        byte '"' :: (ascii "help" ++ byte '"' :: byte ':' ::
          (byte '"' :: (jsonEscape metric.help ++ [byte '"']))),
        byte '"' :: (ascii "series" ++ byte '"' :: byte ':' ::
          (byte '[' :: ([byte ','].intercalate (metric.series.map seriesToJson) ++ [byte ']'])))] ++
      [byte '\x7d']) := by
    simp [metricToJson, ascii]
  rw [List.map_map, List.map_map] at hread
  rw [htext]
  exact hread

theorem reads_snapshotToJson (metricPrefix : Bytes) {snapshot : MetricsSnapshot}
    (h : ∀ metric ∈ snapshot, ∀ entry ∈ metric.series, IsValue entry.value) :
    ∃ text, snapshotToJson metricPrefix snapshot = text ++ [LF] ∧
      Reads text (snapshotJson metricPrefix snapshot) := by
  have hname := readsMember_key (ascii "prefix") (by decide) (reads_jsonEscape metricPrefix)
  have hmetrics := readsMember_key (ascii "metrics") (by decide)
    (reads_array (snapshot.map fun metric => (metricToJson metric, metricJson metric))
      (List.forall_mem_map.2 fun metric hmetric => reads_metricToJson (h metric hmetric)))
  have hread := reads_object [(_, _), (_, _)]
    (List.forall_mem_cons.2 ⟨hname, List.forall_mem_singleton.2 hmetrics⟩)
  rw [List.map_map, List.map_map] at hread
  refine ⟨byte '\x7b' :: ([byte ','].intercalate
    [byte '"' :: (ascii "prefix" ++ byte '"' :: byte ':' ::
        (byte '"' :: (jsonEscape metricPrefix ++ [byte '"']))),
      byte '"' :: (ascii "metrics" ++ byte '"' :: byte ':' ::
        (byte '[' :: ([byte ','].intercalate (snapshot.map metricToJson) ++ [byte ']'])))] ++
    [byte '\x7d']), ?_, hread⟩
  simp [snapshotToJson, ascii]
  rfl

/-! ### UTF-8 -/

theorem isUtf8_jsonEscape (input : Bytes) : IsUtf8 (jsonEscape input) := by
  have hdigit : ∀ d, d < 16 → (kLowerHexDigits.getD d 0).toNat < 0x80 := by decide
  induction input using jsonEscape.induct with
  | case1 => rw [jsonEscape]; exact isUtf8_nil
  | case2 character rest hescaped ih =>
    rw [jsonEscape, if_pos hescaped]
    refine (isUtf8_of_all ?_).append ih
    rcases hescaped with rfl | rfl <;> decide
  | case3 character rest hescaped hcontrol ih =>
    have hlow : character.toNat < 0x20 := UInt8.lt_iff_toNat_lt.1 hcontrol
    rw [jsonEscape, if_neg hescaped, if_pos hcontrol]
    refine ((isUtf8_of_all (by decide)).append (isUtf8_of_ascii ?_)).append ih
    simpa using ⟨hdigit _ (by omega), hdigit _ (by omega)⟩
  | case4 character rest hescaped hcontrol result ih =>
    rw [jsonEscape, if_neg hescaped, if_neg hcontrol]
    exact (isSequence_appendUtf8OrReplacement character rest).isUtf8.append ih

theorem isUtf8_intercalate {texts : List Bytes} (h : ∀ text ∈ texts, IsUtf8 text) :
    IsUtf8 ((ascii ",").intercalate texts) := by
  cases texts with
  | nil => exact isUtf8_nil
  | cons text texts =>
    obtain ⟨htext, htexts⟩ := List.forall_mem_cons.1 h
    have hcomma : IsUtf8 [byte ','] := isUtf8_of_all (by decide)
    exact Reader.intercalate_cons (byte ',') text texts ▸
      htext.append (isUtf8_flatMap fun text hmem => hcomma.append (htexts text hmem))

theorem isUtf8_valueToJson (token : Bytes) : IsUtf8 (valueToJson token) := by
  unfold valueToJson
  split_ifs with hempty hall
  · exact isUtf8_of_all (by decide)
  · refine isUtf8_of_ascii fun b hb => ?_
    have hcharacter := List.all_eq_true.1 hall b hb
    simp only [isNumberCharacter, Bool.or_eq_true, Bool.and_eq_true, decide_eq_true_eq,
      beq_iff_eq] at hcharacter
    obtain ((((⟨-, hb⟩ | rfl) | rfl) | rfl) | rfl) | rfl := hcharacter
    · exact lt_of_le_of_lt (UInt8.le_iff_toNat_le.1 hb) (by decide)
    all_goals decide
  · exact isUtf8_of_all (by decide)

theorem isUtf8_labelsToJson (labels : Labels) : IsUtf8 (labelsToJson labels) := by
  refine ((isUtf8_of_all (by decide)).append (isUtf8_intercalate ?_)).append
    (isUtf8_of_all (by decide))
  refine List.forall_mem_map.2 fun label _ => ?_
  exact ((((isUtf8_of_all (by decide)).append (isUtf8_jsonEscape label.1)).append
    (isUtf8_of_all (by decide))).append (isUtf8_jsonEscape label.2)).append
    (isUtf8_of_all (by decide))

theorem isUtf8_seriesToJson (entry : MetricSeriesSnapshot) : IsUtf8 (seriesToJson entry) :=
  ((((isUtf8_of_all (by decide)).append (isUtf8_labelsToJson entry.labels)).append
    (isUtf8_of_all (by decide))).append (isUtf8_valueToJson entry.value)).append
    (isUtf8_of_all (by decide))

theorem isUtf8_metricToJson (metric : MetricSnapshot) : IsUtf8 (metricToJson metric) := by
  have hkind : IsUtf8 (if metric.kind = .counter then ascii "counter" else ascii "gauge") :=
    isUtf8_of_all (by cases metric.kind <;> decide)
  have hseries : IsUtf8 ((ascii ",").intercalate (metric.series.map seriesToJson)) :=
    isUtf8_intercalate (List.forall_mem_map.2 fun entry _ => isUtf8_seriesToJson entry)
  exact ((((((((isUtf8_of_all (by decide)).append (isUtf8_jsonEscape metric.name)).append
    (isUtf8_of_all (by decide))).append hkind).append (isUtf8_of_all (by decide))).append
    (isUtf8_jsonEscape metric.help)).append (isUtf8_of_all (by decide))).append hseries).append
    (isUtf8_of_all (by decide))

theorem isUtf8_snapshotToJson (metricPrefix : Bytes) (snapshot : MetricsSnapshot) :
    IsUtf8 (snapshotToJson metricPrefix snapshot) :=
  ((((isUtf8_of_all (by decide)).append (isUtf8_jsonEscape metricPrefix)).append
    (isUtf8_of_all (by decide))).append (isUtf8_intercalate (List.forall_mem_map.2
      fun metric _ => isUtf8_metricToJson metric))).append (isUtf8_of_all (by decide))

/-! ### The values of a snapshot -/

theorem isNumber_toChars (value : ℕ) : isNumber (toChars value) = true := by
  apply isNumber_of_isInteger
  have hdigits : (toChars value).all isDigit = true :=
    List.all_eq_true.2 fun b hb => isDecimalDigit_of_mem_toChars hb
  have hempty : (toChars value).isEmpty = false := by simpa using toChars_ne_nil value
  have hhead := toChars_head value
  simp only [isInteger, isDigits, hdigits, hempty, Bool.or_eq_true, bne_iff_ne, beq_iff_eq,
    Bool.not_false, Bool.and_self, Bool.true_and]
  exact hhead

theorem isValue_formatGaugeValue {format : φ → Bytes}
    (h : ∀ value, isNumber (format value) = true) (value : Double φ) :
    IsValue (formatGaugeValue format value) := by
  cases value with
  | notANumber => exact .inr (by simp [formatGaugeValue])
  | infinity negative => exact .inr (by cases negative <;> simp [formatGaugeValue])
  | finite value => exact .inl (h value)

theorem isValue_text {format : φ → Bytes} (h : ∀ value, isNumber (format value) = true)
    (readings : Readings ρ φ) (sample : Sample ρ) :
    IsValue ((readings.values format).text sample) := by
  unfold MetricValues.text
  split
  · exact .inl (isNumber_toChars _)
  · exact isValue_formatGaugeValue h _
  · exact isValue_formatGaugeValue h _
  · exact isValue_formatGaugeValue h (.finite readings.zero)

namespace MetricsRegistry

/-- **The export is one JSON text of the snapshot.**  In every state of the registry, and whatever
the metrics hold, the text is UTF-8 and decodes to the prefix and to the metrics in order, with their
kinds, helps, series, labels and values.  Of every string only the bytes that are not UTF-8 are
replaced. -/
theorem decode_snapshotToJson (r : MetricsRegistry ρ) (readings : Readings ρ φ)
    {format : φ → Bytes} (hformat : ∀ value, isNumber (format value) = true)
    (metricPrefix : Bytes) :
    let snapshot := r.snapshot (readings.values format)
    IsUtf8 (snapshotToJson metricPrefix snapshot) ∧
      decode (snapshotToJson metricPrefix snapshot) = some (snapshotJson metricPrefix snapshot) ∧
      ∀ text, IsUtf8 (wellFormed text) ∧ (IsUtf8 text → wellFormed text = text) := by
  intro snapshot
  have hvalues : ∀ metric ∈ snapshot, ∀ entry ∈ metric.series, IsValue entry.value :=
    fun metric hmetric => (forall_snapshot (P := fun _ => True)
      (Q := fun entry => IsValue entry.value)
      (fun sample _ => ⟨trivial, isValue_text hformat readings sample⟩) metric hmetric).2
  obtain ⟨text, htext, hreads⟩ := reads_snapshotToJson metricPrefix hvalues
  refine ⟨isUtf8_snapshotToJson metricPrefix snapshot, ?_, fun text =>
    ⟨isUtf8_wellFormed text, wellFormed_of_isUtf8⟩⟩
  rw [htext]
  exact hreads.decode (List.forall_mem_singleton.2 rfl)

theorem path_and_depth_are_exported :
    let snapshot := (app.afterCalls pathAndDepth).snapshot (oneAndInfinity.values toChars)
    (snapshot.map fun metric => metric.series.map fun entry => valueToJson entry.value) =
        [[ascii "null"], [ascii "1"]] ∧
      decode (snapshotToJson (ascii "app") snapshot) = some (snapshotJson (ascii "app") snapshot) :=
  ⟨by decide +kernel, (decode_snapshotToJson (app.afterCalls pathAndDepth) oneAndInfinity
    isNumber_toChars (ascii "app")).2.1⟩

end MetricsRegistry

end ErikslundHttp
