import ErikslundHttp.Lib.Reader
import ErikslundHttp.Metrics.Exposition
import ErikslundHttp.Metrics.Invariant

/-!
# Reading the exposition

What `MetricsRegistry::prometheus` writes can be read back by a strict reader of the text format
(`readExposition`).

* `increasing_snapshot`: the names of the metrics increase along the page, because the samples are
  sorted by name first.
* `readExposition_prometheus`: the reader finds the metrics of the snapshot, each under its `# HELP`
  and its `# TYPE` and with all its samples together.

What cannot be read back are the bytes of a label value that the escape replaces; a text in UTF-8
without control characters has none (`sanitized_of_isUtf8`).
-/

namespace ErikslundHttp

open Utf8 Reader

variable {ρ φ : Type}

/-! ### What the sources hold -/

/-- A `double`. -/
inductive Double (φ : Type) where
  | notANumber
  | infinity (negative : Bool)
  | finite (value : φ)

/-- What stands for a value that is no number. -/
def kNotANumberText : Bytes := ascii "NaN"

/-- What stands for a value above all numbers. -/
def kPositiveInfinityText : Bytes := ascii "+Inf"

/-- What stands for one below all. -/
def kNegativeInfinityText : Bytes := ascii "-Inf"

/-- `format` is what `std::format` makes of a finite `double`. -/
def formatGaugeValue (format : φ → Bytes) : Double φ → Bytes
  | .notANumber => kNotANumberText
  | .infinity negative => if negative then kNegativeInfinityText else kPositiveInfinityText
  | .finite value => format value

/-- What the counters, the gauges and the producers give when the page is written. -/
structure Readings (ρ φ : Type) where
  counter : ℕ → ℕ
  gauge : ℕ → Double φ
  produced : ρ → Double φ
  zero : φ

/-- The texts of the readings, with one format for the finite ones. -/
def Readings.values (readings : Readings ρ φ) (format : φ → Bytes) : MetricValues ρ where
  counter := readings.counter
  gauge number := formatGaugeValue format (readings.gauge number)
  produced producer := formatGaugeValue format (readings.produced producer)
  zero := formatGaugeValue format (.finite readings.zero)

/-! ### The order of the metrics -/

theorem Sample.before_iff {left right : Sample ρ} :
    left.before right ↔ toLex left.key < toLex right.key := by
  rw [Sample.before, Prod.Lex.lt_iff]
  show _ ↔ left.name < right.name ∨ left.name = right.name ∧ _
  split_ifs with hname
  · exact ⟨.inl, fun h => h.resolve_right fun heq => hname heq.1⟩
  · rw [not_not] at hname
    exact ⟨fun h => .inr ⟨hname, h⟩, fun h => (h.resolve_left (hname ▸ lt_irrefl _)).2⟩

theorem Sample.not_before_iff {left right : Sample ρ} :
    ¬ right.before left ↔ toLex left.key ≤ toLex right.key := by
  rw [before_iff, not_lt]

instance : Std.Total fun left right : Sample ρ => ¬ right.before left := ⟨fun left right => by
  rw [Sample.not_before_iff, Sample.not_before_iff]
  exact le_total _ _⟩

instance : IsTrans (Sample ρ) fun left right => ¬ right.before left := ⟨fun a b c hab hbc => by
  rw [Sample.not_before_iff] at hab hbc ⊢
  exact hab.trans hbc⟩

/-- The samples are sorted by name. -/
theorem pairwise_sortedSamples (samples : List (Sample ρ)) :
    (sortedSamples samples).Pairwise fun left right => left.name ≤ right.name := by
  refine (List.pairwise_insertionSort (fun left right => ¬ right.before left) samples).imp ?_
  intro left right h
  rw [Sample.not_before_iff, Prod.Lex.le_iff] at h
  exact h.elim le_of_lt fun h => le_of_eq h.1

/-- The names of the metrics increase. -/
def Increasing (snapshot : MetricsSnapshot) : Prop :=
  (snapshot.map MetricSnapshot.name).Pairwise (· < ·)

theorem increasing_addSample (values : MetricValues ρ) {snapshot : MetricsSnapshot}
    {sample : Sample ρ} (hsnapshot : Increasing snapshot)
    (hle : ∀ metric ∈ snapshot, metric.name ≤ sample.name) :
    Increasing (addSample values snapshot sample) ∧
      ∀ metric ∈ addSample values snapshot sample, metric.name ≤ sample.name := by
  obtain ⟨metrics, last, rfl, hname, hadd⟩ | ⟨hlast, hadd⟩ :=
    addSample_cases values snapshot sample
  · rw [hadd]
    constructor
    · simpa [Increasing] using hsnapshot
    · simpa [or_imp, forall_and] using hle
  · rw [hadd]
    constructor
    · rw [Increasing, List.map_append, List.pairwise_append]
      refine ⟨hsnapshot, List.pairwise_singleton _ _, ?_⟩
      rintro name hmem other hother
      obtain ⟨metric, hmetric, rfl⟩ := List.mem_map.1 hmem
      rw [List.mem_singleton.1 hother]
      -- a metric before the last has a smaller name than the last
      rcases List.eq_nil_or_concat snapshot with rfl | ⟨metrics, last, rfl⟩
      · exact absurd hmetric List.not_mem_nil
      · rw [List.concat_eq_append] at hsnapshot hlast hle hmetric
        have hlt : last.name < sample.name :=
          lt_of_le_of_ne (hle last (by simp)) (hlast last List.getLast?_concat)
        rcases List.mem_append.1 hmetric with hmetric | hmetric
        · rw [Increasing, List.map_append, List.pairwise_append] at hsnapshot
          exact (hsnapshot.2.2 _ (List.mem_map_of_mem hmetric) _ (by simp)).trans hlt
        · rwa [List.mem_singleton.1 hmetric]
    · exact List.forall_mem_append.2 ⟨hle, by simp⟩

theorem increasing_foldl (values : MetricValues ρ) {samples : List (Sample ρ)}
    {snapshot : MetricsSnapshot} (hsorted : samples.Pairwise fun left right => left.name ≤ right.name)
    (hsnapshot : Increasing snapshot)
    (hle : ∀ metric ∈ snapshot, ∀ sample ∈ samples, metric.name ≤ sample.name) :
    Increasing (samples.foldl (addSample values) snapshot) := by
  induction samples generalizing snapshot with
  | nil => exact hsnapshot
  | cons sample samples ih =>
    obtain ⟨hfirst, hrest⟩ := List.pairwise_cons.1 hsorted
    obtain ⟨hadd, hadded⟩ := increasing_addSample values hsnapshot
      fun metric hmetric => hle metric hmetric sample List.mem_cons_self
    exact ih hrest hadd fun metric hmetric other hother =>
      (hadded metric hmetric).trans (hfirst other hother)

/-- The names of the metrics of a snapshot increase. -/
theorem increasing_snapshot (r : MetricsRegistry ρ) (values : MetricValues ρ) :
    Increasing (r.snapshot values) :=
  increasing_foldl values (pairwise_sortedSamples r.samples) List.Pairwise.nil (by simp)

/-! ### What a snapshot holds -/

theorem forall_foldl_addSample {P : Bytes → Prop} {Q : MetricSeriesSnapshot → Prop}
    {values : MetricValues ρ} {samples : List (Sample ρ)}
    (hsamples : ∀ sample ∈ samples, P sample.name ∧ Q ⟨sample.labels, values.text sample⟩)
    {snapshot : MetricsSnapshot}
    (h : ∀ metric ∈ snapshot, P metric.name ∧ ∀ series ∈ metric.series, Q series) :
    ∀ metric ∈ samples.foldl (addSample values) snapshot,
      P metric.name ∧ ∀ series ∈ metric.series, Q series := by
  induction samples generalizing snapshot with
  | nil => exact h
  | cons sample samples ih =>
    obtain ⟨⟨hname, hseries⟩, hsamples⟩ := List.forall_mem_cons.1 hsamples
    refine ih hsamples ?_
    obtain ⟨metrics, last, rfl, -, hadd⟩ | ⟨-, hadd⟩ := addSample_cases values snapshot sample
    · obtain ⟨hmetrics, hlast⟩ := List.forall_mem_append.1 h
      rw [List.forall_mem_singleton] at hlast
      rw [hadd]
      refine List.forall_mem_append.2 ⟨hmetrics, List.forall_mem_singleton.2 ⟨hlast.1, ?_⟩⟩
      exact List.forall_mem_append.2 ⟨hlast.2, List.forall_mem_singleton.2 hseries⟩
    · rw [hadd]
      exact List.forall_mem_append.2
        ⟨h, List.forall_mem_singleton.2 ⟨hname, List.forall_mem_singleton.2 hseries⟩⟩

/-- What holds of every sample holds of the metrics and the series of the snapshot. -/
theorem forall_snapshot {P : Bytes → Prop} {Q : MetricSeriesSnapshot → Prop}
    {r : MetricsRegistry ρ} {values : MetricValues ρ}
    (h : ∀ sample ∈ r.samples, P sample.name ∧ Q ⟨sample.labels, values.text sample⟩) :
    ∀ metric ∈ r.snapshot values, P metric.name ∧ ∀ series ∈ metric.series, Q series :=
  forall_foldl_addSample (fun sample hsample => h sample ((List.mem_insertionSort _).1 hsample))
    (by simp)

/-! ### The reader -/

/-- What an escape in a help text stands for. -/
def unescapeHelp (escaped : UInt8) : Option UInt8 :=
  if escaped = byte '\\' then some (byte '\\')
  else if escaped = byte 'n' then some LF
  else none

/-- What an escape in a label stands for. -/
def unescapeLabel (escaped : UInt8) : Option UInt8 :=
  if escaped = byte '"' then some (byte '"') else unescapeHelp escaped

/-- A name of a metric or a label, as long as it goes. -/
def readName (text : Bytes) : Option (Bytes × Bytes) :=
  let (name, rest) := readWhile isIdentifierCharacter text
  if isValidIdentifier name then some (name, rest) else none

/-- A label with its value. -/
def readLabel (text : Bytes) : Option ((Bytes × Bytes) × Bytes) := do
  let (name, text) ← readName text
  let text ← expect (ascii "=\"") text
  let (value, text) ← readEscaped (byte '\\') (byte '"') unescapeLabel text
  return ((name, value), text)

/-- Labels in braces, or none. -/
def readLabels (text : Bytes) : Option (Labels × Bytes) :=
  match expect (ascii "\x7b") text with
  | none => some ([], text)
  | some text => do
    let (label, text) ← readLabel text
    let (labels, text) ← readRest readLabel (byte ',') (byte '\x7d') text.length text
    return (label :: labels, text)

/-- A line of the text format. -/
inductive PageLine where
  | help (name text : Bytes)
  | type (name : Bytes) (kind : MetricKind)
  | sample (name : Bytes) (labels : Labels) (value : Bytes)

/-- The rest of a `# HELP` line. -/
def readHelp (text : Bytes) : Option PageLine := do
  let (name, text) ← readName text
  let text ← expect (ascii " ") text
  let (help, rest) ← readEscaped (byte '\\') LF unescapeHelp text
  if rest = [] then some (.help name help) else none

/-- The rest of a `# TYPE` line. -/
def readType (text : Bytes) : Option PageLine := do
  let (name, text) ← readName text
  let text ← expect (ascii " ") text
  if text = ascii "counter\n" then some (.type name .counter)
  else if text = ascii "gauge\n" then some (.type name .gauge)
  else none

/-- A value goes up to a blank or the end of its line. -/
def isValueByte (b : UInt8) : Bool := b != space && b != LF

/-- A line that is not a comment. -/
def readSample (text : Bytes) : Option PageLine := do
  let (name, text) ← readName text
  let (labels, text) ← readLabels text
  let text ← expect (ascii " ") text
  let (value, rest) := readWhile isValueByte text
  if rest = [LF] then some (.sample name labels value) else none

/-- A line of a page, with its line feed. -/
def readLine (line : Bytes) : Option PageLine :=
  match expect (ascii "# HELP ") line with
  | some text => readHelp text
  | none =>
    match expect (ascii "# TYPE ") line with
    | some text => readType text
    | none => readSample line

/-- The samples before the first metric, with the names they are of, and the metrics: every metric
has its help first, then its type, then its samples. -/
def readMetrics : List PageLine → Option (List (Bytes × MetricSeriesSnapshot) × MetricsSnapshot)
  | [] => some ([], [])
  | .sample name labels value :: lines => do
    let (samples, metrics) ← readMetrics lines
    return ((name, ⟨labels, value⟩) :: samples, metrics)
  | .help name help :: .type name' kind :: lines => do
    let (samples, metrics) ← readMetrics lines
    if name' = name ∧ ∀ sample ∈ samples, sample.1 = name then
      return ([], ⟨name, help, kind, samples.map Prod.snd⟩ :: metrics)
    else none
  | _ => none

/-- A page: no sample comes before the first metric, and no two metrics have one name. -/
def readExposition (page : Bytes) : Option MetricsSnapshot := do
  let lines ← cutLines LF page
  let lines ← lines.mapM readLine
  let (samples, metrics) ← readMetrics lines
  if samples = [] ∧ (metrics.map MetricSnapshot.name).Nodup then some metrics else none

/-! ### What is written can be read -/

theorem readName_append {name : Bytes} (hname : isValidIdentifier name = true) (rest : Bytes)
    (hrest : ∀ b, rest.head? = some b → isIdentifierCharacter b = false) :
    readName (name ++ rest) = some (name, rest) := by
  rw [readName, readWhile_append (isIdentifierCharacter_of_mem hname) hrest]
  exact if_pos hname

theorem spells_label : Spells (byte '\\') (byte '"') unescapeLabel escapeLabelByte := by
  intro b
  unfold escapeLabelByte
  split_ifs with hescape hquote hline
  · exact .inr ⟨byte '\\', rfl, by rw [hescape]; rfl⟩
  · exact .inr ⟨byte '"', rfl, by rw [hquote]; rfl⟩
  · exact .inr ⟨byte 'n', rfl, by rw [hline]; rfl⟩
  · exact .inl ⟨rfl, hquote, hescape⟩

theorem readHelp_escapeHelp (help : Bytes) :
    readEscaped (byte '\\') LF unescapeHelp (escapeHelp help ++ [LF]) = some (help, []) := by
  refine readEscaped_flatMap (fun b => ?_) (by decide) help []
  split_ifs with hescape hline
  · exact .inr ⟨byte '\\', rfl, by rw [hescape]; rfl⟩
  · exact .inr ⟨byte 'n', rfl, by rw [hline]; rfl⟩
  · exact .inl ⟨rfl, hline, hescape⟩

theorem readLabel_quotedLabel {label : Bytes × Bytes} (h : isValidIdentifier label.1 = true)
    (rest : Bytes) : readLabel (quotedLabel label ++ rest) = some (label, rest) := by
  have hquoted : quotedLabel label ++ rest = label.1 ++ (ascii "=\"" ++
      (label.2.flatMap escapeLabelByte ++ byte '"' :: rest)) := by
    simp [quotedLabel, ascii]
  have hname := readName_append h (ascii "=\"" ++
    (label.2.flatMap escapeLabelByte ++ byte '"' :: rest)) (by rintro _ ⟨⟩; decide)
  rw [readLabel, hquoted, hname]
  simp [readEscaped_flatMap spells_label (by decide)]

theorem readLabels_braced {labels : Labels}
    (h : ∀ label ∈ labels, isValidIdentifier label.1 = true) (rest : Bytes) :
    readLabels (braced quotedLabel labels ++ space :: rest) = some (labels, space :: rest) := by
  cases labels with
  | nil => rfl
  | cons label labels =>
    obtain ⟨hlabel, hlabels⟩ := List.forall_mem_cons.1 h
    have hbraced : braced quotedLabel (label :: labels) ++ space :: rest = ascii "\x7b" ++
        (quotedLabel label ++ (labels.flatMap (fun label => byte ',' :: quotedLabel label) ++
          byte '\x7d' :: space :: rest)) := by
      simp [braced, ascii]
    have hrest : ∀ text, text = labels.flatMap (fun label => byte ',' :: quotedLabel label) ++
        byte '\x7d' :: space :: rest →
        readRest readLabel (byte ',') (byte '\x7d') text.length text =
          some (labels.map id, space :: rest) := by
      rintro _ rfl
      exact readRest_flatMap (by decide) (fun label hlabel rest _ =>
        readLabel_quotedLabel (hlabels label hlabel) rest)
        (length_lt_length_flatMap labels quotedLabel _ _ _) _
    rw [readLabels, hbraced, expect_append]
    dsimp only
    rw [readLabel_quotedLabel hlabel]
    dsimp only [Option.bind_eq_bind, Option.bind_some]
    rw [hrest _ rfl, List.map_id]
    rfl

/-- A text that the reader takes for a value of a sample. -/
def IsToken (text : Bytes) : Prop := space ∉ text ∧ LF ∉ text

/-- A metric that can be written. -/
structure MetricSnapshot.Writable (metric : MetricSnapshot) : Prop where
  name : isValidIdentifier metric.name = true
  labels : ∀ series ∈ metric.series, ∀ label ∈ series.labels, isValidIdentifier label.1 = true
  /-- A value has no blank and no line feed. -/
  values : ∀ series ∈ metric.series, IsToken series.value

theorem writable_snapshot {r : MetricsRegistry ρ} {values : MetricValues ρ}
    (hnames : ∀ sample ∈ r.samples, isValidIdentifier sample.name = true)
    (hlabels : ∀ sample ∈ r.samples, ∀ label ∈ sample.labels, isValidIdentifier label.1 = true)
    (hvalues : ∀ sample, IsToken (values.text sample)) :
    ∀ metric ∈ r.snapshot values, metric.Writable := by
  intro metric hmetric
  obtain ⟨hname, hseries⟩ := forall_snapshot (P := fun name => isValidIdentifier name = true)
    (Q := fun series => (∀ label ∈ series.labels, isValidIdentifier label.1 = true) ∧
      IsToken series.value)
    (fun sample hsample => ⟨hnames sample hsample, hlabels sample hsample, hvalues sample⟩)
    metric hmetric
  exact ⟨hname, fun series h => (hseries series h).1, fun series h => (hseries series h).2⟩

/-- The metric as the page has it. -/
def MetricSnapshot.sanitized (metric : MetricSnapshot) : MetricSnapshot :=
  { metric with series := metric.series.map fun series =>
    { series with labels := sanitizedLabels series.labels } }

/-- What the lines of a metric should be read as. -/
def MetricSnapshot.pageLines (metric : MetricSnapshot) : List PageLine :=
  .help metric.name metric.help :: .type metric.name metric.kind ::
    metric.series.map fun series =>
      .sample metric.name (sanitizedLabels series.labels) series.value

theorem readLine_help {name : Bytes} (hname : isValidIdentifier name = true) (text : Bytes) :
    readLine (ExpositionLine.help name text).render = some (.help name text) := by
  have hline : (ExpositionLine.help name text).render =
      ascii "# HELP " ++ (name ++ (ascii " " ++ (escapeHelp text ++ [LF]))) := by
    simp [ExpositionLine.render, ascii, LF, byte]
  rw [readLine, hline, expect_append]
  dsimp only
  rw [readHelp, readName_append hname _ (by rintro _ ⟨⟩; decide)]
  simp [readHelp_escapeHelp]

theorem readLine_type {name : Bytes} (hname : isValidIdentifier name = true) (kind : MetricKind) :
    readLine (ExpositionLine.type name kind).render = some (.type name kind) := by
  have hline : (ExpositionLine.type name kind).render =
      ascii "# TYPE " ++ (name ++ (ascii " " ++ (kindTypeName kind ++ [LF]))) := by
    simp [ExpositionLine.render, ascii, LF, byte]
  have hhelp : expect (ascii "# HELP ")
      (ascii "# TYPE " ++ (name ++ (ascii " " ++ (kindTypeName kind ++ [LF])))) = none := by
    rw [expect, if_neg]
    rintro ⟨rest, hrest⟩
    exact absurd (List.cons.inj (List.cons.inj (List.cons.inj hrest).2).2).1 (by decide)
  rw [readLine, hline, hhelp]
  dsimp only
  rw [expect_append]
  dsimp only
  rw [readType, readName_append hname _ (by rintro _ ⟨⟩; decide)]
  cases kind <;> rfl

theorem readLine_sample {name : Bytes} (hname : isValidIdentifier name = true) {labels : Labels}
    (hlabels : ∀ label ∈ labels, isValidIdentifier label.1 = true) {value : Bytes}
    (hvalue : IsToken value) :
    readLine (ExpositionLine.sample name (renderLabels labels) value).render =
      some (.sample name (sanitizedLabels labels) value) := by
  have hline : (ExpositionLine.sample name (renderLabels labels) value).render =
      name ++ (braced quotedLabel (sanitizedLabels labels) ++ space :: (value ++ [LF])) := by
    simp [ExpositionLine.render, renderLabels_eq, ascii, LF, space, byte]
  have hcomment : ∀ start, expect (byte '#' :: start)
      (name ++ (braced quotedLabel (sanitizedLabels labels) ++ space :: (value ++ [LF]))) = none := by
    intro start
    cases name with
    | nil => cases hname
    | cons first name =>
      refine expect_cons_of_ne (fun heq => ?_) start _
      simp only [isValidIdentifier, Bool.and_eq_true, ← heq] at hname
      exact absurd hname.1 (by decide)
  have hbytes : ∀ b ∈ value, isValueByte b = true := by
    intro b hb
    simp only [isValueByte, Bool.and_eq_true, bne_iff_ne]
    exact ⟨fun heq => hvalue.1 (heq ▸ hb), fun heq => hvalue.2 (heq ▸ hb)⟩
  have hword := readWhile_append hbytes (by rintro _ ⟨⟩; decide : ∀ b, [LF].head? = some b →
    isValueByte b = false)
  have hsanitized : ∀ label ∈ sanitizedLabels labels, isValidIdentifier label.1 = true :=
    List.forall_mem_map.2 hlabels
  have hlabels' := readLabels_braced hsanitized (value ++ [LF])
  have hvalue' : expect (ascii " ") (space :: (value ++ [LF])) = some (value ++ [LF]) :=
    expect_append (ascii " ") (value ++ [LF])
  have hhead : ∀ b, (braced quotedLabel (sanitizedLabels labels) ++
      space :: (value ++ [LF])).head? = some b → isIdentifierCharacter b = false := by
    cases labels <;> · rintro _ ⟨⟩; decide
  have hname' := readName_append hname _ hhead
  rw [readLine, hline, show ascii "# HELP " = byte '#' :: ascii " HELP " from rfl, hcomment]
  dsimp only
  rw [show ascii "# TYPE " = byte '#' :: ascii " TYPE " from rfl, hcomment]
  dsimp only
  rw [readSample, hname']
  simp [hlabels', hvalue', hword]

theorem mapM_readLine_lines {metric : MetricSnapshot} (h : metric.Writable) :
    (metric.lines.map ExpositionLine.render).mapM readLine = some metric.pageLines := by
  have hseries : (metric.series.map (ExpositionLine.render ∘ fun series =>
      .sample metric.name (renderLabels series.labels) series.value)).mapM readLine =
      some (metric.series.map fun series =>
        .sample metric.name (sanitizedLabels series.labels) series.value) :=
    mapM_map_eq_some fun series hseries =>
      readLine_sample h.name (h.labels series hseries) (h.values series hseries)
  simp only [MetricSnapshot.lines, MetricSnapshot.pageLines, List.map_cons, List.map_map,
    List.mapM_cons, readLine_help h.name, readLine_type h.name, hseries]
  rfl

theorem readMetrics_pageLines (metric : MetricSnapshot) {lines : List PageLine}
    {metrics : MetricsSnapshot} (h : readMetrics lines = some ([], metrics)) :
    readMetrics (metric.pageLines ++ lines) = some ([], metric.sanitized :: metrics) := by
  have hsamples : ∀ series : List MetricSeriesSnapshot,
      readMetrics (series.map (fun series => PageLine.sample metric.name
        (sanitizedLabels series.labels) series.value) ++ lines) =
      some (series.map fun series =>
        (metric.name, ⟨sanitizedLabels series.labels, series.value⟩), metrics) := by
    intro series
    induction series with
    | nil => exact h
    | cons series rest ih => simp [readMetrics, ih]
  simp [MetricSnapshot.pageLines, readMetrics, hsamples, MetricSnapshot.sanitized]

/-! ### Lines and metrics of a snapshot -/

theorem notMem_LF_escapeHelp (help : Bytes) : LF ∉ escapeHelp help := by
  rw [escapeHelp, List.mem_flatMap]
  rintro ⟨b, -, hb⟩
  split_ifs at hb with hescape hline
  · revert hb; decide
  · revert hb; decide
  · exact hline (List.mem_singleton.1 hb).symm

theorem notMem_LF_escapeLabel (value : Bytes) : LF ∉ prometheusLabelEscape value := by
  rw [prometheusLabelEscape_eq, List.mem_flatMap]
  rintro ⟨b, -, hb⟩
  unfold escapeLabelByte at hb
  split_ifs at hb with hescape hquote hline
  · revert hb; decide
  · revert hb; decide
  · revert hb; decide
  · exact hline (List.mem_singleton.1 hb).symm

theorem notMem_LF_renderLabels {labels : Labels}
    (h : ∀ label ∈ labels, isValidIdentifier label.1 = true) : LF ∉ renderLabels labels := by
  have hlabel : ∀ label ∈ labels, LF ∉ renderLabel label := by
    intro label hlabel
    have hname := notMem_of_isValidIdentifier (h label hlabel) (b := LF) (by decide)
    simp only [renderLabel, List.mem_append, hname, notMem_LF_escapeLabel]
    decide
  cases labels with
  | nil => exact List.not_mem_nil
  | cons label labels =>
    obtain ⟨hfirst, hrest⟩ := List.forall_mem_cons.1 hlabel
    simp only [renderLabels, braced, List.mem_append, List.mem_flatMap, hfirst]
    rintro (((hmem | hmem) | ⟨label, hlabel, hmem | hmem⟩) | hmem)
    · revert hmem; decide
    · exact hmem
    · revert hmem; decide
    · exact hrest label hlabel hmem
    · revert hmem; decide

/-- Every line of a metric has one line feed, at its end. -/
theorem MetricSnapshot.Writable.lines {metric : MetricSnapshot} (h : metric.Writable) :
    ∀ line ∈ metric.lines, ∃ text, line.render = text ++ [LF] ∧ LF ∉ text := by
  have hname := notMem_of_isValidIdentifier h.name (b := LF) (by decide)
  intro line hline
  simp only [MetricSnapshot.lines, List.mem_cons, List.mem_map] at hline
  obtain rfl | rfl | ⟨series, hseries, rfl⟩ := hline
  · refine ⟨ascii "# HELP " ++ metric.name ++ ascii " " ++ escapeHelp metric.help, rfl, ?_⟩
    simp only [List.mem_append, hname, notMem_LF_escapeHelp]
    decide
  · refine ⟨ascii "# TYPE " ++ metric.name ++ ascii " " ++ kindTypeName metric.kind, rfl, ?_⟩
    simp only [List.mem_append, hname]
    cases metric.kind <;> decide
  · refine ⟨metric.name ++ renderLabels series.labels ++ ascii " " ++ series.value, rfl, ?_⟩
    simp only [List.mem_append, hname, notMem_LF_renderLabels (h.labels series hseries),
      (h.values series hseries).2]
    decide

/-- A page that is written of such metrics is read back. -/
theorem readExposition_lines {snapshot : MetricsSnapshot}
    (hwritable : ∀ metric ∈ snapshot, metric.Writable) (hnames : Increasing snapshot) :
    readExposition ((snapshot.flatMap MetricSnapshot.lines).flatMap ExpositionLine.render) =
      some (snapshot.map MetricSnapshot.sanitized) := by
  have hcut : cutLines LF ((snapshot.flatMap MetricSnapshot.lines).flatMap ExpositionLine.render) =
      some ((snapshot.flatMap MetricSnapshot.lines).map ExpositionLine.render) := by
    refine cutLines_flatMap fun line hline => ?_
    obtain ⟨metric, hmetric, hline⟩ := List.mem_flatMap.1 hline
    exact (hwritable metric hmetric).lines line hline
  have hread : ((snapshot.flatMap MetricSnapshot.lines).map ExpositionLine.render).mapM readLine =
        some (snapshot.flatMap MetricSnapshot.pageLines) ∧
      readMetrics (snapshot.flatMap MetricSnapshot.pageLines) =
        some ([], snapshot.map MetricSnapshot.sanitized) := by
    clear hcut hnames
    induction snapshot with
    | nil => exact ⟨rfl, rfl⟩
    | cons metric snapshot ih =>
      obtain ⟨hmetric, hsnapshot⟩ := List.forall_mem_cons.1 hwritable
      obtain ⟨hlines, hmetrics⟩ := ih hsnapshot
      constructor
      · simp [mapM_readLine_lines hmetric, hlines]
      · rw [List.flatMap_cons, readMetrics_pageLines metric hmetrics, List.map_cons]
  have hnodup : ((snapshot.map MetricSnapshot.sanitized).map MetricSnapshot.name).Nodup := by
    rw [List.map_map]
    exact hnames.imp ne_of_lt
  rw [readExposition, hcut]
  dsimp only [Option.bind_eq_bind, Option.bind_some]
  rw [hread.1]
  dsimp only [Option.bind_some]
  rw [hread.2]
  exact if_pos ⟨rfl, hnodup⟩

theorem isToken_of_notMem {text : Bytes} (h : text.all isValueByte = true) : IsToken text := by
  rw [List.all_eq_true] at h
  exact ⟨fun hmem => absurd (h _ hmem) (by decide), fun hmem => absurd (h _ hmem) (by decide)⟩

theorem isToken_toChars (value : ℕ) : IsToken (toChars value) := by
  have hnot : ∀ b, isDecimalDigit b = false → b ∉ toChars value := fun b hb hmem =>
    Bool.false_ne_true (hb.symm.trans (isDecimalDigit_of_mem_toChars hmem))
  exact ⟨hnot space rfl, hnot LF rfl⟩

theorem isToken_formatGaugeValue {format : φ → Bytes} (h : ∀ value, IsToken (format value))
    (value : Double φ) : IsToken (formatGaugeValue format value) := by
  cases value with
  | notANumber => exact isToken_of_notMem rfl
  | infinity negative => cases negative <;> exact isToken_of_notMem rfl
  | finite value => exact h value

theorem isToken_text {format : φ → Bytes} (h : ∀ value, IsToken (format value))
    (readings : Readings ρ φ) (sample : Sample ρ) :
    IsToken ((readings.values format).text sample) := by
  unfold MetricValues.text
  split
  · exact isToken_toChars _
  · exact isToken_formatGaugeValue h _
  · exact isToken_formatGaugeValue h _
  · exact isToken_formatGaugeValue h (.finite readings.zero)

namespace MetricsRegistry

/-- **The page reads as the snapshot.**  After any calls, accepted or rejected, and whatever the
metrics hold, the reader finds on the page the metrics of the snapshot, in order of their names, with
their help, kind, series and values; only the label values are those that the escape leaves, which
for UTF-8 without control characters is all of them. -/
theorem readExposition_prometheus {metricPrefix : Bytes} {maxSeries : ℕ} {r : MetricsRegistry ρ}
    (h : create metricPrefix maxSeries = .ok r) (calls : List (RegistryCall ρ))
    (readings : Readings ρ φ) {format : φ → Bytes} (hformat : ∀ value, IsToken (format value)) :
    let values := readings.values format
    let snapshot := (r.afterCalls calls).snapshot values
    readExposition ((r.afterCalls calls).prometheus values) =
        some (snapshot.map MetricSnapshot.sanitized) ∧
      Increasing snapshot ∧
      ∀ text, IsUtf8 text → (∀ b ∈ text, b = LF ∨ 0x20 ≤ b ∧ b ≠ 0x7F) →
        sanitized text = text := by
  intro values snapshot
  have hincreasing : Increasing snapshot := increasing_snapshot _ values
  have hregistered := registered_run (registered_create h) (calls.map RegistryCall.toCall)
  have hdistinct := distinct_run (distinct_create h) (calls.map RegistryCall.toCall)
  rw [← afterCalls_eq] at hregistered hdistinct
  refine ⟨?_, hincreasing, fun text => sanitized_of_isUtf8⟩
  rw [prometheus_eq_lines, lines]
  refine readExposition_lines (writable_snapshot hregistered.names ?_
    (isToken_text hformat readings)) hincreasing
  exact fun sample hsample => (hdistinct.labels sample hsample).1

/-- A counter of requests for a path with all the bytes that are escaped, and a gauge. -/
def pathAndDepth : List (RegistryCall Unit) :=
  [.counter (ascii "requests") (ascii "Requests\n\\by path.") [(ascii "path", ascii "/\"a\"\n\\")],
    .gauge (ascii "depth") (ascii "Depth.") []]

/-- The counter is at one, and the gauge at infinity. -/
def oneAndInfinity : Readings Unit ℕ where
  counter _ := 1
  gauge _ := .infinity false
  produced _ := .finite 0
  zero := 0

theorem path_and_depth_are_read_back :
    create (ascii "app") 4096 = .ok app ∧
    let values := oneAndInfinity.values toChars
    let snapshot := (app.afterCalls pathAndDepth).snapshot values
    snapshot.map MetricSnapshot.name = [ascii "app_depth", ascii "app_requests_total"] ∧
      readExposition ((app.afterCalls pathAndDepth).prometheus values) =
        some (snapshot.map MetricSnapshot.sanitized) := by
  have hcreate : create (ascii "app") 4096 = .ok app := rfl
  refine ⟨hcreate, by decide +kernel, ?_⟩
  exact (readExposition_prometheus hcreate pathAndDepth oneAndInfinity isToken_toChars).1

end MetricsRegistry

end ErikslundHttp
