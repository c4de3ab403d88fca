import ErikslundHttp.Lib.Scan
import ErikslundHttp.Escape
import ErikslundHttp.Metrics.Registry

/-!
# The Prometheus exposition

`MetricsRegistry::prometheus` (`metrics.cpp`) writes every series of the registry on a line of its
own, below the `# HELP` and `# TYPE` of its metric.  Prometheus takes a page whose sample lines all
name different series, and a line names its series by the metric and the text of the labels.

* `prometheus_eq_lines`, `sampleKeys_perm`: the lines of the page are the samples of the registry,
  and no two samples are of one series (`MetricsRegistry.distinct_run`).
* `renderLabels_eq_iff`: the text of labels is what is left of them after the escape: two texts are
  equal exactly when the labels are equal once the bytes that a label cannot hold are replaced.
* `exposition_names_each_series_once_iff`: so two series that differ only in such bytes have the
  same line, and no others have.
-/

namespace ErikslundHttp

variable {ρ : Type}

/-! ### The text of labels -/

/-- Labels in braces, with commas between them. -/
def braced (spell : Bytes × Bytes → Bytes) : Labels → Bytes
  | [] => []
  | label :: rest =>
    ascii "\x7b" ++ spell label ++ rest.flatMap (fun label => ascii "," ++ spell label) ++
      ascii "\x7d"

/-- A label with its value in quotes. -/
def renderLabel (label : Bytes × Bytes) : Bytes :=
  label.1 ++ ascii "=\"" ++ prometheusLabelEscape label.2 ++ ascii "\""

/-- `render_labels`. -/
def renderLabels (labels : Labels) : Bytes := braced renderLabel labels

/-- The label once the bytes that it cannot hold are replaced. -/
def sanitizedLabel (label : Bytes × Bytes) : Bytes × Bytes := (label.1, sanitized label.2)

/-- The labels as they can be read back. -/
def sanitizedLabels (labels : Labels) : Labels := labels.map sanitizedLabel

/-- A label of the format, whose value can be any text. -/
def quotedLabel (label : Bytes × Bytes) : Bytes :=
  label.1 ++ byte '=' :: byte '"' :: (label.2.flatMap escapeLabelByte ++ [byte '"'])

theorem renderLabel_eq (label : Bytes × Bytes) :
    renderLabel label = quotedLabel (sanitizedLabel label) := by
  rw [renderLabel, prometheusLabelEscape_eq]
  simp only [List.append_assoc]
  rfl

/-- What is written is the sanitized labels. -/
theorem renderLabels_eq (labels : Labels) :
    renderLabels labels = braced quotedLabel (sanitizedLabels labels) := by
  cases labels with
  | nil => rfl
  | cons label labels =>
    simp [renderLabels, braced, sanitizedLabels, renderLabel_eq, List.flatMap_map]

theorem isIdentifierCharacter_of_mem {name : Bytes} (h : isValidIdentifier name = true) :
    ∀ b ∈ name, isIdentifierCharacter b = true := by
  cases name with
  | nil => cases h
  | cons first name =>
    simp only [isValidIdentifier, Bool.and_eq_true, List.all_eq_true] at h
    exact h.2

theorem notMem_of_isValidIdentifier {name : Bytes} (h : isValidIdentifier name = true) {b : UInt8}
    (hb : isIdentifierCharacter b = false) : b ∉ name := fun hmem =>
  Bool.false_ne_true (hb.symm.trans (isIdentifierCharacter_of_mem h b hmem))

/-- A label can be read off the start of a text. -/
theorem quotedLabel_append_inj {label label' : Bytes × Bytes} {after after' : Bytes}
    (hname : isValidIdentifier label.1 = true) (hname' : isValidIdentifier label'.1 = true)
    (h : quotedLabel label ++ after = quotedLabel label' ++ after') :
    label = label' ∧ after = after' := by
  simp only [quotedLabel, List.append_assoc, List.cons_append, List.nil_append] at h
  -- an identifier ends before the `=`
  obtain ⟨heq, hquoted⟩ := Scan.append_cons_inj (notMem_of_isValidIdentifier hname (by decide))
    (notMem_of_isValidIdentifier hname' (by decide)) h
  have hread := readQuoted_escape label.2 after
  rw [(List.cons.inj hquoted).2, readQuoted_escape, Option.some.injEq, Prod.mk.injEq] at hread
  exact ⟨Prod.ext heq hread.1.symm, hread.2.symm⟩

/-- The labels after the first one can be read up to the brace. -/
theorem quotedRest_inj {labels labels' : Labels}
    (hnames : ∀ label ∈ labels, isValidIdentifier label.1 = true)
    (hnames' : ∀ label ∈ labels', isValidIdentifier label.1 = true)
    (h : labels.flatMap (fun label => ascii "," ++ quotedLabel label) ++ ascii "\x7d" =
      labels'.flatMap (fun label => ascii "," ++ quotedLabel label) ++ ascii "\x7d") :
    labels = labels' := by
  induction labels generalizing labels' with
  | nil =>
    cases labels' with
    | nil => rfl
    | cons label' labels' => exact absurd (List.cons.inj h).1 (by decide)
  | cons label labels ih =>
    cases labels' with
    | nil => exact absurd (List.cons.inj h).1 (by decide)
    | cons label' labels' =>
      obtain ⟨hname, hrest⟩ := List.forall_mem_cons.1 hnames
      obtain ⟨hname', hrest'⟩ := List.forall_mem_cons.1 hnames'
      simp only [List.flatMap_cons, List.append_assoc, List.append_cancel_left_eq] at h
      obtain ⟨rfl, hafter⟩ := quotedLabel_append_inj hname hname' h
      rw [ih hrest hrest' hafter]

theorem braced_quotedLabel_inj {labels labels' : Labels}
    (hnames : ∀ label ∈ labels, isValidIdentifier label.1 = true)
    (hnames' : ∀ label ∈ labels', isValidIdentifier label.1 = true)
    (h : braced quotedLabel labels = braced quotedLabel labels') : labels = labels' := by
  cases labels with
  | nil =>
    cases labels' with
    | nil => rfl
    | cons label' labels' => cases h
  | cons label labels =>
    cases labels' with
    | nil => cases h
    | cons label' labels' =>
      obtain ⟨hname, hrest⟩ := List.forall_mem_cons.1 hnames
      obtain ⟨hname', hrest'⟩ := List.forall_mem_cons.1 hnames'
      simp only [braced, List.append_assoc, List.append_cancel_left_eq] at h
      obtain ⟨rfl, hafter⟩ := quotedLabel_append_inj hname hname' h
      rw [quotedRest_inj hrest hrest' hafter]

/-- Equal texts are of labels that differ in replaced bytes only. -/
theorem renderLabels_eq_iff {labels labels' : Labels}
    (hnames : ∀ label ∈ labels, isValidIdentifier label.1 = true)
    (hnames' : ∀ label ∈ labels', isValidIdentifier label.1 = true) :
    renderLabels labels = renderLabels labels' ↔
      sanitizedLabels labels = sanitizedLabels labels' := by
  rw [renderLabels_eq, renderLabels_eq]
  refine ⟨braced_quotedLabel_inj ?_ ?_, congrArg (braced quotedLabel)⟩
  · exact List.forall_mem_map.2 hnames
  · exact List.forall_mem_map.2 hnames'

/-! ### The snapshot -/

/-- What the sources of the series hold when the page is written: a counter, and the texts that
`format_gauge_value` makes of a gauge, of what a producer returns and of zero. -/
structure MetricValues (ρ : Type) where
  counter : ℕ → ℕ
  gauge : ℕ → Bytes
  produced : ρ → Bytes
  zero : Bytes

/-- The value of a sample, from the one source that it has. -/
def MetricValues.text (values : MetricValues ρ) (sample : Sample ρ) : Bytes :=
  match sample.counter, sample.gauge, sample.producer with
  | some counter, _, _ => toChars (values.counter counter)
  | none, some gauge, _ => values.gauge gauge
  | none, none, some producer => values.produced producer
  | none, none, none => values.zero

/-- A series of a metric, with the text of its value. -/
structure MetricSeriesSnapshot where
  labels : Labels
  /-- The text of the value. -/
  value : Bytes

/-- A metric with all its series. -/
structure MetricSnapshot where
  name : Bytes
  help : Bytes
  kind : MetricKind
  series : List MetricSeriesSnapshot

/-- What `snapshot` returns. -/
abbrev MetricsSnapshot := List MetricSnapshot

/-- The comparison that orders the samples. -/
def Sample.before (left right : Sample ρ) : Prop :=
  if left.name ≠ right.name then left.name < right.name
  else renderLabels left.labels < renderLabels right.labels

instance : DecidableRel (@Sample.before ρ) := fun left right =>
  inferInstanceAs (Decidable (if left.name ≠ right.name then left.name < right.name
    else renderLabels left.labels < renderLabels right.labels))

/-- The order of samples that compare equal is left open by `std::ranges::sort`. -/
def sortedSamples (samples : List (Sample ρ)) : List (Sample ρ) :=
  samples.insertionSort fun left right => ¬ right.before left

/-- A sample joins the last metric if it has its name. -/
def addSample (values : MetricValues ρ) (snapshot : MetricsSnapshot) (sample : Sample ρ) :
    MetricsSnapshot :=
  let series : MetricSeriesSnapshot := ⟨sample.labels, values.text sample⟩
  let metric : MetricSnapshot := ⟨sample.name, sample.help, sample.kind, [series]⟩
  match snapshot.getLast? with
  | none => [metric]
  | some last =>
    if last.name ≠ sample.name then snapshot ++ [metric]
    else snapshot.dropLast ++ [{ last with series := last.series ++ [series] }]

/-- `MetricsRegistry::snapshot`. -/
def MetricsRegistry.snapshot (r : MetricsRegistry ρ) (values : MetricValues ρ) : MetricsSnapshot :=
  (sortedSamples r.samples).foldl (addSample values) []

/-! ### The page -/

/-- `escape_help`. -/
def escapeHelp (help : Bytes) : Bytes :=
  help.flatMap fun character =>
    if character = byte '\\' then ascii "\\\\"
    else if character = LF then ascii "\\n"
    else [character]

/-- `MetricsRegistry::prometheus`. -/
def MetricsRegistry.prometheus (r : MetricsRegistry ρ) (values : MetricValues ρ) : Bytes :=
  (r.snapshot values).flatMap fun metric =>
    ascii "# HELP " ++ metric.name ++ ascii " " ++ escapeHelp metric.help ++
      ascii "\n# TYPE " ++ metric.name ++ ascii " " ++ kindTypeName metric.kind ++ ascii "\n" ++
      metric.series.flatMap fun series =>
        metric.name ++ renderLabels series.labels ++ ascii " " ++ series.value ++ ascii "\n"

/-- A line of the page. -/
inductive ExpositionLine where
  | help (name text : Bytes)
  | type (name : Bytes) (kind : MetricKind)
  | sample (name labels value : Bytes)

namespace ExpositionLine

/-- The text of a line. -/
def render : ExpositionLine → Bytes
  | .help name text => ascii "# HELP " ++ name ++ ascii " " ++ escapeHelp text ++ ascii "\n"
  | .type name kind => ascii "# TYPE " ++ name ++ ascii " " ++ kindTypeName kind ++ ascii "\n"
  | .sample name labels value => name ++ labels ++ ascii " " ++ value ++ ascii "\n"

/-- The metric and the label text of a sample line. -/
def key? : ExpositionLine → Option (Bytes × Bytes)
  | .sample name labels _ => some (name, labels)
  | _ => none

end ExpositionLine

/-- The lines of a metric. -/
def MetricSnapshot.lines (metric : MetricSnapshot) : List ExpositionLine :=
  .help metric.name metric.help :: .type metric.name metric.kind ::
    metric.series.map fun series => .sample metric.name (renderLabels series.labels) series.value

/-- The lines of the page. -/
def MetricsRegistry.lines (r : MetricsRegistry ρ) (values : MetricValues ρ) :
    List ExpositionLine :=
  (r.snapshot values).flatMap MetricSnapshot.lines

namespace MetricsRegistry

theorem prometheus_eq_lines (r : MetricsRegistry ρ) (values : MetricValues ρ) :
    r.prometheus values = (r.lines values).flatMap ExpositionLine.render := by
  rw [prometheus, lines, List.flatMap_assoc]
  congr 1
  funext metric
  simp [MetricSnapshot.lines, ExpositionLine.render, List.flatMap_map, ascii]

end MetricsRegistry

/-! ### The sample lines -/

/-- What a sample line names. -/
def Sample.key (sample : Sample ρ) : Bytes × Bytes := (sample.name, renderLabels sample.labels)

/-- What the lines of a metric name. -/
def MetricSnapshot.keys (metric : MetricSnapshot) : List (Bytes × Bytes) :=
  metric.series.map fun series => (metric.name, renderLabels series.labels)

theorem MetricSnapshot.filterMap_lines (metric : MetricSnapshot) :
    metric.lines.filterMap ExpositionLine.key? = metric.keys := by
  rw [lines, List.filterMap_cons_none rfl, List.filterMap_cons_none rfl, List.filterMap_map, keys]
  exact congrFun List.filterMap_eq_map metric.series

/-- The last metric is the one of the sample, or the sample is the first of a new metric. -/
theorem addSample_cases (values : MetricValues ρ) (snapshot : MetricsSnapshot)
    (sample : Sample ρ) :
    (∃ metrics last, snapshot = metrics ++ [last] ∧ last.name = sample.name ∧
      addSample values snapshot sample = metrics ++
        [{ last with series := last.series ++ [⟨sample.labels, values.text sample⟩] }]) ∨
    (∀ last, snapshot.getLast? = some last → last.name ≠ sample.name) ∧
      addSample values snapshot sample = snapshot ++
        [⟨sample.name, sample.help, sample.kind, [⟨sample.labels, values.text sample⟩]⟩] := by
  rcases List.eq_nil_or_concat snapshot with rfl | ⟨metrics, last, rfl⟩
  · exact .inr ⟨by simp, rfl⟩
  · rw [List.concat_eq_append, addSample]
    simp only [List.getLast?_concat, List.dropLast_concat, Option.some.injEq, forall_eq']
    by_cases hname : last.name = sample.name
    · exact .inl ⟨metrics, last, rfl, hname, by simp [hname]⟩
    · exact .inr ⟨hname, by simp [hname]⟩

theorem flatMap_keys_addSample (values : MetricValues ρ) (snapshot : MetricsSnapshot)
    (sample : Sample ρ) :
    (addSample values snapshot sample).flatMap MetricSnapshot.keys =
      snapshot.flatMap MetricSnapshot.keys ++ [sample.key] := by
  obtain ⟨metrics, last, rfl, hname, hadd⟩ | ⟨-, hadd⟩ := addSample_cases values snapshot sample
  · simp [hadd, MetricSnapshot.keys, Sample.key, hname]
  · simp [hadd, MetricSnapshot.keys, Sample.key]

theorem flatMap_keys_foldl (values : MetricValues ρ) (samples : List (Sample ρ))
    (snapshot : MetricsSnapshot) :
    (samples.foldl (addSample values) snapshot).flatMap MetricSnapshot.keys =
      snapshot.flatMap MetricSnapshot.keys ++ samples.map Sample.key := by
  induction samples generalizing snapshot with
  | nil => simp
  | cons sample samples ih => simp [ih, flatMap_keys_addSample]

namespace MetricsRegistry

variable {r : MetricsRegistry ρ}

/-- The metric and the label text of every sample line. -/
def sampleKeys (r : MetricsRegistry ρ) (values : MetricValues ρ) : List (Bytes × Bytes) :=
  (r.lines values).filterMap ExpositionLine.key?

/-- The sample lines are the samples, in some order. -/
theorem sampleKeys_perm (r : MetricsRegistry ρ) (values : MetricValues ρ) :
    (r.sampleKeys values).Perm (r.samples.map Sample.key) := by
  have hkeys : r.sampleKeys values = (sortedSamples r.samples).map Sample.key := by
    rw [sampleKeys, lines, List.filterMap_flatMap]
    simp only [MetricSnapshot.filterMap_lines, snapshot, flatMap_keys_foldl]
    rfl
  rw [hkeys]
  exact (List.perm_insertionSort _ r.samples).map Sample.key

/-- Two samples of one metric have the same line exactly when their labels differ in replaced bytes
only. -/
theorem Distinct.key_eq_iff (hr : r.Distinct) {sample other : Sample ρ}
    (hsample : sample ∈ r.samples) (hother : other ∈ r.samples) :
    sample.key = other.key ↔
      sample.name = other.name ∧ sanitizedLabels sample.labels = sanitizedLabels other.labels := by
  rw [Sample.key, Sample.key, Prod.mk.injEq,
    renderLabels_eq_iff (hr.labels sample hsample).1 (hr.labels other hother).1]

/-- The series of one metric can be told apart once the bytes that a label cannot hold are
replaced. -/
def Separated (r : MetricsRegistry ρ) : Prop :=
  ∀ sample ∈ r.samples, ∀ other ∈ r.samples, sample.name = other.name →
    sanitizedLabels sample.labels = sanitizedLabels other.labels → sample.labels = other.labels

theorem Distinct.nodup_sampleKeys_iff (hr : r.Distinct) (values : MetricValues ρ) :
    (r.sampleKeys values).Nodup ↔ r.Separated := by
  have hnodup := List.Nodup.of_map Sample.series hr.series
  rw [(sampleKeys_perm r values).nodup_iff, List.nodup_map_iff_inj_on hnodup]
  constructor
  · intro h sample hsample other hother hname hlabels
    rw [h sample hsample other hother ((hr.key_eq_iff hsample hother).2 ⟨hname, hlabels⟩)]
  · intro h sample hsample other hother hkey
    obtain ⟨hname, hlabels⟩ := (hr.key_eq_iff hsample hother).1 hkey
    refine (List.nodup_map_iff_inj_on hnodup).1 hr.series sample hsample other hother ?_
    exact Prod.ext hname (h sample hsample other hother hname hlabels)

/-- **Every sample line of the page names a series of its own, exactly as long as the labels of one
metric can be told apart after the bytes that a label cannot hold are replaced.**  In any order of
calls, accepted or refused, and whatever the metrics hold. -/
theorem exposition_names_each_series_once_iff {metricPrefix : Bytes} {maxSeries : ℕ}
    (h : create metricPrefix maxSeries = .ok r) (calls : List (Call ρ)) (values : MetricValues ρ) :
    (r.run calls).prometheus values =
        ((r.run calls).lines values).flatMap ExpositionLine.render ∧
      (((r.run calls).sampleKeys values).Nodup ↔ (r.run calls).Separated) :=
  ⟨prometheus_eq_lines (r.run calls) values,
    (distinct_run (distinct_create h) calls).nodup_sampleKeys_iff values⟩

/-- A registry with nothing in it. -/
def app : MetricsRegistry Unit := { metricPrefix := ascii "app", maxSeries := 4096 }

/-- Counters of requests, by path. -/
def countPaths (paths : List Bytes) : List (Call Unit) :=
  paths.map fun path => .counter (ascii "requests") (ascii "Requests.") [(ascii "path", path)]

/-- Every counter and gauge is at zero. -/
def zeros : MetricValues Unit := ⟨fun _ => 0, fun _ => ascii "0", fun _ => ascii "0", ascii "0"⟩

instance (r : MetricsRegistry ρ) : Decidable r.Separated :=
  inferInstanceAs (Decidable (∀ sample ∈ r.samples, ∀ other ∈ r.samples, _ → _ → _))

theorem paths_name_each_series_once :
    create (ascii "app") 4096 = .ok app ∧
      ((app.run (countPaths [ascii "/a", ascii "/b"])).sampleKeys zeros).Nodup := by
  have hcreate : create (ascii "app") 4096 = .ok app := rfl
  have hseparated : (app.run (countPaths [ascii "/a", ascii "/b"])).Separated := by
    decide +kernel
  exact ⟨hcreate, (exposition_names_each_series_once_iff hcreate _ zeros).2.2 hseparated⟩

/-- Two paths that are one byte each, and both bytes are replaced. -/
theorem control_bytes_name_a_series_twice :
    create (ascii "app") 4096 = .ok app ∧
      (app.run (countPaths [[0x01], [0x02]])).samples.map Sample.series =
        [(ascii "app_requests_total", [(ascii "path", [0x01])]),
          (ascii "app_requests_total", [(ascii "path", [0x02])])] ∧
      (app.run (countPaths [[0x01], [0x02]])).sampleKeys zeros =
        List.replicate 2 (ascii "app_requests_total",
          ascii "\x7bpath=\"" ++ kReplacementCharacter ++ ascii "\"\x7d") ∧
      ¬ ((app.run (countPaths [[0x01], [0x02]])).sampleKeys zeros).Nodup := by
  refine ⟨rfl, ?_, ?_, ?_⟩ <;> decide +kernel

end MetricsRegistry

end ErikslundHttp
