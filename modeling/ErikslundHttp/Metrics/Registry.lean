import Mathlib.Data.Prod.Lex
import ErikslundHttp.Lib.Result
import ErikslundHttp.Router.Basic

/-!
# The metrics registry

`MetricsRegistry` (`metrics.cpp`) hands out counters and gauges by name and labels.  A name has one
kind, and a name with a set of labels is one series: registering it again gives the metric that is
there (`counter`, `gauge`) or replaces the function that computes it (`gaugeFn`).

* `apply_cases`: a call is refused with the registry as it was, changes what is kept with a series,
  or adds one series that was not there.
* `distinct_run`: no series is registered twice, in any order of calls.

Producers are functions of the application; what is modelled of them is which one a series has, and
whether it is empty.
-/

namespace ErikslundHttp

/-- Label names and values. -/
abbrev Labels := List (Bytes × Bytes)

/-- What the `# TYPE` of a metric may be. -/
inductive MetricKind where
  | counter
  | gauge
  deriving DecidableEq, Repr

/-! ### Names -/

/-- A letter or an underscore. -/
def isIdentifierStart (character : UInt8) : Bool :=
  byte 'a' ≤ character && character ≤ byte 'z' || byte 'A' ≤ character && character ≤ byte 'Z' ||
    character == byte '_'

/-- A letter, an underscore or a digit. -/
def isIdentifierCharacter (character : UInt8) : Bool :=
  isIdentifierStart character || byte '0' ≤ character && character ≤ byte '9'

/-- The names that Prometheus takes for metrics and labels. -/
def isValidIdentifier (name : Bytes) : Bool :=
  match name with
  | [] => false
  | first :: _ => isIdentifierStart first && name.all isIdentifierCharacter

/-- The name of a metric behind the prefix of the registry. -/
def qualifiedName (metricPrefix name : Bytes) : Bytes :=
  if metricPrefix.isEmpty then name else metricPrefix ++ ascii "_" ++ name

/-- `kind_type_name`, the word of the `# TYPE` line. -/
def kindTypeName : MetricKind → Bytes
  | .counter => ascii "counter"
  | .gauge => ascii "gauge"

/-! ### The errors of the registry -/

namespace ServerError

/-- A name in the text of an error. -/
def inQuotes (text : Bytes) : Bytes := ascii "'" ++ text ++ ascii "'"

/-- The error of a prefix that is no identifier. -/
def invalidMetricPrefix (metricPrefix : Bytes) : ServerError :=
  ⟨ascii "invalid Prometheus metric prefix: " ++ inQuotes metricPrefix⟩

/-- The error of a name that is none. -/
def invalidMetricName (name : Bytes) : ServerError :=
  ⟨ascii "invalid Prometheus metric name: " ++ inQuotes name⟩

/-- The error of a label name that is none. -/
def invalidLabelName (labelName name : Bytes) : ServerError :=
  ⟨ascii "invalid Prometheus label name " ++ inQuotes labelName ++ ascii " on metric " ++
    inQuotes name⟩

/-- The error of a label name given twice. -/
def duplicateLabelName (labelName name : Bytes) : ServerError :=
  ⟨ascii "duplicate Prometheus label name " ++ inQuotes labelName ++ ascii " on metric " ++
    inQuotes name⟩

/-- The error of a name that is registered as the other kind. -/
def otherKind (fullName : Bytes) (registered kind : MetricKind) : ServerError :=
  ⟨ascii "metric " ++ inQuotes fullName ++ ascii " is already registered as a " ++
    kindTypeName registered ++ ascii ("; a metric name carries exactly one # TYPE line, so it " ++
    "cannot also be a ") ++ kindTypeName kind⟩

/-- The error of a counter whose series is there as something else. -/
def alreadyGauge (fullName : Bytes) : ServerError :=
  ⟨ascii "metric " ++ inQuotes fullName ++ ascii (" is already registered as a gauge; a name " ++
    "plus a label set names exactly one series")⟩

/-- The error of a gauge whose series is there as something else. -/
def alreadyComputed (fullName : Bytes) : ServerError :=
  ⟨ascii "metric " ++ inQuotes fullName ++
    ascii " is already registered as a counter or as a computed gauge"⟩

/-- The error of a computed gauge whose series is there as something else. -/
def alreadyStored (fullName : Bytes) : ServerError :=
  ⟨ascii "metric " ++ inQuotes fullName ++ ascii (" is already registered as a stored counter " ++
    "or gauge; a computed gauge cannot share a series with it")⟩

/-- The error of a new series in a registry that is full. -/
def seriesLimit (maxSeries : ℕ) : ServerError :=
  ⟨ascii "metric series limit of " ++ toChars maxSeries ++ ascii " reached"⟩

end ServerError

/-! ### Labels -/

/-- The loop of `require_valid_series` over the labels, after the ones before them. -/
def requireValidLabels (name : Bytes) (previous : Labels) : Labels → Except ServerError Unit
  | [] => pure ()
  | label :: rest => do
    ensure (isValidIdentifier label.1) (.invalidLabelName label.1 name)
    ensure (!previous.any fun earlier => earlier.1 == label.1) (.duplicateLabelName label.1 name)
    requireValidLabels name (previous ++ [label]) rest

/-- `require_valid_series`: the name first, then the labels in their order. -/
def requireValidSeries (name : Bytes) (labels : Labels) : Except ServerError Unit := do
  ensure (isValidIdentifier name) (.invalidMetricName name)
  requireValidLabels name [] labels

/-- The order of `std::pair<std::string, std::string>`. -/
def labelLe (a b : Bytes × Bytes) : Prop := a.1 < b.1 ∨ a.1 = b.1 ∧ a.2 ≤ b.2

instance : DecidableRel labelLe := fun a b =>
  inferInstanceAs (Decidable (a.1 < b.1 ∨ a.1 = b.1 ∧ a.2 ≤ b.2))

/-- The labels in order. -/
def validateAndSortLabels (name : Bytes) (labels : Labels) : Except ServerError Labels := do
  requireValidSeries name labels
  return labels.insertionSort labelLe

/-! ### Registration -/

/-- A series, and the number of its counter or gauge in the storage of the registry, or what
computes it; an empty `std::function` is `none`. -/
structure Sample (ρ : Type) where
  name : Bytes
  /-- What the metric is about. -/
  help : Bytes
  labels : Labels
  kind : MetricKind
  /-- The number of its counter. -/
  counter : Option ℕ
  /-- The number of its gauge. -/
  gauge : Option ℕ
  /-- Computes the value when it is asked for. -/
  producer : Option ρ

/-- The members of `MetricsRegistry`, whose counters and gauges are numbered. -/
structure MetricsRegistry (ρ : Type) where
  /-- Stands before every name. -/
  metricPrefix : Bytes
  /-- The limit of the samples. -/
  maxSeries : ℕ
  /-- The number of counters handed out. -/
  counters : ℕ := 0
  /-- The number of gauges handed out. -/
  gauges : ℕ := 0
  /-- In the order of registration. -/
  samples : List (Sample ρ) := []

variable {ρ : Type}

/-- The sample is of that name and those labels. -/
def Sample.isSeries (fullName : Bytes) (labels : Labels) (sample : Sample ρ) : Bool :=
  sample.name == fullName && sample.labels == labels

/-- `require_one_kind_per_name`. -/
def requireOneKindPerName (samples : List (Sample ρ)) (fullName : Bytes) (kind : MetricKind) :
    Except ServerError Unit :=
  match samples.find? fun sample => sample.name == fullName && sample.kind != kind with
  | some sample => .error (.otherKind fullName sample.kind kind)
  | none => pure ()

namespace MetricsRegistry

/-- The constructor. -/
def create (metricPrefix : Bytes) (maxSeries : ℕ) : Except ServerError (MetricsRegistry ρ) := do
  ensure (metricPrefix.isEmpty || isValidIdentifier metricPrefix)
    (.invalidMetricPrefix metricPrefix)
  return { metricPrefix := metricPrefix, maxSeries := maxSeries }

variable (r : MetricsRegistry ρ)

/-- `MetricsRegistry::require_room_for_series`. -/
def requireRoomForSeries : Except ServerError Unit :=
  ensure (r.samples.length < r.maxSeries) (.seriesLimit r.maxSeries)

/-- The sample of a series. -/
def find (fullName : Bytes) (labels : Labels) : Option (Sample ρ) :=
  r.samples.find? (Sample.isSeries fullName labels)

/-- A counter is named with `_total` at the end, whether or not the application says so. -/
def counterName (name : Bytes) : Bytes :=
  let fullName := qualifiedName r.metricPrefix name
  if (ascii "_total").isSuffixOf fullName then fullName else fullName ++ ascii "_total"

/-- The number of the counter, and the registry after the call. -/
def counter (name help : Bytes) (labels : Labels) :
    Except ServerError (ℕ × MetricsRegistry ρ) := do
  let fullName := r.counterName name
  let labels ← validateAndSortLabels fullName labels
  requireOneKindPerName r.samples fullName .counter
  match r.find fullName labels with
  | some sample =>
    let created ← orFail (.alreadyGauge fullName) sample.counter
    return (created, r)
  | none =>
    r.requireRoomForSeries
    let sample := ⟨fullName, help, labels, .counter, some r.counters, none, none⟩
    return (r.counters, { r with
      counters := r.counters + 1, samples := r.samples ++ [sample] })

/-- The number of the gauge, and the registry after the call. -/
def gauge (name help : Bytes) (labels : Labels) :
    Except ServerError (ℕ × MetricsRegistry ρ) := do
  let fullName := qualifiedName r.metricPrefix name
  let labels ← validateAndSortLabels fullName labels
  requireOneKindPerName r.samples fullName .gauge
  match r.find fullName labels with
  | some sample =>
    let created ← orFail (.alreadyComputed fullName) sample.gauge
    return (created, r)
  | none =>
    r.requireRoomForSeries
    let sample := ⟨fullName, help, labels, .gauge, none, some r.gauges, none⟩
    return (r.gauges, { r with
      gauges := r.gauges + 1, samples := r.samples ++ [sample] })

/-- `MetricsRegistry::gauge_fn`: a series that is there gets the new producer. -/
def gaugeFn (name help : Bytes) (producer : Option ρ) (labels : Labels) :
    Except ServerError (MetricsRegistry ρ) := do
  let fullName := qualifiedName r.metricPrefix name
  let labels ← validateAndSortLabels fullName labels
  requireOneKindPerName r.samples fullName .gauge
  match r.find fullName labels with
  | some sample =>
    ensure sample.producer.isSome (.alreadyStored fullName)
    return { r with samples :=
      r.samples.modify (r.samples.findIdx (Sample.isSeries fullName labels)) fun sample =>
        { sample with help := help, producer := producer } }
  | none =>
    r.requireRoomForSeries
    let sample := ⟨fullName, help, labels, .gauge, none, none, producer⟩
    return { r with samples := r.samples ++ [sample] }

/-! ### Calls -/

/-- A call of the application. -/
inductive Call (ρ : Type) where
  | counter (name help : Bytes) (labels : Labels)
  | gauge (name help : Bytes) (labels : Labels)
  | gaugeFn (name help : Bytes) (producer : Option ρ) (labels : Labels)

/-- What a call makes of the registry. -/
def apply : Call ρ → Except ServerError (MetricsRegistry ρ)
  | .counter name help labels => (r.counter name help labels).map Prod.snd
  | .gauge name help labels => (r.gauge name help labels).map Prod.snd
  | .gaugeFn name help producer labels => r.gaugeFn name help producer labels

/-- A call that throws has changed nothing. -/
def call (c : Call ρ) : MetricsRegistry ρ :=
  match r.apply c with
  | .ok r => r
  | .error _ => r

/-- The registry after some calls; those that are rejected do nothing. -/
def run (calls : List (Call ρ)) : MetricsRegistry ρ := calls.foldl call r

end MetricsRegistry

/-! ### The order of labels -/

theorem labelLe_iff {a b : Bytes × Bytes} : labelLe a b ↔ toLex a ≤ toLex b := by
  rw [Prod.Lex.le_iff]
  rfl

instance : Std.Total labelLe := ⟨fun a b => by
  rw [labelLe_iff, labelLe_iff]
  exact le_total _ _⟩

instance : IsTrans (Bytes × Bytes) labelLe := ⟨fun a b c hab hbc => by
  rw [labelLe_iff] at hab hbc ⊢
  exact hab.trans hbc⟩

instance : Std.Antisymm labelLe := ⟨fun a b hab hba => by
  rw [labelLe_iff] at hab hba
  exact toLex.injective (le_antisymm hab hba)⟩

/-- The order in which the application gives the labels does not matter. -/
theorem insertionSort_labels_congr {labels labels' : Labels} (h : labels'.Perm labels) :
    labels'.insertionSort labelLe = labels.insertionSort labelLe := by
  refine List.Perm.eq_of_pairwise' (List.pairwise_insertionSort labelLe labels')
    (List.pairwise_insertionSort labelLe labels) ?_
  exact (List.perm_insertionSort labelLe labels').trans
    (h.trans (List.perm_insertionSort labelLe labels).symm)

/-! ### What an accepted call has passed -/

/-- Label names are identifiers, and no two of them are equal. -/
def ValidLabels (labels : Labels) : Prop :=
  (∀ label ∈ labels, isValidIdentifier label.1 = true) ∧ (labels.map Prod.fst).Nodup

theorem ValidLabels.perm {labels labels' : Labels} (h : ValidLabels labels)
    (hperm : labels'.Perm labels) : ValidLabels labels' :=
  ⟨fun label hlabel => h.1 label (hperm.mem_iff.1 hlabel),
    (hperm.map Prod.fst).nodup_iff.2 h.2⟩

theorem requireValidLabels_eq_ok_iff {name : Bytes} {previous labels : Labels}
    (hprevious : (previous.map Prod.fst).Nodup) :
    requireValidLabels name previous labels = .ok () ↔
      (∀ label ∈ labels, isValidIdentifier label.1 = true) ∧
        ((previous ++ labels).map Prod.fst).Nodup := by
  induction labels generalizing previous with
  | nil => exact iff_of_true rfl ⟨by simp, by simpa using hprevious⟩
  | cons label rest ih =>
    have happend : previous ++ label :: rest = (previous ++ [label]) ++ rest := by simp
    simp only [requireValidLabels, bind_eq_ok, ensure_eq_ok, exists_const, Bool.not_eq_true',
      List.any_eq_false, beq_iff_eq, List.forall_mem_cons, happend]
    have hfresh : (∀ earlier ∈ previous, ¬ earlier.1 = label.1) ↔
        ((previous ++ [label]).map Prod.fst).Nodup := by
      rw [List.map_append, List.map_singleton, List.nodup_append_comm, List.singleton_append,
        List.nodup_cons, and_iff_left hprevious, List.mem_map, not_exists]
      exact forall_congr' fun earlier => not_and.symm
    constructor
    · rintro ⟨hvalid, hnew, hrest⟩
      obtain ⟨hnames, hall⟩ := (ih (hfresh.1 hnew)).1 hrest
      exact ⟨⟨hvalid, hnames⟩, hall⟩
    · rintro ⟨⟨hvalid, hnames⟩, hall⟩
      have hnodup : ((previous ++ [label]).map Prod.fst).Nodup := by
        rw [List.map_append] at hall
        exact hall.of_append_left
      exact ⟨hvalid, hfresh.2 hnodup, (ih hnodup).2 ⟨hnames, hall⟩⟩

theorem validateAndSortLabels_eq_ok_iff {name : Bytes} {labels sorted : Labels} :
    validateAndSortLabels name labels = .ok sorted ↔
      isValidIdentifier name = true ∧ ValidLabels labels ∧
        labels.insertionSort labelLe = sorted := by
  have hlabels : requireValidLabels name [] labels = .ok () ↔ ValidLabels labels :=
    requireValidLabels_eq_ok_iff List.nodup_nil
  simp only [validateAndSortLabels, requireValidSeries, bind_eq_ok, ensure_eq_ok, exists_const,
    pure_eq_ok, ← hlabels]
  constructor
  · rintro ⟨⟨⟩, ⟨hname, hvalid⟩, hsorted⟩
    exact ⟨hname, hvalid, hsorted⟩
  · rintro ⟨hname, hvalid, hsorted⟩
    exact ⟨(), ⟨hname, hvalid⟩, hsorted⟩

/-- Labels in another order are accepted alike. -/
theorem validateAndSortLabels_perm {name : Bytes} {labels labels' sorted : Labels}
    (hperm : labels'.Perm labels) (h : validateAndSortLabels name labels = .ok sorted) :
    validateAndSortLabels name labels' = .ok sorted := by
  obtain ⟨hname, hvalid, hsorted⟩ := validateAndSortLabels_eq_ok_iff.1 h
  exact validateAndSortLabels_eq_ok_iff.2
    ⟨hname, hvalid.perm hperm, (insertionSort_labels_congr hperm).trans hsorted⟩

theorem requireOneKindPerName_eq_ok_iff {samples : List (Sample ρ)} {fullName : Bytes}
    {kind : MetricKind} :
    requireOneKindPerName samples fullName kind = .ok () ↔
      ∀ sample ∈ samples, sample.name = fullName → sample.kind = kind := by
  unfold requireOneKindPerName
  split
  · rename_i sample hfind
    refine iff_of_false nofun fun h => ?_
    have hother := List.find?_some hfind
    simp only [Bool.and_eq_true, beq_iff_eq, bne_iff_ne] at hother
    exact hother.2 (h sample (List.mem_of_find?_eq_some hfind) hother.1)
  · rename_i hnone
    refine iff_of_true rfl fun sample hsample hname => ?_
    simpa [hname] using List.find?_eq_none.1 hnone sample hsample

/-- What names a series. -/
def Sample.series (sample : Sample ρ) : Bytes × Labels := (sample.name, sample.labels)

theorem Sample.isSeries_iff {fullName : Bytes} {labels : Labels} {sample : Sample ρ} :
    sample.isSeries fullName labels = true ↔ sample.series = (fullName, labels) := by
  simp [isSeries, series]

/-- The number of sources of a series. -/
def Sample.sources (sample : Sample ρ) : ℕ :=
  sample.counter.isSome.toNat + sample.gauge.isSome.toNat + sample.producer.isSome.toNat

/-- The assertion of `snapshot`. -/
def Sample.hasSource (sample : Sample ρ) : Bool :=
  sample.counter.isSome || sample.gauge.isSome || sample.producer.isSome

theorem Sample.hasSource_iff {sample : Sample ρ} : sample.hasSource = true ↔ 0 < sample.sources := by
  unfold hasSource sources
  cases sample.counter.isSome <;> cases sample.gauge.isSome <;>
    cases sample.producer.isSome <;> decide

namespace MetricsRegistry

variable {r r' : MetricsRegistry ρ}

/-- What a series has passed when it is added to the registry. -/
structure Accepts (r : MetricsRegistry ρ) (sample : Sample ρ) : Prop where
  name : isValidIdentifier sample.name = true
  labels : ValidLabels sample.labels
  /-- One name has one kind. -/
  kind : ∀ other ∈ r.samples, other.name = sample.name → other.kind = sample.kind
  /-- No other series has these labels. -/
  new : ∀ other ∈ r.samples, other.series ≠ sample.series
  /-- There is room for one more. -/
  room : r.samples.length < r.maxSeries

/-- The call brings a source of its own: only `gaugeFn` may be given an empty producer. -/
def Call.bringsSource : Call ρ → Bool
  | .gaugeFn _ _ producer _ => producer.isSome
  | _ => true

/-- A series as a call adds it. -/
structure Adds (r : MetricsRegistry ρ) (c : Call ρ) (sample : Sample ρ) : Prop
    extends r.Accepts sample where
  sorted : sample.labels.Pairwise labelLe
  /-- A counter is named so. -/
  total : sample.kind = .counter → ascii "_total" <:+ sample.name
  /-- One, if the call brings what the value is read from. -/
  sources : sample.sources = c.bringsSource.toNat

theorem isSuffixOf_counterName (name : Bytes) : ascii "_total" <:+ r.counterName name := by
  unfold counterName
  dsimp only
  split_ifs with h
  · exact List.isSuffixOf_iff_suffix.1 h
  · exact List.suffix_append _ _

theorem adds_of_checks {c : Call ρ} {sample : Sample ρ} {labels : Labels}
    (hlabels : validateAndSortLabels sample.name labels = .ok sample.labels)
    (hkind : requireOneKindPerName r.samples sample.name sample.kind = .ok ())
    (hfind : r.find sample.name sample.labels = none) (hroom : r.requireRoomForSeries = .ok ())
    (htotal : sample.kind = .counter → ascii "_total" <:+ sample.name)
    (hsources : sample.sources = c.bringsSource.toNat) : r.Adds c sample := by
  obtain ⟨hname, hvalid, hsorted⟩ := validateAndSortLabels_eq_ok_iff.1 hlabels
  refine ⟨⟨hname, hsorted ▸ hvalid.perm (List.perm_insertionSort labelLe labels),
    requireOneKindPerName_eq_ok_iff.1 hkind, ?_, ?_⟩,
    hsorted ▸ List.pairwise_insertionSort labelLe labels, htotal, hsources⟩
  · intro other hother heq
    exact List.find?_eq_none.1 hfind other hother (Sample.isSeries_iff.2 heq)
  · simpa [requireRoomForSeries] using hroom

/-- The sample at the first index of a kind is the first sample of that kind. -/
theorem modify_findIdx {α : Type} {p : α → Bool} {before after : List α} {x : α}
    (hbefore : ∀ a ∈ before, p a = false) (hx : p x = true) (f : α → α) :
    (before ++ x :: after).modify ((before ++ x :: after).findIdx p) f =
      before ++ f x :: after := by
  induction before with
  | nil => simp [List.findIdx_cons, hx]
  | cons a before ih =>
    obtain ⟨ha, hrest⟩ := List.forall_mem_cons.1 hbefore
    simp [List.findIdx_cons, ha, ih hrest]

/-- A call gives the metric that is there, replaces what computes it, or adds a series. -/
theorem apply_cases {c : Call ρ} (h : r.apply c = .ok r') :
    (c.bringsSource = true ∧ r' = r) ∨
    (∃ name help producer labels, c = .gaugeFn name help producer labels ∧
      ∃ before sample after, r.samples = before ++ sample :: after ∧
        sample.producer.isSome = true ∧
        r' = { r with samples := before ++ { sample with help, producer } :: after }) ∨
    ∃ sample counters gauges, r.Adds c sample ∧
      r' = { r with counters, gauges, samples := r.samples ++ [sample] } := by
  cases c with
  | counter name help labels =>
    simp only [apply, counter, map_eq_ok, bind_eq_ok] at h
    obtain ⟨⟨created, r₁⟩, ⟨sorted, hlabels, ⟨⟩, hkind, h⟩, rfl⟩ := h
    split at h
    · simp only [bind_eq_ok, pure_eq_ok, Prod.mk.injEq] at h
      obtain ⟨_, -, -, rfl⟩ := h
      exact .inl ⟨rfl, rfl⟩
    · rename_i hfind
      simp only [bind_eq_ok, pure_eq_ok, Prod.mk.injEq] at h
      obtain ⟨⟨⟩, hroom, -, rfl⟩ := h
      refine .inr (.inr ⟨_, _, _, adds_of_checks hlabels hkind hfind hroom ?_ rfl, rfl⟩)
      exact fun _ => isSuffixOf_counterName name
  | gauge name help labels =>
    simp only [apply, gauge, map_eq_ok, bind_eq_ok] at h
    obtain ⟨⟨created, r₁⟩, ⟨sorted, hlabels, ⟨⟩, hkind, h⟩, rfl⟩ := h
    split at h
    · simp only [bind_eq_ok, pure_eq_ok, Prod.mk.injEq] at h
      obtain ⟨_, -, -, rfl⟩ := h
      exact .inl ⟨rfl, rfl⟩
    · rename_i hfind
      simp only [bind_eq_ok, pure_eq_ok, Prod.mk.injEq] at h
      obtain ⟨⟨⟩, hroom, -, rfl⟩ := h
      refine .inr (.inr ⟨_, _, _, adds_of_checks hlabels hkind hfind hroom ?_ rfl, rfl⟩)
      exact fun hcounter => by cases hcounter
  | gaugeFn name help producer labels =>
    simp only [apply, gaugeFn, bind_eq_ok] at h
    obtain ⟨sorted, hlabels, ⟨⟩, hkind, h⟩ := h
    split at h
    · rename_i sample hfind
      simp only [bind_eq_ok, pure_eq_ok, ensure_eq_ok] at h
      obtain ⟨⟨⟩, hproducer, rfl⟩ := h
      obtain ⟨hseries, before, after, hsamples, hbefore⟩ := List.find?_eq_some_iff_append.1 hfind
      refine .inr (.inl ⟨name, help, producer, labels, rfl, before, sample, after, hsamples,
        hproducer, ?_⟩)
      rw [hsamples, modify_findIdx (by simpa using hbefore) hseries]
    · rename_i hfind
      simp only [bind_eq_ok, pure_eq_ok] at h
      obtain ⟨⟨⟩, hroom, rfl⟩ := h
      refine .inr (.inr ⟨_, _, _, adds_of_checks hlabels hkind hfind hroom ?_ ?_, rfl⟩)
      · exact fun hcounter => by cases hcounter
      · cases producer <;> rfl

/-! ### Every series is registered once -/

/-- No two samples are of one series, and their labels can be told apart by name. -/
structure Distinct (r : MetricsRegistry ρ) : Prop where
  series : (r.samples.map Sample.series).Nodup
  labels : ∀ sample ∈ r.samples, ValidLabels sample.labels

theorem distinct_create {metricPrefix : Bytes} {maxSeries : ℕ}
    (h : create metricPrefix maxSeries = .ok r) : r.Distinct := by
  simp only [create, bind_eq_ok, pure_eq_ok] at h
  obtain ⟨-, -, rfl⟩ := h
  exact ⟨List.nodup_nil, by simp⟩

theorem Distinct.of_map_series (hr : r.Distinct)
    (h : r'.samples.map Sample.series = r.samples.map Sample.series) : r'.Distinct := by
  refine ⟨h ▸ hr.series, fun sample hsample => ?_⟩
  have hmem : sample.series ∈ r.samples.map Sample.series := h ▸ List.mem_map_of_mem hsample
  obtain ⟨other, hother, heq⟩ := List.mem_map.1 hmem
  have hlabels : other.labels = sample.labels := congrArg Prod.snd heq
  exact hlabels ▸ hr.labels other hother

theorem distinct_apply {c : Call ρ} (h : r.apply c = .ok r') (hr : r.Distinct) : r'.Distinct := by
  obtain ⟨-, rfl⟩ | ⟨name, help, producer, labels, -, before, sample, after, hsamples, -, rfl⟩ |
    ⟨sample, counters, gauges, hadds, rfl⟩ := apply_cases h
  · exact hr
  · refine hr.of_map_series ?_
    rw [hsamples]
    simp [Sample.series]
  · refine ⟨?_, List.forall_mem_append.2 ⟨hr.labels, by simpa using hadds.labels⟩⟩
    rw [List.map_append]
    refine List.nodup_append_comm.1 (List.nodup_cons.2 ⟨fun hmem => ?_, hr.series⟩)
    obtain ⟨other, hother, heq⟩ := List.mem_map.1 hmem
    exact hadds.new other hother heq

/-- What the calls keep, the registry keeps. -/
theorem run_invariant {I : MetricsRegistry ρ → Prop} (hI : ∀ r c, I r → I (r.call c)) (hr : I r)
    (calls : List (Call ρ)) : I (r.run calls) := by
  induction calls generalizing r with
  | nil => exact hr
  | cons c calls ih => exact ih (hI r c hr)

theorem distinct_call (hr : r.Distinct) (c : Call ρ) : (r.call c).Distinct := by
  unfold call
  split
  · rename_i h
    exact distinct_apply h hr
  · exact hr

/-- In any order of calls, accepted or refused. -/
theorem distinct_run (hr : r.Distinct) (calls : List (Call ρ)) : (r.run calls).Distinct :=
  run_invariant (I := Distinct) (fun _ c hr => distinct_call hr c) hr calls

end MetricsRegistry

end ErikslundHttp
