import ErikslundHttp.Metrics.Registry

/-!
# The invariant of the metrics registry

A call on the registry may throw, and the application may go on with the registry it called.  Here
a call is a computation on the fields of the registry, in the order of the source, that keeps what
it has written when it throws (`RegistryCall.perform`).

* `answer_eq`: no call throws after its first write, so a rejected call is a call that did nothing.
* `Registered` is what every sample of a registry is, after any calls, accepted or rejected
  (`registered_run`).
* `has_run`: a series, once there, keeps its counter or gauge.
* `registry_invariant` puts them together, and `every_series_has_a_source_iff` says when each series
  has exactly one source.
-/

namespace ErikslundHttp

variable {ρ : Type}

/-- The gauge that `build_info` registers. -/
def kBuildInfoName : Bytes := ascii "build_info"

/-- Its label. -/
def kBuildInfoLabelName : Bytes := ascii "version"

/-- Its help text. -/
def kBuildInfoHelp : Bytes :=
  ascii "Build version of the running binary. The value is always 1; the version is the label."

/-- The gauge that `library_build_info` registers. -/
def kLibraryBuildInfoName : Bytes := ascii "library_build_info"

/-- Its first label. -/
def kLibraryBuildInfoLabelName : Bytes := ascii "library"

/-- Its help text. -/
def kLibraryBuildInfoHelp : Bytes :=
  ascii ("Build version of a library linked into the running binary. The value is always 1; the " ++
    "library and its version are the labels.")

/-- The calls of the registration interface. -/
inductive RegistryCall (ρ : Type) where
  | counter (name help : Bytes) (labels : Labels)
  | gauge (name help : Bytes) (labels : Labels)
  | gaugeFn (name help : Bytes) (producer : Option ρ) (labels : Labels)
  | buildInfo (version : Bytes)
  | libraryBuildInfo (library version : Bytes)

/-- What a call gives the application: the number of a counter or of a gauge. -/
inductive MetricHandle where
  | counter (number : ℕ)
  | gauge (number : ℕ)
  | none
  deriving DecidableEq

/-- A call that may have written something when it throws. -/
abbrev RegistryM (ρ : Type) := Throwing ServerError (MetricsRegistry ρ)

namespace RegistryCall

/-- `MetricsRegistry::counter`. -/
def performCounter (name help : Bytes) (labels : Labels) : RegistryM ρ ℕ := do
  let fullName := (← getThe (MetricsRegistry ρ)).counterName name
  let labels ← validateAndSortLabels fullName labels
  requireOneKindPerName (← getThe (MetricsRegistry ρ)).samples fullName .counter
  match (← getThe (MetricsRegistry ρ)).find fullName labels with
  | some sample => orFail (ServerError.alreadyGauge fullName) sample.counter
  | none =>
    (← getThe (MetricsRegistry ρ)).requireRoomForSeries
    let created := (← getThe (MetricsRegistry ρ)).counters
    modify fun r => { r with counters := r.counters + 1 }
    modify fun r => { r with
      samples := r.samples ++ [⟨fullName, help, labels, .counter, some created, none, none⟩] }
    return created

/-- `MetricsRegistry::gauge`. -/
def performGauge (name help : Bytes) (labels : Labels) : RegistryM ρ ℕ := do
  let fullName := qualifiedName (← getThe (MetricsRegistry ρ)).metricPrefix name
  let labels ← validateAndSortLabels fullName labels
  requireOneKindPerName (← getThe (MetricsRegistry ρ)).samples fullName .gauge
  match (← getThe (MetricsRegistry ρ)).find fullName labels with
  | some sample => orFail (ServerError.alreadyComputed fullName) sample.gauge
  | none =>
    (← getThe (MetricsRegistry ρ)).requireRoomForSeries
    let created := (← getThe (MetricsRegistry ρ)).gauges
    modify fun r => { r with gauges := r.gauges + 1 }
    modify fun r => { r with
      samples := r.samples ++ [⟨fullName, help, labels, .gauge, none, some created, none⟩] }
    return created

/-- `MetricsRegistry::gauge_fn`. -/
def performGaugeFn (name help : Bytes) (producer : Option ρ) (labels : Labels) :
    RegistryM ρ Unit := do
  let fullName := qualifiedName (← getThe (MetricsRegistry ρ)).metricPrefix name
  let labels ← validateAndSortLabels fullName labels
  requireOneKindPerName (← getThe (MetricsRegistry ρ)).samples fullName .gauge
  match (← getThe (MetricsRegistry ρ)).find fullName labels with
  | some sample =>
    ensure sample.producer.isSome (ServerError.alreadyStored fullName)
    let index := (← getThe (MetricsRegistry ρ)).samples.findIdx (Sample.isSeries fullName labels)
    modify fun r => { r with
      samples := r.samples.modify index fun sample => { sample with help, producer } }
  | none =>
    (← getThe (MetricsRegistry ρ)).requireRoomForSeries
    modify fun r => { r with
      samples := r.samples ++ [⟨fullName, help, labels, .gauge, none, none, producer⟩] }

/-- The gauges of the two builds are set to one; what a gauge holds is not part of the registry. -/
def perform : RegistryCall ρ → RegistryM ρ MetricHandle
  | .counter name help labels => MetricHandle.counter <$> performCounter name help labels
  | .gauge name help labels => MetricHandle.gauge <$> performGauge name help labels
  | .gaugeFn name help producer labels =>
    (fun _ => MetricHandle.none) <$> performGaugeFn name help producer labels
  | .buildInfo version =>
    (fun _ => MetricHandle.none) <$>
      performGauge kBuildInfoName kBuildInfoHelp [(kBuildInfoLabelName, version)]
  | .libraryBuildInfo library version =>
    (fun _ => MetricHandle.none) <$>
      performGauge kLibraryBuildInfoName kLibraryBuildInfoHelp
        [(kLibraryBuildInfoLabelName, library), (kBuildInfoLabelName, version)]

/-- The call with those of the builds written out. -/
def toCall : RegistryCall ρ → MetricsRegistry.Call ρ
  | .counter name help labels => .counter name help labels
  | .gauge name help labels => .gauge name help labels
  | .gaugeFn name help producer labels => .gaugeFn name help producer labels
  | .buildInfo version => .gauge kBuildInfoName kBuildInfoHelp [(kBuildInfoLabelName, version)]
  | .libraryBuildInfo library version =>
    .gauge kLibraryBuildInfoName kLibraryBuildInfoHelp
      [(kLibraryBuildInfoLabelName, library), (kBuildInfoLabelName, version)]

end RegistryCall

namespace MetricsRegistry

variable (r : MetricsRegistry ρ)

/-- What a call answers, and the registry it leaves. -/
def answer (c : RegistryCall ρ) : Except ServerError MetricHandle × MetricsRegistry ρ :=
  c.perform.run.run r

/-- The registry after some calls; the application ignores what they throw. -/
def afterCalls (calls : List (RegistryCall ρ)) : MetricsRegistry ρ :=
  calls.foldl (fun r c => (r.answer c).2) r

end MetricsRegistry

/-! ### A rejected call does nothing -/

namespace RegistryCall

open MetricsRegistry

variable (r : MetricsRegistry ρ)

theorem run_performCounter (name help : Bytes) (labels : Labels) :
    (performCounter name help labels).run.run r = answered r (r.counter name help labels) := by
  -- The checks are the same on both sides, and the writes come after the last of them.
  unfold performCounter
  rw [run_getThe_bind]
  refine run_liftM_bind r _ _ _ fun labels => ?_
  rw [run_getThe_bind]
  refine run_liftM_bind r _ _ _ fun _ => ?_
  rw [run_getThe_bind]
  cases r.find (r.counterName name) labels with
  | some sample =>
    dsimp only
    cases sample.counter <;> rfl
  | none =>
    dsimp only
    rw [run_getThe_bind]
    exact run_liftM_bind r _ _ _ fun _ => rfl

theorem run_performGauge (name help : Bytes) (labels : Labels) :
    (performGauge name help labels).run.run r = answered r (r.gauge name help labels) := by
  unfold performGauge
  rw [run_getThe_bind]
  refine run_liftM_bind r _ _ _ fun labels => ?_
  rw [run_getThe_bind]
  refine run_liftM_bind r _ _ _ fun _ => ?_
  rw [run_getThe_bind]
  cases r.find (qualifiedName r.metricPrefix name) labels with
  | some sample =>
    dsimp only
    cases sample.gauge <;> rfl
  | none =>
    dsimp only
    rw [run_getThe_bind]
    exact run_liftM_bind r _ _ _ fun _ => rfl

theorem run_performGaugeFn (name help : Bytes) (producer : Option ρ) (labels : Labels) :
    (performGaugeFn name help producer labels).run.run r =
      answered r ((r.gaugeFn name help producer labels).map fun r' => ((), r')) := by
  unfold performGaugeFn MetricsRegistry.gaugeFn
  rw [run_getThe_bind]
  dsimp only
  rw [map_bind_eq]
  refine run_liftM_bind r _ _ _ fun labels => ?_
  rw [run_getThe_bind, map_bind_eq]
  refine run_liftM_bind r _ _ _ fun _ => ?_
  rw [run_getThe_bind]
  cases r.find (qualifiedName r.metricPrefix name) labels with
  | some sample =>
    dsimp only
    rw [map_bind_eq]
    exact run_liftM_bind r _ _ _ fun _ => rfl
  | none =>
    dsimp only
    rw [run_getThe_bind, map_bind_eq]
    exact run_liftM_bind r _ _ _ fun _ => rfl

end RegistryCall

namespace MetricsRegistry

variable (r : MetricsRegistry ρ)

/-- A call computes what the functions of the registry compute. -/
theorem answer_eq (c : RegistryCall ρ) :
    ∃ x : Except ServerError (MetricHandle × MetricsRegistry ρ),
      r.answer c = answered r x ∧ x.map Prod.snd = r.apply c.toCall := by
  cases c with
  | counter name help labels =>
    refine ⟨_, run_map_of_answered (RegistryCall.run_performCounter r name help labels) _, ?_⟩
    show _ = (r.counter name help labels).map Prod.snd
    cases r.counter name help labels <;> rfl
  | gauge name help labels =>
    refine ⟨_, run_map_of_answered (RegistryCall.run_performGauge r name help labels) _, ?_⟩
    show _ = (r.gauge name help labels).map Prod.snd
    cases r.gauge name help labels <;> rfl
  | gaugeFn name help producer labels =>
    refine ⟨_, run_map_of_answered
      (RegistryCall.run_performGaugeFn r name help producer labels) _, ?_⟩
    show _ = r.gaugeFn name help producer labels
    cases r.gaugeFn name help producer labels <;> rfl
  | buildInfo version =>
    refine ⟨_, run_map_of_answered (RegistryCall.run_performGauge r _ _ _) _, ?_⟩
    show _ = (r.gauge kBuildInfoName kBuildInfoHelp [(kBuildInfoLabelName, version)]).map Prod.snd
    cases r.gauge kBuildInfoName kBuildInfoHelp [(kBuildInfoLabelName, version)] <;> rfl
  | libraryBuildInfo library version =>
    refine ⟨_, run_map_of_answered (RegistryCall.run_performGauge r _ _ _) _, ?_⟩
    show _ = (r.gauge kLibraryBuildInfoName kLibraryBuildInfoHelp
      [(kLibraryBuildInfoLabelName, library), (kBuildInfoLabelName, version)]).map Prod.snd
    cases r.gauge kLibraryBuildInfoName kLibraryBuildInfoHelp
      [(kLibraryBuildInfoLabelName, library), (kBuildInfoLabelName, version)] <;> rfl

theorem answer_snd (c : RegistryCall ρ) : (r.answer c).2 = r.call c.toCall := by
  obtain ⟨x, hanswer, happly⟩ := r.answer_eq c
  rw [hanswer, call, ← happly]
  cases x <;> rfl

theorem answer_error {c : RegistryCall ρ} {e : ServerError} {r' : MetricsRegistry ρ}
    (h : r.answer c = (.error e, r')) : r' = r := by
  obtain ⟨x, hanswer, -⟩ := r.answer_eq c
  rw [hanswer] at h
  cases x with
  | ok a => cases h
  | error e' => exact (Prod.mk.inj h).2.symm

theorem afterCalls_eq (calls : List (RegistryCall ρ)) :
    r.afterCalls calls = r.run (calls.map RegistryCall.toCall) := by
  unfold afterCalls MetricsRegistry.run
  rw [List.foldl_map]
  exact congrArg (fun step => List.foldl step r calls) (funext₂ fun r c => r.answer_snd c)

end MetricsRegistry

namespace MetricsRegistry

variable {r r' : MetricsRegistry ρ}

/-! ### What every sample is -/

/-- What the registry promises of its samples. -/
structure Registered (r : MetricsRegistry ρ) : Prop where
  /-- Every name is an identifier of the format. -/
  names : ∀ sample ∈ r.samples, isValidIdentifier sample.name = true
  /-- One name has one kind. -/
  kinds : ∀ sample ∈ r.samples, ∀ other ∈ r.samples,
    sample.name = other.name → sample.kind = other.kind
  /-- Counters are named so. -/
  totals : ∀ sample ∈ r.samples, sample.kind = .counter → ascii "_total" <:+ sample.name
  sorted : ∀ sample ∈ r.samples, sample.labels.Pairwise labelLe
  /-- The limit of the samples holds. -/
  room : r.samples.length ≤ r.maxSeries

theorem registered_create {metricPrefix : Bytes} {maxSeries : ℕ}
    (h : create metricPrefix maxSeries = .ok r) : r.Registered := by
  simp only [create, bind_eq_ok, pure_eq_ok] at h
  obtain ⟨-, -, rfl⟩ := h
  exact ⟨by simp, by simp, by simp, by simp, Nat.zero_le _⟩

/-- A sample that keeps its name, its labels and its kind may take the place of another. -/
theorem Registered.replace (hr : r.Registered) {before after : List (Sample ρ)}
    {sample sample' : Sample ρ} (hsamples : r.samples = before ++ sample :: after)
    (hname : sample'.name = sample.name) (hlabels : sample'.labels = sample.labels)
    (hkind : sample'.kind = sample.kind) :
    Registered { r with samples := before ++ sample' :: after } := by
  -- every sample of the new list has one of the old list with the same name, labels and kind
  have hold : ∀ x ∈ before ++ sample' :: after, ∃ y ∈ r.samples,
      x.name = y.name ∧ x.labels = y.labels ∧ x.kind = y.kind := by
    intro x hx
    rw [hsamples]
    rcases List.mem_append.1 hx with hx | hx
    · exact ⟨x, List.mem_append_left _ hx, rfl, rfl, rfl⟩
    · rcases List.mem_cons.1 hx with rfl | hx
      · exact ⟨sample, by simp, hname, hlabels, hkind⟩
      · exact ⟨x, by simp [hx], rfl, rfl, rfl⟩
  refine ⟨?_, ?_, ?_, ?_, ?_⟩
  · intro x hx
    obtain ⟨y, hy, hn, -, -⟩ := hold x hx
    exact hn ▸ hr.names y hy
  · intro x hx x' hx' heq
    obtain ⟨y, hy, hn, -, hk⟩ := hold x hx
    obtain ⟨y', hy', hn', -, hk'⟩ := hold x' hx'
    rw [hk, hk']
    exact hr.kinds y hy y' hy' (hn.symm.trans (heq.trans hn'))
  · intro x hx hcounter
    obtain ⟨y, hy, hn, -, hk⟩ := hold x hx
    exact hn ▸ hr.totals y hy (hk ▸ hcounter)
  · intro x hx
    obtain ⟨y, hy, -, hl, -⟩ := hold x hx
    exact hl ▸ hr.sorted y hy
  · have hroom := hr.room
    rw [hsamples] at hroom
    simpa using hroom

theorem Registered.add (hr : r.Registered) {c : Call ρ} {sample : Sample ρ}
    (hadds : r.Adds c sample) (counters gauges : ℕ) :
    Registered { r with counters, gauges, samples := r.samples ++ [sample] } := by
  refine ⟨?_, ?_, ?_, ?_, ?_⟩
  · exact List.forall_mem_append.2 ⟨hr.names, by simpa using hadds.name⟩
  · intro x hx x' hx' heq
    rcases List.mem_append.1 hx with hold | hnew
    · rcases List.mem_append.1 hx' with hold' | hnew'
      · exact hr.kinds x hold x' hold' heq
      · rw [List.mem_singleton.1 hnew'] at heq ⊢
        exact hadds.kind x hold heq
    · rw [List.mem_singleton.1 hnew] at heq ⊢
      rcases List.mem_append.1 hx' with hold' | hnew'
      · exact (hadds.kind x' hold' heq.symm).symm
      · rw [List.mem_singleton.1 hnew']
  · exact List.forall_mem_append.2 ⟨hr.totals, by simpa using hadds.total⟩
  · exact List.forall_mem_append.2 ⟨hr.sorted, by simpa using hadds.sorted⟩
  · have hroom := hadds.room
    simpa using hroom

theorem registered_call (hr : r.Registered) (c : Call ρ) : (r.call c).Registered := by
  unfold call
  split
  · rename_i h
    obtain ⟨-, rfl⟩ | ⟨name, help, producer, labels, -, before, sample, after, hsamples, -, rfl⟩ |
      ⟨sample, counters, gauges, hadds, rfl⟩ := apply_cases h
    · exact hr
    · exact hr.replace hsamples rfl rfl rfl
    · exact hr.add hadds counters gauges
  · exact hr

theorem registered_run (hr : r.Registered) (calls : List (Call ρ)) : (r.run calls).Registered :=
  run_invariant (I := Registered) (fun _ c hr => registered_call hr c) hr calls

/-! ### A series keeps its metric -/

theorem metricPrefix_call (r : MetricsRegistry ρ) (c : Call ρ) :
    (r.call c).metricPrefix = r.metricPrefix ∧ (r.call c).maxSeries = r.maxSeries := by
  unfold call
  split
  · rename_i h
    obtain ⟨-, rfl⟩ | ⟨_, _, _, _, -, _, _, _, -, -, rfl⟩ | ⟨_, _, _, -, rfl⟩ := apply_cases h <;>
      exact ⟨rfl, rfl⟩
  · exact ⟨rfl, rfl⟩

/-- The series is in the registry, with this counter and this gauge. -/
def Has (r : MetricsRegistry ρ) (fullName : Bytes) (labels : Labels) (kind : MetricKind)
    (counter gauge : Option ℕ) : Prop :=
  ∃ sample, r.find fullName labels = some sample ∧ sample.kind = kind ∧
    sample.counter = counter ∧ sample.gauge = gauge

theorem has_call {fullName : Bytes} {labels : Labels} {kind : MetricKind}
    {counter gauge : Option ℕ} (h : r.Has fullName labels kind counter gauge) (c : Call ρ) :
    (r.call c).Has fullName labels kind counter gauge := by
  unfold call
  split
  · rename_i happly
    obtain ⟨sample, hfind, hkind, hcounter, hgauge⟩ := h
    obtain ⟨-, rfl⟩ | ⟨_, help, producer, _, -, before, old, after, hsamples, -, rfl⟩ |
      ⟨added, _, _, -, rfl⟩ := apply_cases happly
    · exact ⟨sample, hfind, hkind, hcounter, hgauge⟩
    · -- the sample that was replaced is of the same series as before
      have hsame : Sample.isSeries fullName labels { old with help, producer } =
          old.isSeries fullName labels := rfl
      rw [find, hsamples, List.find?_append, List.find?_cons] at hfind
      rw [Has, find]
      dsimp only
      rw [List.find?_append, List.find?_cons, hsame]
      cases hbefore : before.find? (Sample.isSeries fullName labels) with
      | some found =>
        rw [hbefore, Option.some_or] at hfind
        exact ⟨sample, hfind, hkind, hcounter, hgauge⟩
      | none =>
        rw [hbefore, Option.none_or] at hfind
        cases hold : old.isSeries fullName labels with
        | true =>
          rw [hold] at hfind
          cases hfind
          exact ⟨_, rfl, hkind, hcounter, hgauge⟩
        | false =>
          rw [hold] at hfind
          exact ⟨sample, hfind, hkind, hcounter, hgauge⟩
    · refine ⟨sample, ?_, hkind, hcounter, hgauge⟩
      rw [find, List.find?_append, ← find, hfind, Option.some_or]
  · exact h

theorem has_run {fullName : Bytes} {labels : Labels} {kind : MetricKind}
    {counter gauge : Option ℕ} (h : r.Has fullName labels kind counter gauge)
    (calls : List (Call ρ)) : (r.run calls).Has fullName labels kind counter gauge :=
  run_invariant (I := fun r => r.Has fullName labels kind counter gauge)
    (fun _ c h => has_call h c) h calls

/-- The kind of every series of the name. -/
theorem Registered.kind_of_has (hr : r.Registered) {fullName : Bytes} {labels : Labels}
    {kind : MetricKind} {counter gauge : Option ℕ} (h : r.Has fullName labels kind counter gauge) :
    requireOneKindPerName r.samples fullName kind = .ok () := by
  obtain ⟨sample, hfind, hkind, -, -⟩ := h
  have hseries := Sample.isSeries_iff.1 (List.find?_some hfind)
  refine requireOneKindPerName_eq_ok_iff.2 fun other hother hname => ?_
  rw [← hkind]
  exact hr.kinds other hother sample (List.mem_of_find?_eq_some hfind)
    (hname.trans (congrArg Prod.fst hseries).symm)

/-! ### Registering again -/

theorem has_new {sample : Sample ρ} (hfind : r.find sample.name sample.labels = none)
    (counters gauges : ℕ) :
    Has { r with counters, gauges, samples := r.samples ++ [sample] } sample.name sample.labels
      sample.kind sample.counter sample.gauge := by
  have hself : sample.isSeries sample.name sample.labels = true := Sample.isSeries_iff.2 rfl
  refine ⟨sample, ?_, rfl, rfl, rfl⟩
  rw [find, List.find?_append, ← find, hfind, Option.none_or, List.find?_cons_of_pos hself]

/-- A counter that was handed out is the one of its series. -/
theorem counter_has {name help : Bytes} {labels : Labels} {number : ℕ}
    (h : r.counter name help labels = .ok (number, r')) :
    ∃ sorted gauge, validateAndSortLabels (r.counterName name) labels = .ok sorted ∧
      r'.Has (r.counterName name) sorted .counter (some number) gauge := by
  simp only [counter, bind_eq_ok] at h
  obtain ⟨sorted, hlabels, ⟨⟩, hkind, h⟩ := h
  split at h
  · rename_i sample hfind
    simp only [bind_eq_ok, pure_eq_ok, orFail_eq_ok, Prod.mk.injEq] at h
    obtain ⟨_, hcounter, rfl, rfl⟩ := h
    have hseries := Sample.isSeries_iff.1 (List.find?_some hfind)
    exact ⟨sorted, sample.gauge, hlabels, sample, hfind,
      requireOneKindPerName_eq_ok_iff.1 hkind sample (List.mem_of_find?_eq_some hfind)
        (congrArg Prod.fst hseries), hcounter, rfl⟩
  · rename_i hfind
    simp only [bind_eq_ok, pure_eq_ok, Prod.mk.injEq] at h
    obtain ⟨⟨⟩, -, rfl, rfl⟩ := h
    exact ⟨sorted, none, hlabels, has_new hfind _ _⟩

theorem counter_again (hr : r.Registered) {name help : Bytes} {labels sorted : Labels}
    {number : ℕ} {gauge : Option ℕ}
    (hlabels : validateAndSortLabels (r.counterName name) labels = .ok sorted)
    (hhas : r.Has (r.counterName name) sorted .counter (some number) gauge) :
    r.counter name help labels = .ok (number, r) := by
  have hkind := hr.kind_of_has hhas
  obtain ⟨sample, hfind, -, hcounter, -⟩ := hhas
  simp only [counter, bind_eq_ok]
  refine ⟨sorted, hlabels, (), hkind, ?_⟩
  rw [hfind]
  dsimp only
  rw [hcounter]
  rfl

/-- A gauge that was handed out is the one of its series. -/
theorem gauge_has {name help : Bytes} {labels : Labels} {number : ℕ}
    (h : r.gauge name help labels = .ok (number, r')) :
    ∃ sorted counter, validateAndSortLabels (qualifiedName r.metricPrefix name) labels =
        .ok sorted ∧
      r'.Has (qualifiedName r.metricPrefix name) sorted .gauge counter (some number) := by
  simp only [gauge, bind_eq_ok] at h
  obtain ⟨sorted, hlabels, ⟨⟩, hkind, h⟩ := h
  split at h
  · rename_i sample hfind
    simp only [bind_eq_ok, pure_eq_ok, orFail_eq_ok, Prod.mk.injEq] at h
    obtain ⟨_, hgauge, rfl, rfl⟩ := h
    have hseries := Sample.isSeries_iff.1 (List.find?_some hfind)
    exact ⟨sorted, sample.counter, hlabels, sample, hfind,
      requireOneKindPerName_eq_ok_iff.1 hkind sample (List.mem_of_find?_eq_some hfind)
        (congrArg Prod.fst hseries), rfl, hgauge⟩
  · rename_i hfind
    simp only [bind_eq_ok, pure_eq_ok, Prod.mk.injEq] at h
    obtain ⟨⟨⟩, -, rfl, rfl⟩ := h
    exact ⟨sorted, none, hlabels, has_new hfind _ _⟩

theorem gauge_again (hr : r.Registered) {name help : Bytes} {labels sorted : Labels}
    {number : ℕ} {counter : Option ℕ}
    (hlabels : validateAndSortLabels (qualifiedName r.metricPrefix name) labels = .ok sorted)
    (hhas : r.Has (qualifiedName r.metricPrefix name) sorted .gauge counter (some number)) :
    r.gauge name help labels = .ok (number, r) := by
  have hkind := hr.kind_of_has hhas
  obtain ⟨sample, hfind, -, -, hgauge⟩ := hhas
  simp only [MetricsRegistry.gauge, bind_eq_ok]
  refine ⟨sorted, hlabels, (), hkind, ?_⟩
  rw [hfind]
  dsimp only
  rw [hgauge]
  rfl

theorem answer_counter_eq_ok_iff {name help : Bytes} {labels : Labels} {number : ℕ} :
    r.answer (.counter name help labels) = (.ok (.counter number), r') ↔
      r.counter name help labels = .ok (number, r') := by
  have h := run_map_of_answered (RegistryCall.run_performCounter r name help labels)
    MetricHandle.counter
  rw [answer, RegistryCall.perform, h]
  cases r.counter name help labels with
  | error e => simp [answered, Except.map]
  | ok x => simp [answered, Except.map, Prod.ext_iff]

theorem answer_gauge_eq_ok_iff {name help : Bytes} {labels : Labels} {number : ℕ} :
    r.answer (.gauge name help labels) = (.ok (.gauge number), r') ↔
      r.gauge name help labels = .ok (number, r') := by
  have h := run_map_of_answered (RegistryCall.run_performGauge r name help labels)
    MetricHandle.gauge
  rw [answer, RegistryCall.perform, h]
  cases r.gauge name help labels with
  | error e => simp [answered, Except.map]
  | ok x => simp [answered, Except.map, Prod.ext_iff]

theorem metricPrefix_run (r : MetricsRegistry ρ) (calls : List (Call ρ)) :
    (r.run calls).metricPrefix = r.metricPrefix ∧ (r.run calls).maxSeries = r.maxSeries :=
  run_invariant (I := fun x => x.metricPrefix = r.metricPrefix ∧ x.maxSeries = r.maxSeries)
    (fun x c h => ⟨(metricPrefix_call x c).1.trans h.1, (metricPrefix_call x c).2.trans h.2⟩)
    ⟨rfl, rfl⟩ calls

theorem counterName_congr {name : Bytes} (h : r'.metricPrefix = r.metricPrefix) :
    r'.counterName name = r.counterName name := by
  rw [counterName, counterName, h]

/-- The suffix is added to a name that does not have it. -/
theorem counterName_suffix {name : Bytes}
    (h : ¬ ascii "_total" <:+ qualifiedName r.metricPrefix name) :
    r.counterName (name ++ ascii "_total") = r.counterName name := by
  have hqualified : qualifiedName r.metricPrefix (name ++ ascii "_total") =
      qualifiedName r.metricPrefix name ++ ascii "_total" := by
    unfold qualifiedName
    split_ifs
    · rfl
    · exact (List.append_assoc ..).symm
  have hfalse : (ascii "_total").isSuffixOf (qualifiedName r.metricPrefix name) = false := by
    rw [Bool.eq_false_iff, ne_eq, List.isSuffixOf_iff_suffix]
    exact h
  have htrue : (ascii "_total").isSuffixOf (qualifiedName r.metricPrefix name ++ ascii "_total") =
      true := List.isSuffixOf_iff_suffix.2 (List.suffix_append _ _)
  rw [counterName, counterName, hqualified, htrue, hfalse]
  rfl

/-- What a registry that answered a call keeps. -/
theorem afterCalls_of_answer (hr : r.Registered) {c : RegistryCall ρ}
    {answer : Except ServerError MetricHandle} (h : r.answer c = (answer, r'))
    (later : List (RegistryCall ρ)) :
    (r'.afterCalls later).Registered ∧ (r'.afterCalls later).metricPrefix = r.metricPrefix := by
  have hcall : r.call c.toCall = r' := (r.answer_snd c).symm.trans (congrArg Prod.snd h)
  rw [afterCalls_eq, ← hcall]
  exact ⟨registered_run (registered_call hr _) _,
    (metricPrefix_run _ _).1.trans (metricPrefix_call _ _).1⟩

/-- A counter is given again. -/
theorem counter_given_again (hr : r.Registered) {name name' help help' : Bytes}
    {labels labels' : Labels} {number : ℕ}
    (h : r.answer (.counter name help labels) = (.ok (.counter number), r'))
    (hname : r.counterName name' = r.counterName name) (hperm : labels'.Perm labels)
    (later : List (RegistryCall ρ)) :
    (r'.afterCalls later).answer (.counter name' help' labels') =
      (.ok (.counter number), r'.afterCalls later) := by
  obtain ⟨hregistered, hprefix⟩ := afterCalls_of_answer hr h later
  obtain ⟨sorted, gauge, hlabels, hhas⟩ := counter_has (answer_counter_eq_ok_iff.1 h)
  have hsame := (counterName_congr hprefix).trans hname
  have hlabels' := validateAndSortLabels_perm hperm hlabels
  have hlater := has_run hhas (later.map RegistryCall.toCall)
  rw [← hsame] at hlabels' hlater
  rw [← afterCalls_eq] at hlater
  exact answer_counter_eq_ok_iff.2 (counter_again hregistered hlabels' hlater)

/-- A gauge is given again. -/
theorem gauge_given_again (hr : r.Registered) {name help help' : Bytes} {labels labels' : Labels}
    {number : ℕ} (h : r.answer (.gauge name help labels) = (.ok (.gauge number), r'))
    (hperm : labels'.Perm labels) (later : List (RegistryCall ρ)) :
    (r'.afterCalls later).answer (.gauge name help' labels') =
      (.ok (.gauge number), r'.afterCalls later) := by
  obtain ⟨hregistered, hprefix⟩ := afterCalls_of_answer hr h later
  obtain ⟨sorted, counter, hlabels, hhas⟩ := gauge_has (answer_gauge_eq_ok_iff.1 h)
  have hlabels' := validateAndSortLabels_perm hperm hlabels
  have hlater := has_run hhas (later.map RegistryCall.toCall)
  rw [← hprefix] at hlabels' hlater
  rw [← afterCalls_eq] at hlater
  exact answer_gauge_eq_ok_iff.2 (gauge_again hregistered hlabels' hlater)

/-- **The invariant of the registry.**  After any calls, accepted or rejected: the samples are as
`Registered` and `Distinct` say, and no more than the limit; a rejected call changes nothing; and a
counter or a gauge that was handed out is given again, whatever came in between and however full
the registry is, under the same name, with its labels in any order.  For a counter the name may
have the suffix `_total` or leave it out, as long as the name with the metric prefix does not end in
the suffix by itself. -/
theorem registry_invariant {metricPrefix : Bytes} {maxSeries : ℕ} {r₀ : MetricsRegistry ρ}
    (h : create metricPrefix maxSeries = .ok r₀) (calls : List (RegistryCall ρ)) :
    let r := r₀.afterCalls calls
    r.Registered ∧ r.Distinct ∧ r.samples.length ≤ maxSeries ∧
    (∀ c e r', r.answer c = (.error e, r') → r' = r) ∧
    (∀ name help labels number r₁,
      r.answer (.counter name help labels) = (.ok (.counter number), r₁) →
      ∀ later name' help' labels', r.counterName name' = r.counterName name → labels'.Perm labels →
        (r₁.afterCalls later).answer (.counter name' help' labels') =
          (.ok (.counter number), r₁.afterCalls later)) ∧
    (∀ name help labels number r₁, r.answer (.gauge name help labels) = (.ok (.gauge number), r₁) →
      ∀ later help' labels', labels'.Perm labels →
        (r₁.afterCalls later).answer (.gauge name help' labels') =
          (.ok (.gauge number), r₁.afterCalls later)) ∧
    ∀ name, ¬ ascii "_total" <:+ qualifiedName metricPrefix name →
      r.counterName (name ++ ascii "_total") = r.counterName name := by
  have hcreate : r₀.metricPrefix = metricPrefix ∧ r₀.maxSeries = maxSeries := by
    simp only [create, bind_eq_ok, pure_eq_ok] at h
    obtain ⟨-, -, rfl⟩ := h
    exact ⟨rfl, rfl⟩
  intro r
  have hr : r = r₀.run (calls.map RegistryCall.toCall) := r₀.afterCalls_eq calls
  have hregistered : r.Registered := hr ▸ registered_run (registered_create h) _
  have hlimits := metricPrefix_run r₀ (calls.map RegistryCall.toCall)
  rw [← hr, hcreate.1, hcreate.2] at hlimits
  refine ⟨hregistered, hr ▸ distinct_run (distinct_create h) _, hlimits.2 ▸ hregistered.room,
    fun c e r' hanswer => r.answer_error hanswer, ?_, ?_, ?_⟩
  · exact fun name help labels number r₁ hanswer later name' help' labels' hname hperm =>
      counter_given_again hregistered hanswer hname hperm later
  · exact fun name help labels number r₁ hanswer later help' labels' hperm =>
      gauge_given_again hregistered hanswer hperm later
  · exact fun name hname => counterName_suffix (hlimits.1.symm ▸ hname)

/-- A registry for some series, with nothing in it. -/
def limited (maxSeries : ℕ) : MetricsRegistry Unit :=
  { metricPrefix := ascii "app", maxSeries := maxSeries }

/-- The one series of a full registry is given again. -/
theorem counter_given_again_when_full :
    create (ascii "app") 1 = .ok (limited 1) ∧
    let first := (limited 1).answer (.counter (ascii "requests") (ascii "Requests.") [])
    let later : List (RegistryCall Unit) := [.buildInfo (ascii "1")]
    first.1 = .ok (.counter 0) ∧ (first.2.afterCalls later).samples.length = 1 ∧
    (first.2.afterCalls later).answer (.counter (ascii "requests_total") (ascii "Other.") []) =
      (.ok (.counter 0), first.2.afterCalls later) := by
  have hcreate : create (ascii "app") 1 = .ok (limited 1) := rfl
  have hfirst : ((limited 1).answer (.counter (ascii "requests") (ascii "Requests.") [])).1 =
      .ok (.counter 0) := rfl
  obtain ⟨-, -, -, -, hcounter, -⟩ := registry_invariant hcreate []
  exact ⟨hcreate, hfirst, rfl, hcounter _ _ _ _ _ (Prod.ext hfirst rfl) _ _ _ _ rfl .rfl⟩

/-- With the metric prefix, `total` has the suffix already, and `total_total` has it twice. -/
theorem total_with_suffix_is_another_counter :
    create (ascii "app") 2 = .ok (limited 2) ∧
    let first := (limited 2).answer (.counter (ascii "total") (ascii "All.") [])
    let second := first.2.answer (.counter (ascii "total" ++ ascii "_total") (ascii "All.") [])
    first.1 = .ok (.counter 0) ∧ second.1 = .ok (.counter 1) ∧
      second.2.samples.length = first.2.samples.length + 1 :=
  ⟨rfl, rfl, rfl, rfl⟩

/-! ### The source of a series -/

/-- Every sample has exactly one source. -/
def Sourced (r : MetricsRegistry ρ) : Prop :=
  ∀ sample ∈ r.samples, sample.sources = 1 ∧ sample.hasSource = true

/-- The name, the labels and the series are such that `gauge_fn` takes its producer. -/
def TakesProducer (r : MetricsRegistry ρ) (name : Bytes) (labels : Labels) : Prop :=
  let fullName := qualifiedName r.metricPrefix name
  isValidIdentifier fullName = true ∧ ValidLabels labels ∧
  (∀ sample ∈ r.samples, sample.name = fullName → sample.kind = .gauge) ∧
  match r.find fullName (labels.insertionSort labelLe) with
  | some sample => sample.producer.isSome = true
  | none => r.samples.length < r.maxSeries

/-- The call is not one of `gauge_fn` that is given an empty producer and takes it. -/
def BringsProducer (r : MetricsRegistry ρ) (c : RegistryCall ρ) : Prop :=
  ∀ name help labels, c = .gaugeFn name help none labels → ¬ r.TakesProducer name labels

theorem gaugeFn_isOk_iff {name help : Bytes} {producer : Option ρ} {labels : Labels} :
    (∃ r', r.gaugeFn name help producer labels = .ok r') ↔ r.TakesProducer name labels := by
  unfold MetricsRegistry.gaugeFn
  constructor
  · simp only [bind_eq_ok, validateAndSortLabels_eq_ok_iff]
    rintro ⟨r', sorted, ⟨hname, hvalid, rfl⟩, ⟨⟩, hkind, h⟩
    refine ⟨hname, hvalid, requireOneKindPerName_eq_ok_iff.1 hkind, ?_⟩
    cases hfind : r.find (qualifiedName r.metricPrefix name) (labels.insertionSort labelLe) with
    | some sample =>
      simp only [hfind, bind_eq_ok, ensure_eq_ok] at h
      obtain ⟨⟨⟩, hproducer, -⟩ := h
      exact hproducer
    | none =>
      simp only [hfind, bind_eq_ok, requireRoomForSeries, ensure_eq_ok, decide_eq_true_eq] at h
      obtain ⟨⟨⟩, hroom, -⟩ := h
      exact hroom
  · rintro ⟨hname, hvalid, hkind, h⟩
    have hlabels := validateAndSortLabels_eq_ok_iff.2 ⟨hname, hvalid, rfl⟩
    simp only [hlabels, requireOneKindPerName_eq_ok_iff.2 hkind, ok_bind]
    cases hfind : r.find (qualifiedName r.metricPrefix name) (labels.insertionSort labelLe) with
    | some sample =>
      rw [hfind] at h
      exact ⟨_, bind_eq_ok.2 ⟨(), ensure_eq_ok.2 h, rfl⟩⟩
    | none =>
      rw [hfind] at h
      exact ⟨_, bind_eq_ok.2 ⟨(), ensure_eq_ok.2 (decide_eq_true h), rfl⟩⟩

/-- The call brings a source, or is refused, exactly if it is no empty producer that is taken. -/
theorem bringsProducer_iff {c : RegistryCall ρ} :
    r.BringsProducer c ↔ ∀ r', r.apply c.toCall = .ok r' → c.toCall.bringsSource = true := by
  cases c with
  | gaugeFn name help producer labels =>
    cases producer with
    | none =>
      have happly : (∀ r', r.apply (.gaugeFn name help none labels) = .ok r' → false = true) ↔
          ¬ r.TakesProducer name labels := by
        have hok : (∃ r', r.gaugeFn name help none labels = .ok r') ↔ _ := gaugeFn_isOk_iff
        rw [← hok, not_exists]
        exact forall_congr' fun r' => by simp [apply]
      refine Iff.trans ⟨fun h => h name help labels rfl, ?_⟩ happly.symm
      rintro h _ _ _ ⟨⟩
      exact h
    | some producer => exact iff_of_true (by rintro _ _ _ ⟨⟩) fun _ _ => rfl
  | _ => exact iff_of_true (by rintro _ _ _ ⟨⟩) fun _ _ => rfl

theorem sourced_iff : r.Sourced ↔ ∀ sample ∈ r.samples, sample.sources = 1 := by
  refine forall₂_congr fun sample _ => and_iff_left_of_imp fun hone => ?_
  rw [Sample.hasSource_iff, hone]
  exact Nat.one_pos

/-- What a call does to the sources of the samples. -/
theorem sourced_call (hr : r.Sourced) (c : Call ρ) :
    (r.call c).Sourced ↔ ∀ r', r.apply c = .ok r' → c.bringsSource = true := by
  have htoNat : ∀ b : Bool, b.toNat = 1 ↔ b = true := by decide
  unfold call
  split
  · rename_i r' h
    rw [h]
    simp only [Except.ok.injEq, forall_eq']
    obtain ⟨hbrings, rfl⟩ | ⟨name, help, producer, labels, rfl, before, sample, after, hsamples,
      hproducer, rfl⟩ | ⟨sample, counters, gauges, hadds, rfl⟩ := apply_cases h
    · exact iff_of_true hr hbrings
    · -- the series had a producer before, and so nothing else
      rw [sourced_iff, hsamples, List.forall_mem_append, List.forall_mem_cons] at hr
      have hnew : ({ sample with help, producer } : Sample ρ).sources = producer.isSome.toNat := by
        have hold := hr.2.1
        rw [Sample.sources, hproducer, Bool.toNat_true] at hold
        rw [Sample.sources]
        dsimp only
        omega
      rw [sourced_iff]
      dsimp only
      rw [List.forall_mem_append, List.forall_mem_cons, hnew, htoNat]
      exact ⟨fun h => h.2.1, fun h => ⟨hr.1, h, hr.2.2⟩⟩
    · rw [sourced_iff]
      dsimp only
      rw [List.forall_mem_append, List.forall_mem_singleton, hadds.sources, htoNat]
      exact and_iff_right (sourced_iff.1 hr)
  · rename_i e h
    rw [h]
    exact iff_of_true hr nofun

theorem sourced_answer (hr : r.Sourced) (c : RegistryCall ρ) :
    (r.answer c).2.Sourced ↔ r.BringsProducer c := by
  rw [answer_snd, sourced_call hr, bringsProducer_iff]

theorem sourced_create {metricPrefix : Bytes} {maxSeries : ℕ}
    (h : create metricPrefix maxSeries = .ok r) : r.Sourced := by
  simp only [create, bind_eq_ok, pure_eq_ok] at h
  obtain ⟨-, -, rfl⟩ := h
  exact fun sample hsample => absurd hsample List.not_mem_nil

/-- The states of a run are those of its rest, and the one it starts in. -/
theorem sourced_states_iff (hr : r.Sourced) (calls : List (RegistryCall ρ)) :
    (∀ before, before <+: calls → (r.afterCalls before).Sourced) ↔
      ∀ before c, before ++ [c] <+: calls → (r.afterCalls before).BringsProducer c := by
  constructor
  · intro h before c hprefix
    have hbefore := h before ((List.prefix_append _ _).trans hprefix)
    have hafter := h (before ++ [c]) hprefix
    rw [afterCalls, List.foldl_concat] at hafter
    exact (sourced_answer hbefore c).1 hafter
  · intro h before
    induction before using List.reverseRecOn with
    | nil => exact fun _ => hr
    | append_singleton before c ih =>
      intro hprefix
      have hbefore := ih ((List.prefix_append _ _).trans hprefix)
      rw [afterCalls, List.foldl_concat]
      exact (sourced_answer hbefore c).2 (h before c hprefix)

/-- **Every series has exactly one source, in every state of a run, exactly if no call of the run
hands `gauge_fn` an empty producer that it takes.** -/
theorem every_series_has_a_source_iff {metricPrefix : Bytes} {maxSeries : ℕ}
    {r₀ : MetricsRegistry ρ} (h : create metricPrefix maxSeries = .ok r₀)
    (calls : List (RegistryCall ρ)) :
    (∀ before, before <+: calls → ∀ sample ∈ (r₀.afterCalls before).samples,
      sample.sources = 1 ∧ sample.hasSource = true) ↔
    ∀ before c, before ++ [c] <+: calls → (r₀.afterCalls before).BringsProducer c :=
  sourced_states_iff (sourced_create h) calls

theorem computed_gauge_has_a_source :
    create (ascii "app") 2 = .ok (limited 2) ∧
    ∀ before, before <+: [RegistryCall.gaugeFn (ascii "depth") (ascii "Depth.") (some ()) []] →
      ∀ sample ∈ ((limited 2).afterCalls before).samples,
        sample.sources = 1 ∧ sample.hasSource = true := by
  have hcreate : create (ascii "app") 2 = .ok (limited 2) := rfl
  refine ⟨hcreate, (every_series_has_a_source_iff hcreate _).2 ?_⟩
  rintro before c hprefix name help labels rfl
  have hmem := hprefix.subset (List.mem_append_right before List.mem_cons_self)
  cases List.mem_singleton.1 hmem

/-- A computed gauge without a function is registered, and has nothing to show. -/
theorem empty_producer_is_registered :
    create (ascii "app") 2 = .ok (limited 2) ∧
    let depth := (limited 2).answer (.gaugeFn (ascii "depth") (ascii "Depth.") none [])
    depth.1 = .ok .none ∧ depth.2.samples.map Sample.sources = [0] ∧
      depth.2.samples.map Sample.hasSource = [false] :=
  ⟨rfl, rfl, rfl, rfl⟩

end MetricsRegistry

end ErikslundHttp
