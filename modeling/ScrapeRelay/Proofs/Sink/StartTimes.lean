import ScrapeRelay.Proofs.Sink.Sweeps

/-!
# Start times of what is delivered

The ledger is asked about each sample of a metric that accumulates, but a time series has one
start only: that which was told of its first sample (`commit_starts`). What is told of the
later ones is dropped. So the start is right for all points of a series whose values do not
fall within the transaction, and it is too early for those behind a fall
(`start_before_fall`).
-/

namespace ScrapeRelay

namespace Ledger

variable {ledger : Ledger} {job key : String} {entry : SeriesStart}

def Knows (ledger : Ledger) (job : String) : Prop := (ledger.records.get? job).isSome = true

/-- What the ledger holds of a series. -/
def Holds (ledger : Ledger) (job key : String) (entry : SeriesStart) : Prop :=
  ∃ record, ledger.records.get? job = some record ∧ record.series.get? key = some entry

theorem Knows.observe {other : String} (known : ledger.Knows other) (job key : String)
    (value : Binary64) (time : Int64) :
    (ledger.observe job key value time).1.Knows other := by
  unfold Knows at *
  by_cases own : other = job
  · subst own
    obtain ⟨record, found⟩ := Option.isSome_iff_exists.mp known
    cases gap : value.isNaN with
    | true => rwa [observe_of_nan found gap]
    | false =>
        rw [observe_of_known found gap, keeping, SortedMap.get?_insert_self]
        rfl
  · rw [(ledger.observe_frame job key value time).2.2.2 other own]
    exact known

/-- A value of a known job opens its series, or goes on with it. -/
theorem Knows.holds (known : ledger.Knows job) {value : Binary64}
    (valued : value.isNaN = false) (key : String) (time : Int64) :
    (ledger.observe job key value time).1.Holds job key
      ⟨(ledger.observe job key value time).2, value⟩ := by
  obtain ⟨record, found⟩ := Option.isSome_iff_exists.mp known
  rw [observe_of_known found valued]
  refine ⟨_, SortedMap.get?_insert_self, ?_⟩
  rw [SortedMap.get?_insert_self, Option.some.injEq]
  exact congrArg (SeriesStart.mk _) (SeriesStart.after_last _ value time)

namespace Holds

theorem observe_of_ne (held : ledger.Holds job key entry) {other : String} (apart : key ≠ other)
    (value : Binary64) (time : Int64) :
    (ledger.observe job other value time).1.Holds job key entry := by
  obtain ⟨record, found, series⟩ := held
  cases gap : value.isNaN with
  | true =>
      rw [observe_of_nan found gap]
      exact ⟨record, found, series⟩
  | false =>
      rw [observe_of_known found gap]
      refine ⟨_, SortedMap.get?_insert_self, ?_⟩
      rw [SortedMap.get?_insert_of_ne apart]
      exact series

theorem observe_gap (held : ledger.Holds job key entry) {value : Binary64}
    (gap : value.isNaN = true) (time : Int64) :
    ledger.observe job key value time = (ledger, entry.start) := by
  obtain ⟨record, found, series⟩ := held
  rw [observe_of_nan found gap, series]
  rfl

theorem observe_steady (held : ledger.Holds job key entry) {value : Binary64}
    (valued : value.isNaN = false) (steady : isReset entry.last value = false) (time : Int64) :
    (ledger.observe job key value time).2 = entry.start ∧
      (ledger.observe job key value time).1.Holds job key ⟨entry.start, value⟩ := by
  obtain ⟨record, found, series⟩ := held
  have after : SeriesStart.after (record.series.get? key) value time = ⟨entry.start, value⟩ := by
    simp [SeriesStart.after, series, steady]
  rw [observe_of_known found valued, after]
  refine ⟨rfl, _, SortedMap.get?_insert_self, ?_⟩
  rw [SortedMap.get?_insert_self]

end Holds

end Ledger

namespace Translation

variable {ledger : Ledger} {job : String} {kind : MetricKind} {keys : List String}
  {samples early middle : List Sample} {first sample : Sample}

/-- What the ledger tells of a sample that stands behind others of its metric. -/
def told (ledger : Ledger) (job : String) (kind : MetricKind) (keys : List String)
    (early : List Sample) (sample : Sample) : Int64 :=
  ((early.foldl (addSample job kind keys) (ledger, [])).1.observe job sample.seriesKey
    sample.value sample.timestamp).2

/-- The ledger with which the metric of a name is made. -/
def met (ledger : Ledger) (job : String) (samples : List Sample) (name : String) : Ledger :=
  (metrics ledger job samples
    ((distinct (samples.map Sample.name)).takeWhile (· ≠ name))).1

theorem addSample_ledger (accumulates : kind.accumulates = true)
    (state : Ledger × List TimeSeries) (sample : Sample) :
    (addSample job kind keys state sample).1 =
      (state.1.observe job sample.seriesKey sample.value sample.timestamp).1 := by
  simp [addSample, accumulates]

theorem addSample_series (state : Ledger × List TimeSeries) (sample : Sample) :
    (addSample job kind keys state sample).2 =
      addPoint (if kind.accumulates then
          some (state.1.observe job sample.seriesKey sample.value sample.timestamp).2 else none)
        (labelValues keys sample) ⟨sample.timestamp, sample.value⟩ state.2 := by
  cases accumulates : kind.accumulates <;> simp [addSample, accumulates]

theorem foldl_addSample_keeps {holds : Ledger → Prop}
    (step : ∀ before, holds before → ∀ key value time,
      holds (before.observe job key value time).1)
    (start : holds ledger) (series : List TimeSeries) (samples : List Sample)
    (kind : MetricKind) (keys : List String) :
    holds (samples.foldl (addSample job kind keys) (ledger, series)).1 :=
  (foldl_addSample_alike (answersAlike_of_keeps step) ⟨rfl, start⟩ kind keys series samples).2.2

/-- A series starts with what was told of the first sample that has its labels. -/
theorem foldl_addSample_starts {series : TimeSeries}
    (member : series ∈ (samples.foldl (addSample job kind keys) (ledger, [])).2) :
    ∃ early first later, samples = early ++ first :: later ∧
      labelValues keys first = series.labelValues ∧
      (∀ sample ∈ early, labelValues keys sample ≠ series.labelValues) ∧
      series.start = if kind.accumulates then some (told ledger job kind keys early first)
        else none := by
  induction samples using List.reverseRecOn generalizing series with
  | nil => simp at member
  | append_singleton samples sample ih =>
      have grouped := foldl_addSample_grouped ledger job kind keys samples
      rw [List.foldl_append, List.foldl_cons, List.foldl_nil, addSample_series] at member
      rcases mem_addPoint grouped.distinct member with
        ⟨old, _⟩ | ⟨before, old, same, rfl⟩ | ⟨absent, rfl⟩
      · obtain ⟨early, first, later, rfl, facts⟩ := ih old
        exact ⟨early, first, later ++ [sample], by simp, facts⟩
      · obtain ⟨early, first, later, rfl, facts⟩ := ih old
        exact ⟨early, first, later ++ [sample], by simp, facts⟩
      · refine ⟨samples, sample, [], rfl, rfl, ?_, rfl⟩
        intro other earlier same
        exact absent ((grouped.values _).mpr ⟨other, earlier, same⟩)

/-- The values that samples give to a series of the ledger. -/
def valuesOf (key : String) (samples : List Sample) : List Binary64 :=
  (samples.filter (fun sample => sample.seriesKey = key && !sample.value.isNaN)).map Sample.value

theorem valuesOf_cons (key : String) (sample : Sample) (rest : List Sample) :
    valuesOf key (sample :: rest) =
      if sample.seriesKey = key ∧ sample.value.isNaN = false then
        sample.value :: valuesOf key rest
      else valuesOf key rest := by
  by_cases counts : sample.seriesKey = key ∧ sample.value.isNaN = false
  · simp [valuesOf, counts]
  · rw [if_neg counts, valuesOf, List.filter_cons_of_neg (by simpa using counts), valuesOf]

/-- No value resets a series that had the value before it last. -/
def Steady (values : List Binary64) : Prop :=
  values.IsChain (fun last value => Ledger.isReset last value = false)

/-- While the values of a series do not fall, its start is told again and again. -/
theorem observe_of_steady {key : String} {entry : SeriesStart} {state : Ledger × List TimeSeries}
    (accumulates : kind.accumulates = true) (held : state.1.Holds job key entry)
    (own : sample.seriesKey = key)
    (steady : Steady (entry.last :: valuesOf key (middle ++ [sample]))) :
    ((middle.foldl (addSample job kind keys) state).1.observe job key sample.value
      sample.timestamp).2 = entry.start := by
  induction middle generalizing state entry with
  | nil =>
      cases gap : sample.value.isNaN with
      | true => rw [List.foldl_nil, held.observe_gap gap]
      | false =>
          rw [List.nil_append, valuesOf_cons, if_pos ⟨own, gap⟩] at steady
          exact (held.observe_steady gap (List.isChain_cons_cons.mp steady).1 _).1
  | cons next rest ih =>
      rw [List.cons_append, valuesOf_cons] at steady
      rw [List.foldl_cons]
      by_cases counts : next.seriesKey = key ∧ next.value.isNaN = false
      · rw [if_pos counts] at steady
        obtain ⟨rfl, valued⟩ := counts
        obtain ⟨goesOn, steady⟩ := List.isChain_cons_cons.mp steady
        have after := (held.observe_steady valued goesOn next.timestamp).2
        rw [← addSample_ledger accumulates] at after
        have told := ih after steady
        exact told
      · rw [if_neg counts] at steady
        refine ih ?_ steady
        rw [addSample_ledger accumulates]
        by_cases same : next.seriesKey = key
        · subst same
          have gap : next.value.isNaN = true := by simpa using counts
          rw [held.observe_gap gap]
          exact held
        · exact held.observe_of_ne (Ne.symm same) _ _

/-- Of a sample behind others that do not let its series fall, the same is told as of the
first of them. -/
theorem told_of_steady (accumulates : kind.accumulates = true) (known : ledger.Knows job)
    (valued : first.value.isNaN = false) (same : sample.seriesKey = first.seriesKey)
    (steady : Steady (valuesOf first.seriesKey (first :: (middle ++ [sample])))) :
    told ledger job kind keys (early ++ first :: middle) sample =
      told ledger job kind keys early first := by
  have step (before : Ledger) (known : before.Knows job) := known.observe job
  have reached := foldl_addSample_keeps step known []
  have held := (reached early kind keys).holds valued first.seriesKey first.timestamp
  rw [← addSample_ledger accumulates] at held
  rw [valuesOf_cons, if_pos ⟨rfl, valued⟩] at steady
  rw [told, told, same, List.foldl_append, List.foldl_cons]
  exact observe_of_steady accumulates held same steady

theorem mem_metrics_met {made : Metric} {names : List String} (distinct : names.Nodup)
    (member : made ∈ (metrics ledger job samples names).2) :
    made = (metric (metrics ledger job samples
      (names.takeWhile (· ≠ made.descriptor.name))).1 job made.descriptor.name
      (samples.filter (fun sample => sample.name = made.descriptor.name))).2 := by
  induction names generalizing ledger with
  | nil => simp [metrics] at member
  | cons name rest ih =>
      obtain ⟨fresh, distinct⟩ := List.nodup_cons.mp distinct
      simp only [metrics] at member
      rcases List.mem_cons.mp member with rfl | later
      · rw [metric_name, List.takeWhile_cons_of_neg (by simp)]
        rfl
      · have named : made.descriptor.name ∈ rest := by
          rw [← metrics_names _ job samples rest]
          exact List.mem_map_of_mem later
        have apart : name ≠ made.descriptor.name := fun same => fresh (same ▸ named)
        rw [List.takeWhile_cons_of_pos (by simpa using apart)]
        exact ih distinct later

theorem met_knows (known : ledger.Knows job) (samples : List Sample) (name : String) :
    (met ledger job samples name).Knows job := by
  have step (before : Ledger) (known : before.Knows job) := known.observe job
  exact (metrics_alike (answersAlike_of_keeps step) ⟨rfl, known⟩ samples _).2.2

/-- A sample opens a series of a metric: it is the first with these labels, and the series
starts with what is told of it. -/
structure Opens (ledger : Ledger) (job : String) (metric : Metric) (series : TimeSeries)
    (early : List Sample) (first : Sample) : Prop where
  values : labelValues metric.descriptor.labelKeys first = series.labelValues
  fresh : ∀ sample ∈ early,
    labelValues metric.descriptor.labelKeys sample ≠ series.labelValues
  start : series.start = if metric.descriptor.kind.accumulates then
    some (told ledger job metric.descriptor.kind metric.descriptor.labelKeys early first) else none

theorem metricsOf_opens {made : Metric} {series : TimeSeries}
    (member : made ∈ (metricsOf ledger job samples).2) (inside : series ∈ made.series) :
    ∃ early first later,
      samples.filter (fun sample => sample.name = made.descriptor.name) =
        early ++ first :: later ∧
      Opens (met ledger job samples made.descriptor.name) job made series early first := by
  have same := mem_metrics_met (nodup_distinct _) member
  rw [same] at inside
  obtain ⟨early, first, later, split, values, fresh, start⟩ := foldl_addSample_starts inside
  refine ⟨early, first, later, split, ?_⟩
  have descriptor := congrArg Metric.descriptor same
  refine ⟨?_, ?_, ?_⟩
  · rw [descriptor]
    exact values
  · rw [descriptor]
    exact fresh
  · rw [descriptor]
    exact start

end Translation

namespace Transaction

open Translation

theorem batchesOf_knows {ledger : Ledger} {job : String} (known : ledger.Knows job)
    (receiver : String) (targets : List (Node × PendingTarget)) :
    (batchesOf receiver ledger targets).1.Knows job := by
  induction targets generalizing ledger with
  | nil => exact known
  | cons target rest ih =>
      have step (before : Ledger) (known : before.Knows job) :=
        known.observe (ledgerKey target.1.job target.1.address)
      exact ih (metricsOf_keeps step known target.2.samples)

/-- Each time series that a commit delivers starts with what the ledger told of the first of
its samples. As long as the values of that series do not fall, the ledger tells the same of
the later samples. -/
theorem commit_starts (receiver : String) (now : Nat) (ledger : Ledger)
    (transaction : Transaction) (place : Fin transaction.targets.length) :
    let node := (transaction.targets.get place).1
    let pending := (transaction.targets.get place).2
    let key := ledgerKey node.job node.address
    let before := (batchesOf receiver ledger (transaction.targets.take place)).1
    let metrics := (metricsOf before key pending.samples).2
    (transaction.commit receiver now ledger).2[place.val]? =
        some ⟨receiver, node, pending.generation, metrics⟩ ∧
      ∀ metric ∈ metrics, ∀ series ∈ metric.series, ∃ early first later,
        pending.samples.filter (fun sample => sample.name = metric.descriptor.name) =
          early ++ first :: later ∧
        Opens (met before key pending.samples metric.descriptor.name) key metric series early
          first ∧
        (metric.descriptor.kind.accumulates = true → ledger.Knows key →
          first.value.isNaN = false →
          ∀ middle sample rest, later = middle ++ sample :: rest →
            sample.seriesKey = first.seriesKey →
            Steady (valuesOf first.seriesKey (first :: (middle ++ [sample]))) →
            series.start =
              some (told (met before key pending.samples metric.descriptor.name) key
                metric.descriptor.kind metric.descriptor.labelKeys (early ++ first :: middle)
                sample)) := by
  intro node pending key before metrics
  refine ⟨batchesOf_getElem? receiver ledger transaction.targets place, ?_⟩
  intro metric member series inside
  obtain ⟨early, first, later, split, opens⟩ := metricsOf_opens member inside
  refine ⟨early, first, later, split, opens, ?_⟩
  intro accumulates known valued middle sample rest _ same steady
  have reached := met_knows (batchesOf_knows known receiver (transaction.targets.take place))
    pending.samples metric.descriptor.name
  rw [opens.start, if_pos accumulates, told_of_steady accumulates reached valued same steady]

/-- A counter that is read twice in one scrape and falls in between. -/
def fallingSamples : List (Node × Sample) :=
  [(⟨"web", "10.0.0.1:80"⟩, ⟨"hits", .empty, .one, 1000, .counter⟩),
    (⟨"web", "10.0.0.1:80"⟩, ⟨"hits", .empty, .zero, 2000, .counter⟩)]

/-- The ledger says that the series starts anew with the second value, which is delivered with
the start of the first. -/
theorem start_before_fall :
    let filled := new.appendAll .unrestricted 0 (.new defaultStaleness) fallingSamples
    let first : Sample := ⟨"hits", .empty, .one, 1000, .counter⟩
    let second : Sample := ⟨"hits", .empty, .zero, 2000, .counter⟩
    (filled.2.commit "relay" 0 filled.1).2.map (fun batch => batch.metrics) =
        [[⟨⟨"hits", .cumulative, []⟩,
          [⟨some 1000, [], [⟨1000, .one⟩, ⟨2000, .zero⟩]⟩]⟩]] ∧
      told filled.1 "web/10.0.0.1:80" .cumulative [] [] first = 1000 ∧
      told filled.1 "web/10.0.0.1:80" .cumulative [] [first] second = 2000 := by
  decide +kernel

end Transaction

end ScrapeRelay
