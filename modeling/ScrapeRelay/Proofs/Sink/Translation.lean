import Mathlib.Data.Fintype.EquivFin
import Mathlib.Data.List.Induction
import ScrapeRelay.Proofs.SortedMap
import ScrapeRelay.Translation

/-!
# Metrics and the samples behind them

Translating samples groups them twice: by name into metrics, and by the values of their
labels into time series. Neither grouping depends on the ledger, which only supplies the
start times. A metric holds the samples of its name in their order (`Grouped`), so that each
sample is found again as one point, and each point comes from one sample (`Renders`).
-/

namespace ScrapeRelay

/-- Where a point stands: the places of its metric, its series and itself. -/
structure PointPlace where
  metric : Nat
  series : Nat
  point : Nat
deriving DecidableEq

namespace PointPlace

def IsPresent (metrics : List Metric) (place : PointPlace) : Prop :=
  ∃ metric series point, metrics[place.metric]? = some metric ∧
    metric.series[place.series]? = some series ∧ series.points[place.point]? = some point

/-- The point there has time and value of a sample, and stands in the metric of its name and
in the series that has its labels, a missing one being empty. -/
def Holds (metrics : List Metric) (place : PointPlace) (sample : Sample) : Prop :=
  ∃ metric series, metrics[place.metric]? = some metric ∧
    metric.series[place.series]? = some series ∧
    series.points[place.point]? = some ⟨sample.timestamp, sample.value⟩ ∧
    metric.descriptor.name = sample.name ∧
    series.labelValues =
      metric.descriptor.labelKeys.map (fun key => (sample.labels.get? key).getD "")

end PointPlace

/-- A metric describes those samples that have its name. -/
structure Metric.Describes (metric : Metric) (samples : List Sample) : Prop where
  kind : (samples.find? (fun sample => sample.name = metric.descriptor.name)).map
    (fun sample => sample.kind.metricKind) = some metric.descriptor.kind
  keysAscending : metric.descriptor.labelKeys.Pairwise (· < ·)
  keys : ∀ key, key ∈ metric.descriptor.labelKeys ↔
    (key ≠ jobLabel ∧ key ≠ instanceLabel) ∧
      ∃ sample ∈ samples, sample.name = metric.descriptor.name ∧ key ∈ sample.labels.keys
  width : ∀ series ∈ metric.series,
    series.labelValues.length = metric.descriptor.labelKeys.length
  seriesDistinct : (metric.series.map TimeSeries.labelValues).Nodup
  nonempty : ∀ series ∈ metric.series, series.points ≠ []

/-- Metrics hold exactly the given samples: one metric for each name, in order of first
appearance, and one point for each sample, in order within each series. -/
structure Renders (metrics : List Metric) (samples : List Sample) : Prop where
  namesDistinct : (metrics.map (fun metric => metric.descriptor.name)).Nodup
  names : ∀ name, name ∈ metrics.map (fun metric => metric.descriptor.name) ↔
    name ∈ samples.map Sample.name
  namesOrdered : (metrics.map (fun metric => metric.descriptor.name)).Pairwise
    (fun left right =>
      (samples.map Sample.name).idxOf left < (samples.map Sample.name).idxOf right)
  described : ∀ metric ∈ metrics, metric.Describes samples
  points : ∃ place : Fin samples.length ≃ { place : PointPlace // place.IsPresent metrics },
    (∀ index, (place index).val.Holds metrics samples[index]) ∧
      ∀ left right, left < right →
        (place left).val.metric = (place right).val.metric →
        (place left).val.series = (place right).val.series →
        (place left).val.point < (place right).val.point

namespace Translation

variable {ledger : Ledger} {job name : String} {samples rest : List Sample} {sample : Sample}
  {keys values : List String} {series : List TimeSeries} {kind : MetricKind}

theorem mem_distinct {names : List String} : name ∈ distinct names ↔ name ∈ names := by
  induction names with
  | nil => simp [distinct]
  | cons first rest ih =>
      simp only [distinct, List.mem_cons, List.mem_filter, ih, decide_eq_true_eq]
      constructor
      · rintro (same | ⟨member, _⟩)
        · exact .inl same
        · exact .inr member
      · rintro (same | member)
        · exact .inl same
        · by_cases same : name = first
          · exact .inl same
          · exact .inr ⟨member, same⟩

theorem nodup_distinct (names : List String) : (distinct names).Nodup := by
  induction names with
  | nil => exact .nil
  | cons first rest ih =>
      refine List.nodup_cons.mpr ⟨?_, ih.filter _⟩
      intro member
      simp at member

theorem distinct_ordered (names : List String) :
    (distinct names).Pairwise (fun left right => names.idxOf left < names.idxOf right) := by
  induction names with
  | nil => exact .nil
  | cons first rest ih =>
      have later {name : String} (member : name ∈ (distinct rest).filter (· ≠ first)) :
          (first :: rest).idxOf name = rest.idxOf name + 1 := by
        have different : first ≠ name := by
          rintro rfl
          simp at member
        exact List.idxOf_cons_ne rest different
      refine List.pairwise_cons.mpr ⟨?_, ?_⟩
      · intro name member
        rw [later member, List.idxOf_cons_self]
        omega
      · refine (ih.filter _).imp_of_mem ?_
        intro left right leftMember rightMember before
        rw [later leftMember, later rightMember]
        omega

theorem mem_labelKeys {key : String} :
    key ∈ labelKeys samples ↔
      (key ≠ jobLabel ∧ key ≠ instanceLabel) ∧ ∃ sample ∈ samples, key ∈ sample.labels.keys := by
  rw [labelKeys, SortedMap.mem_keys_iff, SortedMap.get?_ofList_map]
  simp only [List.mem_filter, List.mem_flatMap, Bool.and_eq_true, decide_eq_true_eq]
  by_cases own : key ≠ jobLabel ∧ key ≠ instanceLabel
  · by_cases held : ∃ sample ∈ samples, key ∈ sample.labels.keys <;> simp [own, held]
  · simp [own]

/-- Each series holds the points of those samples that have its label values, in their
order. -/
structure Grouped (keys : List String) (samples : List Sample) (series : List TimeSeries) :
    Prop where
  distinct : (series.map TimeSeries.labelValues).Nodup
  values : ∀ values, values ∈ series.map TimeSeries.labelValues ↔
    ∃ sample ∈ samples, labelValues keys sample = values
  points : ∀ held ∈ series, held.points =
    (samples.filter (fun sample => labelValues keys sample = held.labelValues)).map
      (fun sample => ⟨sample.timestamp, sample.value⟩)

theorem addPoint_labelValues (start : Option Int64) (values : List String) (point : Point)
    (series : List TimeSeries) :
    (addPoint start values point series).map TimeSeries.labelValues =
      if values ∈ series.map TimeSeries.labelValues then series.map TimeSeries.labelValues
      else series.map TimeSeries.labelValues ++ [values] := by
  induction series with
  | nil => simp [addPoint]
  | cons first rest ih =>
      by_cases same : first.labelValues = values
      · simp [addPoint, same]
      · have apart : values ≠ first.labelValues := fun equal => same equal.symm
        by_cases present : values ∈ rest.map TimeSeries.labelValues
        · rw [if_pos present] at ih
          rw [if_pos (by simpa using Or.inr (by simpa using present))]
          simp [addPoint, same, ih]
        · rw [if_neg present] at ih
          rw [if_neg (by simpa [apart] using present)]
          simp [addPoint, same, ih]

theorem mem_addPoint {start : Option Int64} {point : Point} {held : TimeSeries}
    (distinct : (series.map TimeSeries.labelValues).Nodup)
    (member : held ∈ addPoint start values point series) :
    (held ∈ series ∧ held.labelValues ≠ values) ∨
      (∃ before ∈ series, before.labelValues = values ∧
        held = { before with points := before.points ++ [point] }) ∨
      (values ∉ series.map TimeSeries.labelValues ∧ held = ⟨start, values, [point]⟩) := by
  induction series with
  | nil => exact .inr (.inr ⟨by simp, by simpa [addPoint] using member⟩)
  | cons first rest ih =>
      obtain ⟨fresh, distinct⟩ := List.nodup_cons.mp distinct
      by_cases same : first.labelValues = values
      · rw [addPoint, if_pos same] at member
        rcases List.mem_cons.mp member with grown | other
        · exact .inr (.inl ⟨first, List.mem_cons_self, same, grown⟩)
        · refine .inl ⟨List.mem_cons_of_mem _ other, ?_⟩
          intro equal
          apply fresh
          rw [same, ← equal]
          exact List.mem_map_of_mem other
      · rw [addPoint, if_neg same] at member
        rcases List.mem_cons.mp member with rfl | other
        · exact .inl ⟨List.mem_cons_self, same⟩
        · rcases ih distinct other with ⟨old, apart⟩ | ⟨before, old, grown⟩ | ⟨absent, opened⟩
          · exact .inl ⟨List.mem_cons_of_mem _ old, apart⟩
          · exact .inr (.inl ⟨before, List.mem_cons_of_mem _ old, grown⟩)
          · refine .inr (.inr ⟨?_, opened⟩)
            simp only [List.map_cons, List.mem_cons, not_or]
            exact ⟨fun equal => same equal.symm, absent⟩

namespace Grouped

theorem nil (keys : List String) : Grouped keys [] [] := by
  refine ⟨.nil, ?_, ?_⟩ <;> simp

theorem concat (grouped : Grouped keys samples series) (start : Option Int64)
    (sample : Sample) :
    Grouped keys (samples ++ [sample])
      (addPoint start (labelValues keys sample) ⟨sample.timestamp, sample.value⟩ series) := by
  have shown := addPoint_labelValues start (labelValues keys sample)
    ⟨sample.timestamp, sample.value⟩ series
  refine ⟨?_, ?_, ?_⟩
  · rw [shown]
    split
    · exact grouped.distinct
    · rename_i absent
      refine List.nodup_append.mpr ⟨grouped.distinct, by simp, ?_⟩
      intro old member new same equal
      obtain rfl := List.mem_singleton.mp same
      exact absent (equal ▸ member)
  · intro values
    rw [shown]
    split
    · rename_i present
      obtain ⟨twin, member, same⟩ := (grouped.values _).mp present
      rw [grouped.values]
      constructor
      · rintro ⟨other, held, equal⟩
        exact ⟨other, List.mem_append_left _ held, equal⟩
      · rintro ⟨other, held, equal⟩
        rcases List.mem_append.mp held with earlier | last
        · exact ⟨other, earlier, equal⟩
        · rw [List.mem_singleton.mp last] at equal
          exact ⟨twin, member, same.trans equal⟩
    · simp only [List.mem_append, List.mem_singleton, grouped.values]
      constructor
      · rintro (⟨other, held, equal⟩ | rfl)
        · exact ⟨other, .inl held, equal⟩
        · exact ⟨sample, .inr rfl, rfl⟩
      · rintro ⟨other, earlier | rfl, equal⟩
        · exact .inl ⟨other, earlier, equal⟩
        · exact .inr equal.symm
  · intro held member
    rw [List.filter_append, List.map_append]
    rcases mem_addPoint grouped.distinct member with
      ⟨old, apart⟩ | ⟨before, old, same, rfl⟩ | ⟨absent, rfl⟩
    · have other : labelValues keys sample ≠ held.labelValues := fun equal => apart equal.symm
      rw [List.filter_cons_of_neg (by simpa using other), List.filter_nil, List.map_nil,
        List.append_nil]
      exact grouped.points held old
    · rw [List.filter_cons_of_pos (by simpa using same.symm), List.filter_nil]
      simp only [grouped.points before old, List.map_cons, List.map_nil]
    · have none : samples.filter
          (fun other => labelValues keys other = labelValues keys sample) = [] := by
        refine List.filter_eq_nil_iff.mpr ?_
        intro other earlier
        simp only [decide_eq_true_eq]
        intro equal
        exact absent ((grouped.values _).mpr ⟨other, earlier, equal⟩)
      simp [none]

end Grouped

/-- Whatever the ledger is, the samples of a metric are grouped by their label values. -/
theorem foldl_addSample_grouped (ledger : Ledger) (job : String) (kind : MetricKind)
    (keys : List String) (samples : List Sample) :
    Grouped keys samples (samples.foldl (addSample job kind keys) (ledger, [])).2 := by
  induction samples using List.reverseRecOn with
  | nil => exact .nil keys
  | append_singleton samples sample ih =>
      rw [List.foldl_append, List.foldl_cons, List.foldl_nil]
      exact ih.concat _ sample

/-- Ledgers in this relation answer alike when a job is observed, and go on doing so. -/
def AnswersAlike (job : String) (related : Ledger → Ledger → Prop) : Prop :=
  ∀ left right, related left right → ∀ key value time,
    (left.observe job key value time).2 = (right.observe job key value time).2 ∧
      related (left.observe job key value time).1 (right.observe job key value time).1

section answers

variable {related : Ledger → Ledger → Prop} {left right : Ledger}

theorem addSample_alike (alike : AnswersAlike job related) (start : related left right)
    (kind : MetricKind) (keys : List String) (series : List TimeSeries) (sample : Sample) :
    (addSample job kind keys (left, series) sample).2 =
        (addSample job kind keys (right, series) sample).2 ∧
      related (addSample job kind keys (left, series) sample).1
        (addSample job kind keys (right, series) sample).1 := by
  cases accumulates : kind.accumulates with
  | false =>
      simp only [addSample, accumulates, Bool.false_eq_true, if_false]
      exact ⟨trivial, start⟩
  | true =>
      obtain ⟨answer, after⟩ :=
        alike left right start sample.seriesKey sample.value sample.timestamp
      simp only [addSample, accumulates, if_true, answer]
      exact ⟨trivial, after⟩

theorem foldl_addSample_alike (alike : AnswersAlike job related) (start : related left right)
    (kind : MetricKind) (keys : List String) (series : List TimeSeries)
    (samples : List Sample) :
    (samples.foldl (addSample job kind keys) (left, series)).2 =
        (samples.foldl (addSample job kind keys) (right, series)).2 ∧
      related (samples.foldl (addSample job kind keys) (left, series)).1
        (samples.foldl (addSample job kind keys) (right, series)).1 := by
  induction samples using List.reverseRecOn with
  | nil => exact ⟨rfl, start⟩
  | append_singleton samples sample ih =>
      simp only [List.foldl_append, List.foldl_cons, List.foldl_nil]
      obtain ⟨same, after⟩ := ih
      have step := addSample_alike alike after kind keys
        (samples.foldl (addSample job kind keys) (left, series)).2 sample
      rw [Prod.mk.eta] at step
      rwa [same, Prod.mk.eta] at step

theorem metrics_alike (alike : AnswersAlike job related) (start : related left right)
    (samples : List Sample) (names : List String) :
    (metrics left job samples names).2 = (metrics right job samples names).2 ∧
      related (metrics left job samples names).1 (metrics right job samples names).1 := by
  induction names generalizing left right with
  | nil => exact ⟨rfl, start⟩
  | cons name rest ih =>
      obtain ⟨series, after⟩ := foldl_addSample_alike alike start _
        (labelKeys (samples.filter (fun sample => sample.name = name))) []
        (samples.filter (fun sample => sample.name = name))
      obtain ⟨others, last⟩ := ih after
      refine ⟨?_, last⟩
      simp only [metrics, metric, series]
      exact congrArg _ others

/-- Ledgers that answer alike make the same metrics of some samples. -/
theorem metricsOf_alike (alike : AnswersAlike job related) (start : related left right)
    (samples : List Sample) :
    (metricsOf left job samples).2 = (metricsOf right job samples).2 ∧
      related (metricsOf left job samples).1 (metricsOf right job samples).1 :=
  metrics_alike alike start samples _

/-- A ledger answers like itself, and keeps what observations of the job keep. -/
theorem answersAlike_of_keeps {holds : Ledger → Prop}
    (step : ∀ before, holds before → ∀ key value time,
      holds (before.observe job key value time).1) :
    AnswersAlike job fun left right => left = right ∧ holds left := by
  rintro left _ ⟨rfl, held⟩ key value time
  exact ⟨rfl, rfl, step left held key value time⟩

/-- Translating does to a ledger what observations of the job do. -/
theorem metricsOf_keeps {holds : Ledger → Prop}
    (step : ∀ before, holds before → ∀ key value time,
      holds (before.observe job key value time).1)
    (start : holds ledger) (samples : List Sample) :
    holds (metricsOf ledger job samples).1 :=
  (metricsOf_alike (answersAlike_of_keeps step) ⟨rfl, start⟩ samples).2.2

end answers

theorem metric_descriptor (ledger : Ledger) (job name : String) (first : Sample)
    (rest : List Sample) :
    (metric ledger job name (first :: rest)).2.descriptor =
      ⟨name, first.kind.metricKind, labelKeys (first :: rest)⟩ := rfl

theorem metric_name (ledger : Ledger) (job name : String) (samples : List Sample) :
    (metric ledger job name samples).2.descriptor.name = name := rfl

theorem metric_grouped (ledger : Ledger) (job name : String) (samples : List Sample) :
    Grouped (metric ledger job name samples).2.descriptor.labelKeys samples
      (metric ledger job name samples).2.series :=
  foldl_addSample_grouped ledger job _ _ samples

theorem metrics_names (ledger : Ledger) (job : String) (samples : List Sample)
    (names : List String) :
    (metrics ledger job samples names).2.map (fun metric => metric.descriptor.name) = names := by
  induction names generalizing ledger with
  | nil => rfl
  | cons name rest ih =>
      simp only [metrics, List.map_cons, ih, metric_name]

/-- Each metric is made of the samples of its name, by some ledger. -/
theorem mem_metrics {made : Metric} {names : List String}
    (member : made ∈ (metrics ledger job samples names).2) :
    ∃ before : Ledger, made = (metric before job made.descriptor.name
      (samples.filter (fun sample => sample.name = made.descriptor.name))).2 := by
  induction names generalizing ledger with
  | nil => simp [metrics] at member
  | cons name rest ih =>
      simp only [metrics] at member
      rcases List.mem_cons.mp member with rfl | later
      · exact ⟨ledger, rfl⟩
      · exact ih later

theorem metricsOf_names (ledger : Ledger) (job : String) (samples : List Sample) :
    (metricsOf ledger job samples).2.map (fun metric => metric.descriptor.name) =
      distinct (samples.map Sample.name) :=
  metrics_names ledger job samples _

theorem metricsOf_grouped {made : Metric} (member : made ∈ (metricsOf ledger job samples).2) :
    Grouped made.descriptor.labelKeys
      (samples.filter (fun sample => sample.name = made.descriptor.name)) made.series := by
  obtain ⟨before, same⟩ := mem_metrics member
  have grouped := metric_grouped before job made.descriptor.name
    (samples.filter (fun sample => sample.name = made.descriptor.name))
  rw [← same] at grouped
  exact grouped

theorem metricsOf_describes {made : Metric} (member : made ∈ (metricsOf ledger job samples).2) :
    made.Describes samples := by
  have grouped := metricsOf_grouped member
  obtain ⟨before, same⟩ := mem_metrics member
  have named : made.descriptor.name ∈ samples.map Sample.name := by
    rw [← mem_distinct, ← metricsOf_names ledger job samples]
    exact List.mem_map_of_mem member
  -- The samples of the name are not empty, and so have a first one.
  obtain ⟨first, rest, own⟩ : ∃ first rest,
      samples.filter (fun sample => sample.name = made.descriptor.name) = first :: rest := by
    refine List.exists_cons_of_ne_nil (List.ne_nil_of_mem (a := ?_) ?_)
    · exact (List.mem_map.mp named).choose
    · have chosen := (List.mem_map.mp named).choose_spec
      exact List.mem_filter.mpr ⟨chosen.1, by simpa using chosen.2⟩
  have descriptor : made.descriptor = ⟨made.descriptor.name, first.kind.metricKind,
      labelKeys (samples.filter (fun sample => sample.name = made.descriptor.name))⟩ := by
    rw [own, ← metric_descriptor before job, ← own, ← same]
  have labelKeys' : made.descriptor.labelKeys =
      labelKeys (samples.filter (fun sample => sample.name = made.descriptor.name)) :=
    congrArg Descriptor.labelKeys descriptor
  refine ⟨?_, ?_, ?_, ?_, grouped.distinct, ?_⟩
  · rw [← List.head?_filter, own, congrArg Descriptor.kind descriptor]
    rfl
  · rw [labelKeys']
    exact SortedMap.keys_ascending _
  · intro key
    rw [labelKeys', mem_labelKeys]
    simp only [List.mem_filter, decide_eq_true_eq, and_assoc]
  · intro series held
    obtain ⟨sample, _, values⟩ := (grouped.values _).mp (List.mem_map_of_mem held)
    rw [← values, labelValues, List.length_map]
  · intro series held
    obtain ⟨sample, present, values⟩ := (grouped.values _).mp (List.mem_map_of_mem held)
    rw [grouped.points series held]
    refine List.ne_nil_of_mem (List.mem_map_of_mem ?_) (a := ⟨sample.timestamp, sample.value⟩)
    exact List.mem_filter.mpr ⟨present, by simpa using values⟩

section ranks

variable {α : Type} {accepts : α → Bool} {items : List α}

/-- An accepted item is found among the accepted ones behind those before it. -/
theorem getElem?_filter_countP (place : Nat) (inside : place < items.length)
    (accepted : accepts items[place] = true) :
    (items.filter accepts)[(items.take place).countP accepts]? = some items[place] := by
  induction items generalizing place with
  | nil => simp at inside
  | cons first rest ih =>
      cases place with
      | zero =>
          have kept : accepts first = true := accepted
          simp [kept]
      | succ place =>
          have found := ih place (by simpa using inside) (by simpa using accepted)
          by_cases kept : accepts first = true
          · simpa [kept] using found
          · simpa [kept] using found

theorem exists_countP_eq (rank : Nat) (inside : rank < (items.filter accepts).length) :
    ∃ place, ∃ within : place < items.length, accepts items[place] = true ∧
      (items.take place).countP accepts = rank := by
  induction items generalizing rank with
  | nil => simp at inside
  | cons first rest ih =>
      by_cases kept : accepts first = true
      · cases rank with
        | zero => exact ⟨0, by simp, by simpa using kept, by simp⟩
        | succ rank =>
            obtain ⟨place, within, accepted, count⟩ := ih rank (by simpa [kept] using inside)
            exact ⟨place + 1, by simpa using within, by simpa using accepted, by
              simp [kept, count]⟩
      · obtain ⟨place, within, accepted, count⟩ := ih rank (by simpa [kept] using inside)
        exact ⟨place + 1, by simpa using within, by simpa using accepted, by simp [kept, count]⟩

theorem countP_take_lt {place later : Nat} (inside : place < items.length)
    (accepted : accepts items[place] = true) (after : place < later) :
    (items.take place).countP accepts < (items.take later).countP accepts := by
  have grown : (items.take (place + 1)).countP accepts = (items.take place).countP accepts + 1 := by
    rw [List.take_add_one, List.getElem?_eq_getElem inside, List.countP_append]
    simp [accepted]
  have within : (items.take (place + 1)).countP accepts ≤ (items.take later).countP accepts :=
    (List.take_sublist_take_left after).countP_le
  omega

end ranks

def belongs (metric : Metric) (series : TimeSeries) (sample : Sample) : Bool :=
  sample.name = metric.descriptor.name &&
    labelValues metric.descriptor.labelKeys sample = series.labelValues

theorem belongs_iff {metric : Metric} {held : TimeSeries} :
    belongs metric held sample = true ↔ sample.name = metric.descriptor.name ∧
      labelValues metric.descriptor.labelKeys sample = held.labelValues := by
  simp [belongs]

theorem metricsOf_points {made : Metric} {held : TimeSeries}
    (member : made ∈ (metricsOf ledger job samples).2) (inside : held ∈ made.series) :
    held.points = (samples.filter (belongs made held)).map
      (fun sample => ⟨sample.timestamp, sample.value⟩) := by
  rw [(metricsOf_grouped member).points held inside, List.filter_filter]
  refine congrArg (List.map _) (List.filter_congr ?_)
  intro sample _
  rw [belongs, Bool.and_comm]

/-- The point of a sample stands in the series that the sample belongs to, behind the points
of earlier samples that do. -/
def StandsAt (metrics : List Metric) (samples : List Sample) (index : Fin samples.length)
    (place : PointPlace) : Prop :=
  ∃ metric series, metrics[place.metric]? = some metric ∧
    metric.series[place.series]? = some series ∧ belongs metric series samples[index] = true ∧
    place.point = (samples.take index).countP (belongs metric series)

section places

variable {index other : Fin samples.length} {place : PointPlace}

theorem exists_standsAt (ledger : Ledger) (job : String) (index : Fin samples.length) :
    ∃ place, StandsAt (metricsOf ledger job samples).2 samples index place := by
  have member : samples[index] ∈ samples := List.getElem_mem index.isLt
  have named : samples[index].name ∈
      (metricsOf ledger job samples).2.map (fun metric => metric.descriptor.name) := by
    rw [metricsOf_names, mem_distinct]
    exact List.mem_map_of_mem member
  obtain ⟨made, inside, name⟩ := List.mem_map.mp named
  obtain ⟨held, listed, values⟩ := List.mem_map.mp
    (((metricsOf_grouped inside).values _).mpr
      ⟨samples[index], List.mem_filter.mpr ⟨member, by simpa using name.symm⟩, rfl⟩)
  obtain ⟨first, found⟩ := List.mem_iff_getElem?.mp inside
  obtain ⟨second, reached⟩ := List.mem_iff_getElem?.mp listed
  exact ⟨⟨first, second, _⟩, made, held, found, reached,
    belongs_iff.mpr ⟨name.symm, values.symm⟩, rfl⟩

/-- A sample belongs to one series of one metric only. -/
theorem StandsAt.unique {left right : PointPlace}
    (first : StandsAt (metricsOf ledger job samples).2 samples index left)
    (second : StandsAt (metricsOf ledger job samples).2 samples index right) : left = right := by
  obtain ⟨made, held, found, reached, own, rank⟩ := first
  obtain ⟨made', held', found', reached', own', rank'⟩ := second
  obtain ⟨name, values⟩ := belongs_iff.mp own
  obtain ⟨name', values'⟩ := belongs_iff.mp own'
  have names : ((metricsOf ledger job samples).2.map
      (fun metric => metric.descriptor.name)).Nodup := by
    rw [metricsOf_names]
    exact nodup_distinct _
  have sameMetric : left.metric = right.metric := by
    refine (List.getElem?_inj ?_ names).mp ?_
    · rw [List.length_map]
      exact (List.getElem?_eq_some_iff.mp found).1
    · rw [List.getElem?_map, List.getElem?_map, found, found', Option.map_some, Option.map_some,
        ← name, ← name']
  rw [sameMetric, found'] at found
  obtain rfl := Option.some.inj found
  have sameSeries : left.series = right.series := by
    refine (List.getElem?_inj ?_
      (metricsOf_grouped (List.mem_of_getElem? found')).distinct).mp ?_
    · rw [List.length_map]
      exact (List.getElem?_eq_some_iff.mp reached).1
    · rw [List.getElem?_map, List.getElem?_map, reached, reached', Option.map_some,
        Option.map_some, ← values, ← values']
  rw [sameSeries, reached'] at reached
  obtain rfl := Option.some.inj reached
  cases left
  cases right
  simp only [PointPlace.mk.injEq]
  exact ⟨sameMetric, sameSeries, rank.trans rank'.symm⟩

theorem StandsAt.holds (stands : StandsAt (metricsOf ledger job samples).2 samples index place) :
    place.Holds (metricsOf ledger job samples).2 samples[index] := by
  obtain ⟨made, held, found, reached, own, rank⟩ := stands
  obtain ⟨name, values⟩ := belongs_iff.mp own
  refine ⟨made, held, found, reached, ?_, name.symm, values.symm⟩
  rw [metricsOf_points (List.mem_of_getElem? found) (List.mem_of_getElem? reached),
    List.getElem?_map, rank, getElem?_filter_countP index.val index.isLt own]
  rfl

theorem StandsAt.isPresent
    (stands : StandsAt (metricsOf ledger job samples).2 samples index place) :
    place.IsPresent (metricsOf ledger job samples).2 := by
  obtain ⟨made, held, found, reached, point, _⟩ := stands.holds
  exact ⟨made, held, _, found, reached, point⟩

theorem exists_index (present : place.IsPresent (metricsOf ledger job samples).2) :
    ∃ index, StandsAt (metricsOf ledger job samples).2 samples index place := by
  obtain ⟨made, held, point, found, reached, shown⟩ := present
  rw [metricsOf_points (List.mem_of_getElem? found) (List.mem_of_getElem? reached)] at shown
  have inside := (List.getElem?_eq_some_iff.mp shown).1
  rw [List.length_map] at inside
  obtain ⟨index, within, own, count⟩ := exists_countP_eq place.point inside
  exact ⟨⟨index, within⟩, made, held, found, reached, own, count.symm⟩

/-- Points of one series keep the order of their samples. -/
theorem StandsAt.ordered {left right : PointPlace}
    (first : StandsAt (metricsOf ledger job samples).2 samples index left)
    (second : StandsAt (metricsOf ledger job samples).2 samples other right)
    (before : index < other) (sameMetric : left.metric = right.metric)
    (sameSeries : left.series = right.series) : left.point < right.point := by
  obtain ⟨made, held, found, reached, own, rank⟩ := first
  obtain ⟨made', held', found', reached', _, rank'⟩ := second
  rw [sameMetric, found'] at found
  obtain rfl := Option.some.inj found
  rw [sameSeries, reached'] at reached
  obtain rfl := Option.some.inj reached
  rw [rank, rank']
  exact countP_take_lt index.isLt own before

end places

/-- The metrics made of some samples hold these samples. -/
theorem metricsOf_renders (ledger : Ledger) (job : String) (samples : List Sample) :
    Renders (metricsOf ledger job samples).2 samples := by
  have names := metricsOf_names ledger job samples
  refine ⟨?_, ?_, ?_, fun made member => metricsOf_describes member, ?_⟩
  · rw [names]
    exact nodup_distinct _
  · intro name
    rw [names]
    exact mem_distinct
  · rw [names]
    exact distinct_ordered _
  · choose place stands using fun index : Fin samples.length => exists_standsAt ledger job index
    have injective : Function.Injective place := by
      intro left right same
      by_contra apart
      rcases lt_or_gt_of_ne apart with before | after
      · have less := (stands left).ordered (stands right) before (by rw [same]) (by rw [same])
        rw [same] at less
        exact lt_irrefl _ less
      · have less := (stands right).ordered (stands left) after (by rw [same]) (by rw [same])
        rw [same] at less
        exact lt_irrefl _ less
    refine ⟨Equiv.ofBijective (fun index => ⟨place index, (stands index).isPresent⟩) ⟨?_, ?_⟩,
      fun index => (stands index).holds, fun left right before =>
        (stands left).ordered (stands right) before⟩
    · intro left right same
      exact injective (congrArg Subtype.val same)
    · intro target
      obtain ⟨index, standing⟩ := exists_index target.property
      exact ⟨index, Subtype.ext ((stands index).unique standing)⟩

end Translation

end ScrapeRelay
