import ScrapeRelay.Ledger
import ScrapeRelay.Metric

/-!
# Translating samples

The samples of one target become metrics: one metric for each name, in order of
first appearance, with one time series for each set of label values. Series of
cumulative metrics get their start times from the activity ledger.
-/

namespace ScrapeRelay.Translation

/-- The values of a list without repetitions, in order of first occurrence. -/
def distinct : List String → List String
  | [] => []
  | first :: rest => first :: (distinct rest).filter (· ≠ first)

/-- The names of the labels that tell the series of a metric apart, ascending.
The labels of the job and the instance belong to the batch instead. -/
def labelKeys (samples : List Sample) : List String :=
  let names := samples.flatMap (fun sample => sample.labels.keys)
  let own := names.filter (fun name => name ≠ jobLabel && name ≠ instanceLabel)
  (SortedMap.ofList (own.map (fun name => (name, ())))).keys

/-- The values of a sample's labels under the given keys; a missing label counts
as empty. -/
def labelValues (keys : List String) (sample : Sample) : List String :=
  keys.map (fun key => (sample.labels.get? key).getD "")

/-- Add a point to the series with the given label values, or open that series
with it. An open series keeps its start. -/
def addPoint (start : Option Int64) (values : List String) (point : Point) :
    List TimeSeries → List TimeSeries
  | [] => [⟨start, values, [point]⟩]
  | series :: rest =>
      if series.labelValues = values then
        { series with points := series.points ++ [point] } :: rest
      else series :: addPoint start values point rest

def addSample (job : String) (kind : MetricKind) (keys : List String)
    (state : Ledger × List TimeSeries) (sample : Sample) : Ledger × List TimeSeries :=
  let (ledger, start) :=
    if kind.accumulates then
      let (ledger, start) :=
        state.1.observe job sample.seriesKey sample.value sample.timestamp
      (ledger, some start)
    else (state.1, none)
  (ledger, addPoint start (labelValues keys sample) ⟨sample.timestamp, sample.value⟩ state.2)

/-- The metric that samples of one name make. Its kind is that of the first. -/
def metric (ledger : Ledger) (job name : String) (samples : List Sample) : Ledger × Metric :=
  let kind := match samples with
    | first :: _ => first.kind.metricKind
    | [] => .gauge
  let keys := labelKeys samples
  let (ledger, series) := samples.foldl (addSample job kind keys) (ledger, [])
  (ledger, ⟨⟨name, kind, keys⟩, series⟩)

def metrics (ledger : Ledger) (job : String) (samples : List Sample) :
    List String → Ledger × List Metric
  | [] => (ledger, [])
  | name :: rest =>
      let (ledger, first) :=
        metric ledger job name (samples.filter (fun sample => sample.name = name))
      let (ledger, others) := metrics ledger job samples rest
      (ledger, first :: others)

def metricsOf (ledger : Ledger) (job : String) (samples : List Sample) :
    Ledger × List Metric :=
  metrics ledger job samples (distinct (samples.map Sample.name))

end ScrapeRelay.Translation
