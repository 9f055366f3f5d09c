import ScrapeRelay.Sample

/-!
# Metrics

The neutral form in which a batch of metrics leaves the receiver: each metric is
described once and holds one time series for each set of label values.
-/

namespace ScrapeRelay

inductive MetricKind where
  | gauge
  | cumulative
  | distribution
  | summary
deriving DecidableEq, Inhabited

def SampleKind.metricKind : SampleKind → MetricKind
  | .counter => .cumulative
  | .histogram => .distribution
  | .summary => .summary
  | .gauge => .gauge
  | .unknown => .gauge

def MetricKind.accumulates : MetricKind → Bool
  | .gauge => false
  | _ => true

structure Point where
  timestamp : Int64
  value : Binary64
deriving DecidableEq

/-- Points that share their label values. The start is that of accumulation, and
gauges have none. -/
structure TimeSeries where
  start : Option Int64
  labelValues : List String
  points : List Point
deriving DecidableEq

structure Descriptor where
  name : String
  kind : MetricKind
  labelKeys : List String
deriving DecidableEq

structure Metric where
  descriptor : Descriptor
  series : List TimeSeries
deriving DecidableEq

structure Node where
  job : String
  address : String
deriving DecidableEq

/-- The metrics of one scrape of one target. -/
structure Batch where
  receiver : String
  node : Node
  generation : Nat
  metrics : List Metric
deriving DecidableEq

/-- The names of the metrics of a batch, in their order. -/
def Batch.metricNames (batch : Batch) : List String :=
  batch.metrics.map (fun metric => metric.descriptor.name)

end ScrapeRelay
