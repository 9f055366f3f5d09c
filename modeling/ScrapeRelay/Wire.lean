import ScrapeRelay.Json
import ScrapeRelay.Metric
import ScrapeRelay.Target

/-!
# The JSON form of samples and batches

Writing gives an object with a member for each field. Reading takes an object,
whose unknown members are skipped and whose known ones must not repeat, or an
array of the fields in order. A floating-point value that is not finite is
written as null and not read back.
-/

namespace ScrapeRelay.Wire

/-- The only value of a field, if it occurs at most once. -/
def single? : List Json → Option (Option Json)
  | [] => some none
  | [value] => some (some value)
  | _ => none

def fields? (names : List String) : Json → Option (List (Option Json))
  | .object members =>
      if members.any (fun member => member.1.isNone) then none
      else names.mapM (fun name => single? (Json.membersNamed name members))
  | .array elements =>
      if elements.length = names.length then some (elements.map some) else none
  | _ => none

def required? {α : Type} (read : Json → Option α) (field : Option Json) : Option α :=
  field.bind read

def optional? {α : Type} (read : Json → Option α) : Option Json → Option (Option α)
  | none => some none
  | some .null => some none
  | some value => (read value).map some

def text? : Json → Option String
  | .text value => some value
  | _ => none

def list? {α : Type} (read : Json → Option α) : Json → Option (List α)
  | .array elements => elements.mapM read
  | _ => none

def label? (member : Option String × Json) : Option (String × String) :=
  match member.1, text? member.2 with
  | some name, some value => some (name, value)
  | _, _ => none

/-- A map of texts. Of members with the same name the last counts. -/
def labels? : Json → Option Labels
  | .object members =>
      (members.mapM label?).map SortedMap.ofList
  | _ => none

def time? (json : Json) : Option Int64 :=
  match json.int? with
  | some value =>
      if Int64.minValue.toInt ≤ value && value ≤ Int64.maxValue.toInt then some (Int64.ofInt value)
      else none
  | none => none

def word? (json : Json) : Option Nat :=
  match json.int? with
  | some value => if 0 ≤ value && value.toNat < UInt64.size then some value.toNat else none
  | none => none

/-- A choice by name: the name itself, or an object with null under the name. -/
def choice? {α : Type} (ofName : String → Option α) : Json → Option α
  | .text name => ofName name
  | .object [(some name, .null)] => ofName name
  | _ => none

def sampleKindOf (name : String) : Option SampleKind :=
  if name = "counter" then some .counter
  else if name = "gauge" then some .gauge
  else if name = "histogram" then some .histogram
  else if name = "summary" then some .summary
  else if name = "unknown" then some .unknown
  else none

def metricKindOf (name : String) : Option MetricKind :=
  if name = "gauge" then some .gauge
  else if name = "cumulative" then some .cumulative
  else if name = "distribution" then some .distribution
  else if name = "summary" then some .summary
  else none

def sampleKind? : Json → Option SampleKind := choice? sampleKindOf

def metricKind? : Json → Option MetricKind := choice? metricKindOf

def sample? (json : Json) : Option Sample :=
  match fields? ["name", "labels", "value", "timestamp_ms", "kind"] json with
  | some [name, labels, value, timestamp, kind] => do
      let name ← required? text? name
      let labels ← required? labels? labels
      let value ← required? Json.real? value
      let timestamp ← required? time? timestamp
      let kind ← required? sampleKind? kind
      return ⟨name, labels, value, timestamp, kind⟩
  | _ => none

def targetGroup? (json : Json) : Option TargetGroup :=
  match fields? ["source", "targets", "labels"] json with
  | some [source, targets, labels] => do
      let source ← required? text? source
      let targets ← required? (list? labels?) targets
      let labels ← required? labels? labels
      return ⟨source, targets, labels⟩
  | _ => none

def point? (json : Json) : Option Point :=
  match fields? ["timestamp_ms", "value"] json with
  | some [timestamp, value] => do
      let timestamp ← required? time? timestamp
      let value ← required? Json.real? value
      return ⟨timestamp, value⟩
  | _ => none

def timeSeries? (json : Json) : Option TimeSeries :=
  match fields? ["start_timestamp_ms", "label_values", "points"] json with
  | some [start, labelValues, points] => do
      let start ← optional? time? start
      let labelValues ← required? (list? text?) labelValues
      let points ← required? (list? point?) points
      return ⟨start, labelValues, points⟩
  | _ => none

def descriptor? (json : Json) : Option Descriptor :=
  match fields? ["name", "kind", "label_keys"] json with
  | some [name, kind, labelKeys] => do
      let name ← required? text? name
      let kind ← required? metricKind? kind
      let labelKeys ← required? (list? text?) labelKeys
      return ⟨name, kind, labelKeys⟩
  | _ => none

def metric? (json : Json) : Option Metric :=
  match fields? ["descriptor", "timeseries"] json with
  | some [descriptor, series] => do
      let descriptor ← required? descriptor? descriptor
      let series ← required? (list? timeSeries?) series
      return ⟨descriptor, series⟩
  | _ => none

def node? (json : Json) : Option Node :=
  match fields? ["job", "instance"] json with
  | some [job, address] => do
      let job ← required? text? job
      let address ← required? text? address
      return ⟨job, address⟩
  | _ => none

def batch? (json : Json) : Option Batch :=
  match fields? ["receiver", "node", "generation", "metrics"] json with
  | some [receiver, node, generation, metrics] => do
      let receiver ← required? text? receiver
      let node ← required? node? node
      let generation ← required? word? generation
      let metrics ← required? (list? metric?) metrics
      return ⟨receiver, node, generation, metrics⟩
  | _ => none

def ofTexts (values : List String) : Json := .array (values.map Json.text)

def ofLabels (labels : Labels) : Json :=
  Json.record (labels.entries.map (fun label => (label.1, .text label.2)))

def ofTime (time : Int64) : Json := Json.ofInt time.toInt

def ofValue (value : Binary64) : Json := if value.isFinite then .real value else .null

def SampleKind.name : SampleKind → String
  | .counter => "counter"
  | .gauge => "gauge"
  | .histogram => "histogram"
  | .summary => "summary"
  | .unknown => "unknown"

def MetricKind.name : MetricKind → String
  | .gauge => "gauge"
  | .cumulative => "cumulative"
  | .distribution => "distribution"
  | .summary => "summary"

def ofSampleKind (kind : SampleKind) : Json := .text (SampleKind.name kind)

def ofMetricKind (kind : MetricKind) : Json := .text (MetricKind.name kind)

def ofSample (sample : Sample) : Json :=
  Json.record [("name", .text sample.name), ("labels", ofLabels sample.labels),
    ("value", ofValue sample.value), ("timestamp_ms", ofTime sample.timestamp),
    ("kind", ofSampleKind sample.kind)]

def ofTargetGroup (group : TargetGroup) : Json :=
  Json.record [("source", .text group.source), ("targets", .array (group.targets.map ofLabels)),
    ("labels", ofLabels group.labels)]

def ofPoint (point : Point) : Json :=
  Json.record [("timestamp_ms", ofTime point.timestamp), ("value", ofValue point.value)]

def ofTimeSeries (series : TimeSeries) : Json :=
  Json.record [("start_timestamp_ms", (series.start.map ofTime).getD .null),
    ("label_values", ofTexts series.labelValues), ("points", .array (series.points.map ofPoint))]

def ofDescriptor (descriptor : Descriptor) : Json :=
  Json.record [("name", .text descriptor.name), ("kind", ofMetricKind descriptor.kind),
    ("label_keys", ofTexts descriptor.labelKeys)]

def ofMetric (metric : Metric) : Json :=
  Json.record [("descriptor", ofDescriptor metric.descriptor),
    ("timeseries", .array (metric.series.map ofTimeSeries))]

def ofNode (node : Node) : Json :=
  Json.record [("job", .text node.job), ("instance", .text node.address)]

def ofBatch (batch : Batch) : Json :=
  Json.record [("receiver", .text batch.receiver), ("node", ofNode batch.node),
    ("generation", Json.ofNat batch.generation), ("metrics", .array (batch.metrics.map ofMetric))]

end ScrapeRelay.Wire
