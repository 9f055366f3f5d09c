import ScrapeRelay.Binary64
import ScrapeRelay.SortedMap

/-!
# Samples

What a scrape returns: named values with labels, a time and the kind that the
target reports for the metric.
-/

namespace ScrapeRelay

abbrev Labels := SortedMap String

def jobLabel : String := "job"

def instanceLabel : String := "instance"

inductive SampleKind where
  | counter
  | gauge
  | histogram
  | summary
  | unknown
deriving DecidableEq, Inhabited

/-- One scraped value. The time is in milliseconds since the epoch; a time of
zero asks for the time of the scrape. -/
structure Sample where
  name : String
  labels : Labels
  value : Binary64
  timestamp : Int64
  kind : SampleKind
deriving DecidableEq

namespace Sample

/-- A gauge without labels and without a time of its own. -/
def gauge (name : String) (value : Binary64) : Sample := ⟨name, .empty, value, 0, .gauge⟩

/-- The key under which a series is kept: the name, then each label with a NUL
in front and an equals sign inside. -/
def seriesKey (sample : Sample) : String :=
  sample.labels.entries.foldl (fun key label => key ++ "\x00" ++ label.1 ++ "=" ++ label.2)
    sample.name

end Sample

end ScrapeRelay
