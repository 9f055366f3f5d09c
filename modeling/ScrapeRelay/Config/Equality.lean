import ScrapeRelay.Config.Decode
import ScrapeRelay.Config.Encode

/-!
# Equality of configurations

Configurations are equal if all their fields are. Options are compared as TOML
values, so that an option which holds NaN differs from itself.
-/

namespace ScrapeRelay.Config

def Provider.equal (left right : Provider) : Bool :=
  left.kind = right.kind && Toml.equalEntries left.options.entries right.options.entries

def equalLists {α : Type} (equal : α → α → Bool) : List α → List α → Bool
  | [], [] => true
  | left :: lefts, right :: rights => equal left right && equalLists equal lefts rights
  | _, _ => false

def Discovery.equal (left right : Discovery) : Bool :=
  left.staticTargets = right.staticTargets &&
    equalLists Provider.equal left.providers right.providers

def Job.equal (left right : Job) : Bool :=
  left.name = right.name && left.scrapeInterval = right.scrapeInterval &&
    left.scrapeTimeout = right.scrapeTimeout && left.metricsPath = right.metricsPath &&
    left.scheme = right.scheme && left.honorLabels = right.honorLabels &&
    left.discovery.equal right.discovery

def Scrape.equal (left right : Scrape) : Bool :=
  left.global = right.global && equalLists Job.equal left.jobs right.jobs

def Receiver.equal (left right : Receiver) : Bool :=
  left.name = right.name && left.scrape.equal right.scrape &&
    left.includeFilter = right.includeFilter && left.staleness = right.staleness &&
    left.startupGrace = right.startupGrace

/-- The table that a written configuration is read as on its own, where nothing is known of what the
entries mean. -/
def Receiver.rendered (receiver : Receiver) : Decoded Toml.Table :=
  (decodeOptions true (encodeReceiver receiver)).map Toml.Table.ofEntries

def Receiver.survivesWriting (receiver : Receiver) : Bool :=
  match decodeReceiver (encodeReceiver receiver) with
  | .ok again => receiver.equal again
  | .error _ => false

end ScrapeRelay.Config
