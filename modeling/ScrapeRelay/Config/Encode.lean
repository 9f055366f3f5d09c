import ScrapeRelay.Config
import ScrapeRelay.Duration.Notation
import ScrapeRelay.Toml.Layout

/-!
# Writing a configuration

The table of a configuration. Intervals and timeouts that are not set, and lists
of static targets and providers that are empty, are left out; the discovery
settings stand among the entries of their job, and the options of a provider
beside its kind.
-/

namespace ScrapeRelay.Config

open ScrapeRelay.Toml (Entries)

def encodeDuration (duration : Duration) : Toml := .text duration.render

def encodeTexts (values : List String) : Toml := .array (values.map Toml.text)

def encodeLabels (labels : Labels) : Toml :=
  .table (labels.entries.map (fun label => (label.1, .text label.2)))

def encodeGlobal (global : Global) : Toml :=
  .table [("scrape_interval", encodeDuration global.scrapeInterval),
    ("scrape_timeout", encodeDuration global.scrapeTimeout)]

def encodeStatic (group : StaticTargets) : Toml :=
  .table [("targets", encodeTexts group.targets), ("labels", encodeLabels group.labels)]

def encodeProvider (provider : Provider) : Toml :=
  .table (("kind", .text provider.kind) :: Toml.writtenEntries false provider.options)

def encodeSet (key : String) : Option Duration → Entries
  | some duration => [(key, encodeDuration duration)]
  | none => []

def encodeFilled {α : Type} (key : String) (encode : α → Toml) (values : List α) : Entries :=
  if values.isEmpty then [] else [(key, .array (values.map encode))]

def encodeDiscovery (discovery : Discovery) : Entries :=
  encodeFilled "static_configs" encodeStatic discovery.staticTargets ++
    encodeFilled "providers" encodeProvider discovery.providers

def encodeJob (job : Job) : Toml :=
  .table ([("job_name", .text job.name)] ++
    encodeSet "scrape_interval" job.scrapeInterval ++
    encodeSet "scrape_timeout" job.scrapeTimeout ++
    [("metrics_path", .text job.metricsPath), ("scheme", .text job.scheme),
      ("honor_labels", .bool job.honorLabels)] ++
    encodeDiscovery job.discovery)

def encodeScrape (scrape : Scrape) : Toml :=
  .table [("global", encodeGlobal scrape.global),
    ("scrape_configs", .array (scrape.jobs.map encodeJob))]

def encodeReceiver (receiver : Receiver) : Entries :=
  [("name", .text receiver.name), ("prometheus", encodeScrape receiver.scrape),
    ("include_filter", .table (receiver.includeFilter.entries.map
      (fun entry => (entry.1, encodeTexts entry.2)))),
    ("job_staleness", encodeDuration receiver.staleness),
    ("startup_grace", encodeDuration receiver.startupGrace)]

end ScrapeRelay.Config
