import ScrapeRelay.Duration
import ScrapeRelay.Ledger
import ScrapeRelay.Sample
import ScrapeRelay.Toml.Table

/-!
# Configuration

What a receiver is told to do: which jobs it scrapes, how often, where their
targets come from, and which metrics may pass.
-/

namespace ScrapeRelay.Config

/-- What holds for every job that does not say otherwise. -/
structure Global where
  scrapeInterval : Duration
  scrapeTimeout : Duration
deriving DecidableEq

/-- A fixed list of targets that share labels. -/
structure StaticTargets where
  targets : List String
  labels : Labels
deriving DecidableEq

/-- A discovery mechanism by name, with the options for it. -/
structure Provider where
  kind : String
  options : Toml.Table

structure Discovery where
  staticTargets : List StaticTargets
  providers : List Provider

structure Job where
  name : String
  scrapeInterval : Option Duration
  scrapeTimeout : Option Duration
  metricsPath : String
  scheme : String
  /-- Whether labels of a sample stay when a target label has the same name. -/
  honorLabels : Bool
  discovery : Discovery

structure Scrape where
  global : Global
  jobs : List Job

structure Receiver where
  name : String
  scrape : Scrape
  includeFilter : SortedMap (List String)
  staleness : Duration
  startupGrace : Duration

def defaultScrapeInterval : Duration := .ofSeconds 60

def defaultScrapeTimeout : Duration := .ofSeconds 10

def defaultStartupGrace : Duration := .ofMillis 100

def defaultMetricsPath : String := "/metrics"

def defaultScheme : String := "http"

def Global.default : Global := ⟨defaultScrapeInterval, defaultScrapeTimeout⟩

def Discovery.none : Discovery := ⟨[], []⟩

def Scrape.default : Scrape := ⟨.default, []⟩

def Job.named (name : String) : Job :=
  ⟨name, .none, .none, defaultMetricsPath, defaultScheme, false, .none⟩

/-- Add a group of targets without labels behind the static targets of a job. -/
def Job.withStaticTargets (job : Job) (targets : List String) : Job :=
  { job with
    discovery := { job.discovery with
      staticTargets := job.discovery.staticTargets ++ [⟨targets, .empty⟩] } }

def Receiver.named (name : String) : Receiver :=
  ⟨name, .default, .empty, defaultStaleness, defaultStartupGrace⟩

def Job.interval (job : Job) (global : Global) : Duration :=
  job.scrapeInterval.getD global.scrapeInterval

/-- How long a scrape of a job may take. A timeout that is not set never exceeds
the interval. -/
def Job.timeout (job : Job) (global : Global) : Duration :=
  match job.scrapeTimeout with
  | some timeout => timeout
  | none => global.scrapeTimeout.min (job.interval global)

/-- The discovery settings of each job by its name. Of jobs with the same name the
last counts. -/
def Scrape.discoveries (scrape : Scrape) : SortedMap Discovery :=
  SortedMap.ofList (scrape.jobs.map (fun job => (job.name, job.discovery)))

end ScrapeRelay.Config
