import ScrapeRelay.Config
import ScrapeRelay.Failure
import ScrapeRelay.Text.Blank

/-!
# Validation

The rules that job definitions have to keep, in the order in which they are
checked. The first job that breaks a rule is reported with the first rule it
breaks; that names do not repeat is checked after the rules of a job of its own.
-/

namespace ScrapeRelay.Config

open ScrapeRelay.Text

def isAbsolute (path : String) : Bool := path.toList.head? = some '/'

def Job.fault? (job : Job) (global : Global) : Option JobFault :=
  let interval := job.interval global
  let timeout := job.timeout global
  if isBlankText job.name then some .blankName
  else if interval.isZero then some .zeroInterval
  else if timeout.isZero then some .zeroTimeout
  else if interval.nanos < timeout.nanos then some (.timeoutExceeds timeout interval)
  else if !isAbsolute job.metricsPath then some .relativePath
  else if job.scheme ≠ "http" && job.scheme ≠ "https" then some (.unsupportedScheme job.scheme)
  else if job.discovery.staticTargets.any (fun group => group.targets.any isBlankText) then
    some .blankTarget
  else if job.discovery.providers.any (fun provider => isBlankText provider.kind) then
    some .blankKind
  else none

def validateJobs (global : Global) (seen : List String) : List Job → Except Failure Unit
  | [] => .ok ()
  | job :: rest =>
      match job.fault? global with
      | some fault => .error (.badJob job.name fault)
      | none =>
          if seen.contains job.name then .error (.badJob job.name .duplicateName)
          else validateJobs global (job.name :: seen) rest

def Scrape.validate (scrape : Scrape) : Except Failure Unit :=
  validateJobs scrape.global [] scrape.jobs

end ScrapeRelay.Config
