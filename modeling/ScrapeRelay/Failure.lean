import ScrapeRelay.Duration.Notation
import ScrapeRelay.Text.Quoted

/-!
# Failures

Everything that can go wrong while a receiver is configured or run, as causes.
The wording of each stands in one place, `Failure.message`.
-/

namespace ScrapeRelay

open ScrapeRelay.Text

/-- Why something outside the receiver failed: a text, and the texts wrapped
around it one after the other. -/
structure Cause where
  text : String
  wrappers : List String
deriving DecidableEq, Inhabited

def Cause.plain (text : String) : Cause := ⟨text, []⟩

def Cause.message (cause : Cause) : String := cause.wrappers.getLastD cause.text

inductive ReadFault where
  | notFound
  | isDirectory
  | invalidData
deriving DecidableEq

def ReadFault.message : ReadFault → String
  | .notFound => "entity not found"
  | .isDirectory => "is a directory"
  | .invalidData => "stream did not contain valid UTF-8"

inductive ConfigFault where
  | malformed
  | mistyped
  | badDuration (text : String)
  | missingField (name : String)
deriving DecidableEq

def badDurationMessage (text : String) : String := "invalid duration: " ++ quote text

def ConfigFault.message : ConfigFault → String
  | .malformed => "malformed document"
  | .mistyped => "invalid type"
  | .badDuration text => badDurationMessage text
  | .missingField name => "missing field \x60" ++ name ++ "\x60"

inductive JobFault where
  | blankName
  | zeroInterval
  | zeroTimeout
  | timeoutExceeds (timeout interval : Duration)
  | relativePath
  | unsupportedScheme (scheme : String)
  | blankTarget
  | blankKind
  | duplicateName
  | stated (reason : String)
deriving DecidableEq

def JobFault.message : JobFault → String
  | .blankName => "job_name must not be empty"
  | .zeroInterval => "scrape_interval must be positive"
  | .zeroTimeout => "scrape_timeout must be positive"
  | .timeoutExceeds timeout interval =>
      "scrape_timeout " ++ timeout.describe ++ " exceeds scrape_interval " ++ interval.describe
  | .relativePath => "metrics_path must start with '/'"
  | .unsupportedScheme scheme => "unsupported scheme " ++ quote scheme
  | .blankTarget => "static target must not be empty"
  | .blankKind => "discovery provider kind must not be empty"
  | .duplicateName => "duplicate job_name"
  | .stated reason => reason

inductive Engine where
  | discovery
  | scrape
  | named (name : String)
deriving DecidableEq

def Engine.name : Engine → String
  | .discovery => "discovery runner"
  | .scrape => "scrape coordinator"
  | .named name => name

inductive Failure where
  | unreadableConfig (fault : ReadFault)
  | badConfig (fault : ConfigFault)
  | badDuration (text : String)
  | badJob (job : String) (fault : JobFault)
  | discovery (job : String) (cause : Cause)
  | notificationsClosed
  | alreadyRunning (engine : Engine)
  | scrape (target : String) (cause : Cause)
  | scrapeTimeout (target : String)
  | consumer (cause : Cause)
deriving DecidableEq

def Failure.message : Failure → String
  | .unreadableConfig fault => "failed to read config: " ++ fault.message
  | .badConfig fault => "failed to parse config: " ++ fault.message
  | .badDuration text => badDurationMessage text
  | .badJob job fault =>
      "invalid scrape config for job " ++ quote job ++ ": " ++ fault.message
  | .discovery job cause =>
      "discovery provider failed for job " ++ quote job ++ ": " ++ cause.message
  | .notificationsClosed => "discovery notification channel closed"
  | .alreadyRunning engine => engine.name ++ " is already running"
  | .scrape target cause => "scrape of " ++ target ++ " failed: " ++ cause.message
  | .scrapeTimeout target => "scrape of " ++ target ++ " timed out"
  | .consumer cause => "metrics consumer rejected batch: " ++ cause.message

end ScrapeRelay
