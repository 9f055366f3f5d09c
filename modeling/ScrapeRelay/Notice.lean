import ScrapeRelay.Delivery
import ScrapeRelay.Target

/-!
# Notices

What a receiver reports about its own trouble, as warnings and errors.
-/

namespace ScrapeRelay

inductive Notice where
  | scrapeFailed (target : Target) (failure : Failure)
  | appendFailed (target : Target) (failure : Failure)
  | commitFailed (target : Target) (failure : Failure)
  | batchRejected (rejection : Rejection)
  | providersNotBuilt (job : String) (failure : Failure)
  | providerFailed (cause : Cause)
  | configRejected (failure : Failure)
  | discoveryFailed (failure : Failure)
  | backgroundFailure (failure : Failure)
  | fatal (failure : Failure)
deriving DecidableEq

inductive Severity where
  | warning
  | error
deriving DecidableEq

namespace Notice

def severity : Notice → Severity
  | .configRejected _ => .error
  | .discoveryFailed _ => .error
  | .backgroundFailure _ => .error
  | .fatal _ => .error
  | _ => .warning

def message : Notice → String
  | .scrapeFailed _ _ => "scrape failed"
  | .appendFailed _ _ => "append failed, discarding scrape"
  | .commitFailed _ _ => "commit failed"
  | .batchRejected _ => "consumer rejected batch"
  | .providersNotBuilt _ _ => "failed to build discovery providers"
  | .providerFailed _ => "discovery provider failed"
  | .configRejected _ => "scrape config rejected, aborting start"
  | .discoveryFailed _ => "discovery runner failed"
  | .backgroundFailure _ => "background receiver error"
  | .fatal _ => "fatal receiver error"

def details : Notice → List (String × String)
  | .scrapeFailed target failure =>
      [("target", target.display), ("error", failure.message)]
  | .appendFailed target failure =>
      [("target", target.display), ("error", failure.message)]
  | .commitFailed target failure =>
      [("target", target.display), ("error", failure.message)]
  | .batchRejected rejection =>
      [("job", rejection.node.job), ("instance", rejection.node.address),
        ("error", rejection.cause.message)]
  | .providersNotBuilt job failure => [("job", job), ("error", failure.message)]
  | .providerFailed cause => [("error", cause.message)]
  | .configRejected failure => [("error", failure.message)]
  | .discoveryFailed failure => [("error", failure.message)]
  | .backgroundFailure failure => [("error", failure.message)]
  | .fatal failure => [("error", failure.message)]

def fields (notice : Notice) : List (String × String) :=
  ("message", notice.message) :: notice.details

end Notice

/-- Notices with the instants at which they were given, the latest first. -/
abbrev Log := List (Nat × Notice)

def Log.add (now : Nat) (notices : List Notice) (log : Log) : Log :=
  notices.foldl (fun log notice => (now, notice) :: log) log

end ScrapeRelay
