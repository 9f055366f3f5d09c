import ScrapeRelay.Config
import ScrapeRelay.Scrape.Sink
import ScrapeRelay.Target

/-!
# Scrape cycles

What one scrape of a target hands to the sink: the samples of the target, if it
answered in time, and three samples about the scrape itself. All go into one
transaction, which is given up as soon as one of them is refused.
-/

namespace ScrapeRelay.Scrape

/-- What a target will answer to a scrape, and how long after it was asked. A
target without a delay never answers. -/
structure Response where
  delay : Option Duration
  content : Except Cause (List Sample)

abbrev Scraper (κ : Type) := (now : Nat) → κ → Target → Config.Job → κ × Response

inductive Outcome where
  | answered (samples : List Sample)
  | failed (cause : Cause)
  | timedOut

namespace Outcome

def ofContent : Except Cause (List Sample) → Outcome
  | .ok samples => .answered samples
  | .error cause => .failed cause

def samples : Outcome → List Sample
  | .answered samples => samples
  | _ => []

def isUp : Outcome → Bool
  | .answered _ => true
  | _ => false

def notices (target : Target) : Outcome → List Notice
  | .answered _ => []
  | .failed cause => [.scrapeFailed target (.scrape target.display cause)]
  | .timedOut => [.scrapeFailed target (.scrapeTimeout target.display)]

end Outcome

def report (outcome : Outcome) (elapsed : Duration) : List Sample :=
  [.gauge "up" (if outcome.isUp then .one else .zero),
    .gauge "scrape_duration_seconds" elapsed.seconds,
    .gauge "scrape_samples_scraped" (.ofNat outcome.samples.length)]

/-- Give a sample without a time of its own the time of the scrape. -/
def stamp (time : Int64) (sample : Sample) : Sample :=
  if sample.timestamp = 0 then { sample with timestamp := time } else sample

def cycleSamples (target : Target) (honor : Bool) (time : Int64) (elapsed : Duration)
    (outcome : Outcome) : List Sample :=
  (outcome.samples ++ report outcome elapsed).map
    (fun sample => target.attachLabels honor (stamp time sample))

variable {σ τ π : Type}

/-- Append samples of a target until one is refused. The transaction is returned as
it is then, with the reason of a refusal. -/
def appendAll (sink : Sink σ τ π) (now : Nat) (target : Target) (state : σ) (transaction : τ) :
    List Sample → σ × τ × Option Failure
  | [] => (state, transaction, none)
  | sample :: rest =>
      match sink.append now state transaction target.address target.job sample with
      | (state, .ok transaction) => appendAll sink now target state transaction rest
      | (state, .error failure) => (state, transaction, some failure)

/-- How a cycle leaves the sink: with a commit in progress, unless it was given up. -/
structure Handover (σ π : Type) where
  state : σ
  commit : Option π
  notices : List Notice

/-- Put samples of a target into a transaction of their own, and commit it. -/
def handOver (sink : Sink σ τ π) (now : Nat) (target : Target) (state : σ)
    (samples : List Sample) : Handover σ π :=
  match appendAll sink now target state sink.begin samples with
  | (state, transaction, some failure) =>
      ⟨sink.rollback now state transaction, none, [.appendFailed target failure]⟩
  | (state, transaction, none) =>
      let (state, commit) := sink.commit now state transaction
      ⟨state, some commit, []⟩

end ScrapeRelay.Scrape
