import ScrapeRelay.Scrape.Cycle
import ScrapeRelay.Scrape.Ticker

/-!
# Scrape loops

One loop for each target that is scraped. It waits for a tick, asks the target,
waits for the answer or the timeout, hands the samples to the sink, waits for the
commit, and starts over. Nothing but a cancellation ends it, and a cancelled loop
ends at its next turn wherever it waits.

A turn, `step`, takes a loop from one wait to the next one; `isReady` says whether
there is something to do, and `due` when time alone brings it.
-/

namespace ScrapeRelay.Scrape

/-- A job definition as it was installed. The edition tells definitions apart that
were installed at different times, however much they are alike. -/
structure Installed where
  edition : Nat
  job : Config.Job
  interval : Duration
  timeout : Duration

def Installed.ofJob (edition : Nat) (global : Config.Global) (job : Config.Job) : Installed :=
  ⟨edition, job, job.interval global, job.timeout global⟩

inductive LoopPhase (π : Type) where
  | launched
  | waiting (deadline : Nat)
  /-- Waits for the answer of the target. -/
  | scraping (next started : Nat) (response : Response)
  | committing (next : Nat) (commit : π)
  | finished

structure ScrapeLoop (π : Type) where
  number : Nat
  target : Target
  installed : Installed
  isCancelled : Bool
  phase : LoopPhase π

structure Equipment (κ σ τ π : Type) where
  scraper : Scraper κ
  sink : Sink σ τ π
  /-- The time in milliseconds since the epoch that an instant has. -/
  wallTime : Nat → Int64

/-- The states of the scraper and of the sink, which all loops share. -/
structure Shared (κ σ : Type) where
  scraper : κ
  sink : σ

structure LoopTurn (κ σ π : Type) where
  phase : LoopPhase π
  shared : Shared κ σ
  notices : List Notice

namespace ScrapeLoop

variable {κ σ τ π : Type}

def answerTime (started : Nat) (response : Response) : Option Nat :=
  response.delay.map (fun delay => started + delay.nanos)

def hasCome (now : Nat) : Option Nat → Bool
  | some time => time ≤ now
  | none => false

/-- How a scrape has ended by now, if it has. An answer at the very end of the
timeout counts. -/
def outcome? (timeout : Duration) (now started : Nat) (response : Response) : Option Outcome :=
  if hasCome now (answerTime started response) then some (.ofContent response.content)
  else if started + timeout.nanos ≤ now then some .timedOut
  else none

def tick (equipment : Equipment κ σ τ π) (now deadline : Nat) (shared : Shared κ σ)
    (loop : ScrapeLoop π) : LoopTurn κ σ π :=
  let (scraper, response) :=
    equipment.scraper now shared.scraper loop.target loop.installed.job
  ⟨.scraping (nextDeadline loop.installed.interval deadline now) now response,
    { shared with scraper := scraper }, []⟩

def commitNotices (target : Target) : Except Failure Unit → List Notice
  | .ok _ => []
  | .error failure => [.commitFailed target failure]

def resume (equipment : Equipment κ σ τ π) (now next : Nat) (commit : π) (shared : Shared κ σ)
    (loop : ScrapeLoop π) : LoopTurn κ σ π :=
  let outcome := equipment.sink.resume now shared.sink commit
  let shared := { shared with sink := outcome.state }
  match outcome.result with
  | some result =>
      ⟨.waiting next, shared, outcome.notices ++ commitNotices loop.target result⟩
  | none => ⟨.committing next outcome.rest, shared, outcome.notices⟩

def conclude (equipment : Equipment κ σ τ π) (now next started : Nat) (outcome : Outcome)
    (shared : Shared κ σ) (loop : ScrapeLoop π) : LoopTurn κ σ π :=
  let samples := cycleSamples loop.target loop.installed.job.honorLabels (equipment.wallTime now)
    ⟨now - started⟩ outcome
  let handover := handOver equipment.sink now loop.target shared.sink samples
  let shared := { shared with sink := handover.state }
  let notices := outcome.notices loop.target ++ handover.notices
  match handover.commit with
  | some commit =>
      let turn := loop.resume equipment now next commit shared
      { turn with notices := notices ++ turn.notices }
  | none => ⟨.waiting next, shared, notices⟩

def step (equipment : Equipment κ σ τ π) (cancelled : Bool) (now : Nat) (shared : Shared κ σ)
    (loop : ScrapeLoop π) : LoopTurn κ σ π :=
  if cancelled || loop.isCancelled then ⟨.finished, shared, []⟩
  else
    match loop.phase with
    | .launched => loop.tick equipment now now shared
    | .waiting deadline => loop.tick equipment now deadline shared
    | .scraping next started response =>
        match outcome? loop.installed.timeout now started response with
        | some outcome => loop.conclude equipment now next started outcome shared
        | none => ⟨loop.phase, shared, []⟩
    | .committing next commit => loop.resume equipment now next commit shared
    | .finished => ⟨.finished, shared, []⟩

def isReady (equipment : Equipment κ σ τ π) (cancelled : Bool) (now : Nat) (shared : Shared κ σ)
    (loop : ScrapeLoop π) : Bool :=
  match loop.phase with
  | .finished => false
  | phase =>
      cancelled || loop.isCancelled ||
        match phase with
        | .launched => true
        | .waiting deadline => deadline ≤ now
        | .scraping _ started response =>
            (outcome? loop.installed.timeout now started response).isSome
        | .committing _ commit => !equipment.sink.isBlocked now shared.sink commit
        | .finished => false

def due (equipment : Equipment κ σ τ π) (shared : Shared κ σ) (loop : ScrapeLoop π) :
    Option Nat :=
  match loop.phase with
  | .waiting deadline => some deadline
  | .scraping _ started response =>
      let timeout := started + loop.installed.timeout.nanos
      match answerTime started response with
      | some time => some (min time timeout)
      | none => some timeout
  | .committing _ commit => equipment.sink.due shared.sink commit
  | _ => none

end ScrapeLoop

end ScrapeRelay.Scrape
