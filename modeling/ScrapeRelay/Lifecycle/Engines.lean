import ScrapeRelay.Config
import ScrapeRelay.Notice

/-!
# Engines

What a receiver needs from the discovery engine and the scrape engine, which it
builds, configures and runs. Each of the two has a main task, which ends with a
result; beside them the engines may have tasks of their own.
-/

namespace ScrapeRelay.Lifecycle

/-- Engines after a turn, what they report, and the result of a main task that has
ended. -/
structure Turn (ε : Type) where
  engines : ε
  notices : List Notice
  result : Option (Except Failure Unit)

/-- Engines with their common state `ε` and tasks of their own `α`. Instants are
nanoseconds; a flag tells whether the engines are cancelled. -/
structure Engines (ε α : Type) where
  new : ε
  /-- Give the scrape engine its job definitions. -/
  installJobs : Config.Scrape → ε → ε × Except Failure Unit
  /-- Give the discovery engine the discovery settings of each job. -/
  applyDiscovery : SortedMap Config.Discovery → ε → ε × List Notice × Except Failure Unit
  /-- Begin the main task of discovery, with a result if it ends at once. -/
  beginDiscovery : ε → ε × Option (Except Failure Unit)
  discoveryIsReady : (cancelled : Bool) → ε → Bool
  discoveryTurn : (cancelled : Bool) → ε → Turn ε
  /-- Begin the main task of scraping, with a result if it ends at once. -/
  beginScraping : ε → ε × Option (Except Failure Unit)
  scrapingIsReady : (cancelled : Bool) → ε → Bool
  scrapingTurn : (cancelled : Bool) → ε → Turn ε
  /-- The tasks of the engines' own that have something to do. -/
  ready : (cancelled : Bool) → (now : Nat) → ε → List α
  /-- The turn of a task of the engines' own. -/
  turn : (cancelled : Bool) → (now : Nat) → α → ε → ε × List Notice
  /-- The instants at which time alone gives a task something to do. -/
  dues : ε → List Nat

end ScrapeRelay.Lifecycle
