import ScrapeRelay.Discovery.Hub
import ScrapeRelay.Lifecycle.Session
import ScrapeRelay.Scrape.Supervisor

/-!
# The plant

The engines of a receiver: a discovery hub and a scrape supervisor that reads the
hub's board. The loops of the supervisor work with a scraper and a sink.
-/

namespace ScrapeRelay.Lifecycle

open ScrapeRelay.Discovery (Hub Registry)
open ScrapeRelay.Scrape (Equipment Shared Supervisor)

structure Plant (κ σ π : Type) where
  hub : Hub
  supervisor : Supervisor π
  shared : Shared κ σ

inductive PlantTask where
  | provider (place : Nat)
  | loop (place : Nat)
deriving DecidableEq

namespace Plant

variable {κ σ τ π : Type}

def engines (registry : Registry) (equipment : Equipment κ σ τ π) (shared : Shared κ σ) :
    Engines (Plant κ σ π) PlantTask where
  new := ⟨.new, .new, shared⟩
  installJobs config plant :=
    let (supervisor, result) := plant.supervisor.install config
    ({ plant with supervisor := supervisor }, result)
  applyDiscovery configs plant :=
    let (hub, notices, result) := plant.hub.apply registry.build configs.entries
    ({ plant with hub := hub }, notices, result)
  beginDiscovery plant :=
    match plant.hub.enter with
    | .ok hub => ({ plant with hub := hub }, none)
    | .error failure => (plant, some (.error failure))
  discoveryIsReady cancelled plant := plant.hub.mustMerge cancelled
  discoveryTurn cancelled plant :=
    let hub := plant.hub.mergeStep cancelled
    ⟨{ plant with hub := hub }, [], if cancelled then some (.ok ()) else none⟩
  beginScraping plant :=
    match plant.supervisor.enter plant.hub.board with
    | .ok supervisor => ({ plant with supervisor := supervisor }, none)
    | .error failure => (plant, some (.error failure))
  scrapingIsReady cancelled plant := plant.supervisor.mustManage cancelled plant.hub.board
  scrapingTurn cancelled plant :=
    let (supervisor, result) := plant.supervisor.manageStep cancelled plant.hub.board
    ⟨{ plant with supervisor := supervisor }, [], result⟩
  ready cancelled now plant :=
    (plant.hub.readyProviders cancelled).map PlantTask.provider ++
      (plant.supervisor.readyLoops equipment cancelled now plant.shared).map PlantTask.loop
  turn cancelled now task plant :=
    match task with
    | .provider place =>
        let (hub, notices) := plant.hub.providerStep place
        ({ plant with hub := hub }, notices)
    | .loop place =>
        let (supervisor, shared, notices) :=
          plant.supervisor.loopStep equipment cancelled now plant.shared place
        ({ plant with supervisor := supervisor, shared := shared }, notices)
  dues plant := plant.supervisor.dues equipment plant.shared

end Plant

end ScrapeRelay.Lifecycle
