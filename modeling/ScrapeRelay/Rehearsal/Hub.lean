import ScrapeRelay.Discovery.Hub
import ScrapeRelay.Rehearsal.Record
import ScrapeRelay.Timeline

/-!
# Rehearsing discovery

A discovery hub with the providers of the rehearsal, at one instant. Merging may be
requested several times.
-/

namespace ScrapeRelay.Rehearsal

open ScrapeRelay.Discovery (Hub ProviderTask Registry)

/-- How far a requested run of a main task is. -/
inductive RunState where
  | launched
  | running
  | ended (result : Except Failure Unit)

/-- The providers with a handle that have begun, in the order of their start. -/
def begunWith (handle : String) (hub : Hub) : List ProviderTask :=
  hub.providers.filter (fun task =>
    task.discoverer.handle = some handle && task.phase ≠ .launched)

def begunHandles (hub : Hub) : List String :=
  hub.providers.filterMap (fun task =>
    if task.phase = .launched then none else task.discoverer.handle)

/-- Report groups through one of the providers with a handle. The answer is missing if
there is no such provider. -/
def reportThrough (hub : Hub) (handle : String) (place : Nat) (groups : List TargetGroup) :
    Hub × Option Bool :=
  match (begunWith handle hub)[place]? with
  | none => (hub, none)
  | some task =>
      let (hub, taken) := hub.send (.reported task.origin groups)
      (hub, some taken)

structure HubRehearsal where
  registry : Registry
  hub : Hub
  cancelled : Bool
  runs : List RunState
  log : Log

inductive HubTask where
  | run (place : Nat)
  | provider (place : Nat)

namespace HubRehearsal

def new (registry : Registry) : HubRehearsal := ⟨registry, .new, false, [], []⟩

def apply (rehearsal : HubRehearsal) (configs : SortedMap Config.Discovery) :
    HubRehearsal × Except Failure Unit :=
  let (hub, notices, result) := rehearsal.hub.apply rehearsal.registry.build configs.entries
  ({ rehearsal with hub := hub, log := rehearsal.log.add 0 notices }, result)

def launch (rehearsal : HubRehearsal) : HubRehearsal :=
  { rehearsal with runs := rehearsal.runs ++ [.launched] }

def setRun (rehearsal : HubRehearsal) (place : Nat) (run : RunState) : HubRehearsal :=
  { rehearsal with runs := rehearsal.runs.set place run }

def runTurn (rehearsal : HubRehearsal) (place : Nat) : HubRehearsal :=
  match rehearsal.runs[place]? with
  | some .launched =>
      match rehearsal.hub.enter with
      | .ok hub => { rehearsal.setRun place .running with hub := hub }
      | .error failure => rehearsal.setRun place (.ended (.error failure))
  | some .running =>
      let merged := { rehearsal with hub := rehearsal.hub.mergeStep rehearsal.cancelled }
      if rehearsal.cancelled then merged.setRun place (.ended (.ok ())) else merged
  | _ => rehearsal

def turn (task : HubTask) (rehearsal : HubRehearsal) : HubRehearsal :=
  match task with
  | .run place => rehearsal.runTurn place
  | .provider place =>
      let (hub, notices) := rehearsal.hub.providerStep place
      { rehearsal with hub := hub, log := rehearsal.log.add 0 notices }

def runIsReady (rehearsal : HubRehearsal) : RunState → Bool
  | .launched => true
  | .running => rehearsal.hub.mustMerge rehearsal.cancelled
  | .ended _ => false

def ready (rehearsal : HubRehearsal) : List HubTask :=
  ((List.range rehearsal.runs.length).filter (fun place =>
      rehearsal.runs[place]?.any rehearsal.runIsReady)).map HubTask.run ++
    (rehearsal.hub.readyProviders rehearsal.cancelled).map HubTask.provider

def timeline : Timeline HubRehearsal HubTask where
  now _ := 0
  wait _ rehearsal := rehearsal
  ready := ready
  turn := turn
  dues _ := []

def settle (rehearsal : HubRehearsal) : HubRehearsal := timeline.settle rehearsal

end HubRehearsal

end ScrapeRelay.Rehearsal
