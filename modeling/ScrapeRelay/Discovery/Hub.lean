import ScrapeRelay.Board
import ScrapeRelay.Discovery.Merge
import ScrapeRelay.Discovery.Registry
import ScrapeRelay.Notice

/-!
# The discovery hub

The hub runs the providers of the latest configuration, queues what they report
and merges it onto a board, one update at a time. Applying a configuration
replaces all providers. A provider counts as cancelled once the hub is, or once a
newer configuration was applied; what it still reports is dropped by generation.

The hub is a system of tasks that take turns: the merging task and one task for
each provider ever started. A turn takes a task to its next wait. Whether the hub
itself is cancelled is given from outside.
-/

namespace ScrapeRelay.Discovery

inductive ProviderPhase where
  | launched
  | serving
  | finished
deriving DecidableEq

structure ProviderTask where
  origin : Origin
  discoverer : Discoverer
  phase : ProviderPhase
deriving DecidableEq

inductive Merging where
  | idle
  | active (merge : Merge)
  | ended
deriving DecidableEq

structure Hub where
  generation : Nat
  /-- Updates that are not merged yet, oldest first. -/
  updates : List Update
  merging : Merging
  board : Board TargetSets
  providers : List ProviderTask
deriving DecidableEq

namespace Hub

def new : Hub := ⟨0, [], .idle, .new .empty, []⟩

/-- Queue an update. Once merging has ended there is no queue. -/
def send (hub : Hub) (update : Update) : Hub × Bool :=
  match hub.merging with
  | .ended => (hub, false)
  | _ => ({ hub with updates := hub.updates ++ [update] }, true)

/-- What applying a configuration makes of its jobs. -/
structure Plan where
  tasks : List ProviderTask
  notices : List Notice
  /-- The failure of the first job that could not be built. -/
  failure : Option Failure

/-- Build the providers of jobs in the given order. A job that cannot be built does
not affect the others. -/
def plan (factory : Factory) (generation : Nat) : List (String × Config.Discovery) → Plan
  | [] => ⟨[], [], none⟩
  | (job, discovery) :: rest =>
      let others := plan factory generation rest
      match factory job discovery with
      | .ok built =>
          let tasks := built.map (fun provider =>
            ⟨⟨generation, job, provider.1⟩, provider.2, .launched⟩)
          { others with tasks := tasks ++ others.tasks }
      | .error failure =>
          ⟨others.tasks, .providersNotBuilt job failure :: others.notices, some failure⟩

def apply (factory : Factory) (configs : List (String × Config.Discovery)) (hub : Hub) :
    Hub × List Notice × Except Failure Unit :=
  let generation := hub.generation + 1
  let planned := plan factory generation configs
  let queued := (hub.send (.reconfigured generation (configs.map Prod.fst))).1
  ({ queued with generation := generation, providers := queued.providers ++ planned.tasks },
    planned.notices,
    match planned.failure with
    | some failure => .error failure
    | none => .ok ())

def enter (hub : Hub) : Except Failure Hub :=
  match hub.merging with
  | .idle => .ok { hub with merging := .active .new }
  | _ => .error (.alreadyRunning .discovery)

def isLive (cancelled : Bool) (hub : Hub) (provider : ProviderTask) : Bool :=
  !cancelled && provider.origin.generation == hub.generation

/-- Take the oldest update in and show the outcome, unless it is of another
generation. -/
def absorb (hub : Hub) (merge : Merge) : Hub :=
  match hub.updates with
  | [] => hub
  | update :: rest =>
      match merge.accept? update with
      | none => { hub with updates := rest }
      | some merge =>
          { hub with
            updates := rest
            merging := .active merge
            board := hub.board.post merge.sets }

/-- A turn of the merging task: a cancellation ends it, and otherwise it takes one
update in. -/
def mergeStep (cancelled : Bool) (hub : Hub) : Hub :=
  match hub.merging with
  | .active merge =>
      if cancelled then { hub with merging := .ended, updates := [] } else hub.absorb merge
  | _ => hub

def setPhase (hub : Hub) (place : Nat) (task : ProviderTask) (phase : ProviderPhase) : Hub :=
  { hub with providers := hub.providers.set place { task with phase := phase } }

/-- A turn of a provider. Its first turn reports the opening groups, even if it was
cancelled before; the second one ends it. -/
def providerStep (hub : Hub) (place : Nat) : Hub × List Notice :=
  match hub.providers[place]? with
  | none => (hub, [])
  | some task =>
      match task.phase with
      | .launched =>
          let reported := match task.discoverer.opening with
            | some groups => (hub.send (.reported task.origin groups)).1
            | none => hub
          match task.discoverer.failure with
          | some cause => (reported.setPhase place task .finished, [.providerFailed cause])
          | none => (reported.setPhase place task .serving, [])
      | _ => (hub.setPhase place task .finished, [])

def mustMerge (cancelled : Bool) (hub : Hub) : Bool :=
  match hub.merging with
  | .active _ => cancelled || !hub.updates.isEmpty
  | _ => false

def providerIsReady (cancelled : Bool) (hub : Hub) (provider : ProviderTask) : Bool :=
  match provider.phase with
  | .launched => true
  | .serving => !hub.isLive cancelled provider
  | .finished => false

def readyProviders (cancelled : Bool) (hub : Hub) : List Nat :=
  (List.range hub.providers.length).filter (fun place =>
    hub.providers[place]?.any (hub.providerIsReady cancelled))

end Hub

end ScrapeRelay.Discovery
