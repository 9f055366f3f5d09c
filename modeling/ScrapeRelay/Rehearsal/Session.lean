import ScrapeRelay.Config.Validation
import ScrapeRelay.Lifecycle.Plant
import ScrapeRelay.Rehearsal.Hub

/-!
# Rehearsing sessions

The session of a receiver on a virtual clock, with starts in the background. The
engines are a plant with the stand-ins of the rehearsal, or dummies that only answer
as told.
-/

namespace ScrapeRelay.Rehearsal

open ScrapeRelay.Lifecycle (Engines Plant PlantTask Session SessionTask)
open ScrapeRelay.Scrape (Shared)

structure Faults where
  install : Option String
  discovery : Bool
  apply : Option String
  scraping : Bool

/-- Engines that do nothing but end when they are cancelled, and fail as told. -/
def dummies (faults : Faults) : Engines Unit Empty where
  new := ()
  installJobs config _ :=
    match faults.install with
    | some text => ((), .error (.badJob "job1" (.stated text)))
    | none => ((), config.validate)
  applyDiscovery _ _ :=
    match faults.apply with
    | some text => ((), [], .error (.discovery "job1" (.plain text)))
    | none => ((), [], .ok ())
  beginDiscovery _ :=
    ((), if faults.discovery then some (.error (.alreadyRunning .discovery)) else none)
  discoveryIsReady cancelled _ := cancelled
  discoveryTurn _ _ := ⟨(), [], some (.ok ())⟩
  beginScraping _ :=
    ((), if faults.scraping then some (.error .notificationsClosed) else none)
  scrapingIsReady cancelled _ := cancelled
  scrapingTurn _ _ := ⟨(), [], some (.ok ())⟩
  ready _ _ _ := []
  turn _ _ _ _ := ((), [])
  dues _ := []

/-- Engines with what a rehearsal does to them. -/
structure Bench (ε α : Type) where
  engines : Engines ε α
  drain : ε → ε × Records
  /-- Report groups through a provider with a handle, if there is one. -/
  send : (handle : String) → (place : Nat) → List TargetGroup → ε → ε × Option Bool

def dummyBench (faults : Faults) : Bench Unit Empty where
  engines := dummies faults
  drain _ := ((), [])
  send _ _ _ _ := ((), none)

def plantBench (registry : Discovery.Registry) (scripts : Scripts) (script : ConsumerScript)
    (receiver : Config.Receiver) :
    Bench (Plant ScraperState (Intake ConsumerState) Delivery) PlantTask where
  engines :=
    let settings : IntakeSettings ConsumerState :=
      ⟨receiver.name, ⟨receiver.includeFilter⟩, recordingConsumer script, fun _ => 0⟩
    let intake : Intake ConsumerState := ⟨.new receiver.staleness, .new⟩
    Plant.engines registry ⟨scriptedScraper scripts, Intake.sink settings, wallTime⟩ ⟨.new, intake⟩
  drain plant :=
    let (shared, records) := drainShared drainIntake plant.shared
    ({ plant with shared := shared }, records)
  send handle place groups plant :=
    let (hub, answer) := reportThrough plant.hub handle place groups
    ({ plant with hub := hub }, answer)

/-- How far a start in the background is. -/
inductive StartState where
  | launched
  | waiting
  | done
deriving DecidableEq

structure SessionRehearsal (ε : Type) where
  session : Session ε
  starts : List StartState

inductive RehearsalTask (α : Type) where
  | start (place : Nat)
  | session (task : SessionTask α)

namespace SessionRehearsal

variable {ε α : Type}

/-- A session that was not started yet. Its grace period is cut to the longest wait. -/
def new (engines : Engines ε α) (receiver : Config.Receiver) : SessionRehearsal ε :=
  let grace := receiver.startupGrace.min longestWait
  ⟨.new engines { receiver with startupGrace := grace }, []⟩

def setStart (rehearsal : SessionRehearsal ε) (place : Nat) (state : StartState) :
    SessionRehearsal ε :=
  { rehearsal with starts := rehearsal.starts.set place state }

/-- Start the receiver. The answer tells whether there is something to wait for. -/
def start (rehearsal : SessionRehearsal ε) : SessionRehearsal ε × Bool :=
  let (session, launched) := rehearsal.session.start
  ({ rehearsal with session := session }, launched)

def launch (rehearsal : SessionRehearsal ε) : SessionRehearsal ε :=
  { rehearsal with starts := rehearsal.starts ++ [.launched] }

def startTurn (rehearsal : SessionRehearsal ε) (place : Nat) : SessionRehearsal ε :=
  match rehearsal.starts[place]? with
  | some .launched =>
      match rehearsal.start with
      | (rehearsal, true) => rehearsal.setStart place .waiting
      | (rehearsal, false) => rehearsal.setStart place .done
  | some .waiting => rehearsal.setStart place .done
  | _ => rehearsal

def startIsReady (rehearsal : SessionRehearsal ε) : StartState → Bool
  | .launched => true
  | .waiting => rehearsal.session.isStarted
  | .done => false

def timeline (engines : Engines ε α) : Timeline (SessionRehearsal ε) (RehearsalTask α) where
  now rehearsal := rehearsal.session.now
  wait time rehearsal :=
    { rehearsal with session := (Session.timeline engines).wait time rehearsal.session }
  ready rehearsal :=
    ((List.range rehearsal.starts.length).filter (fun place =>
        rehearsal.starts[place]?.any rehearsal.startIsReady)).map RehearsalTask.start ++
      (rehearsal.session.ready engines).map RehearsalTask.session
  turn task rehearsal :=
    match task with
    | .start place => rehearsal.startTurn place
    | .session task => { rehearsal with session := rehearsal.session.turn engines task }
  dues rehearsal := (Session.timeline engines).dues rehearsal.session

/-- Start the receiver and wait until the startup it launched is over. -/
def startAndWait (engines : Engines ε α) (rehearsal : SessionRehearsal ε) :
    SessionRehearsal ε :=
  match rehearsal.start with
  | (rehearsal, false) => rehearsal
  | (rehearsal, true) =>
      (timeline engines).runUntilDone (fun rehearsal => rehearsal.session.isStarted) rehearsal

/-- Start the receiver and wait no longer than a duration. The answer tells whether
the startup was over in time. -/
def startWithin (engines : Engines ε α) (patience : Duration) (rehearsal : SessionRehearsal ε) :
    SessionRehearsal ε × Bool :=
  match rehearsal.start with
  | (rehearsal, false) => (rehearsal, true)
  | (rehearsal, true) =>
      let rehearsal := (timeline engines).runUntilDoneBefore
        (rehearsal.session.now + patience.nanos)
        (fun rehearsal => rehearsal.session.isStarted) rehearsal
      (rehearsal, rehearsal.session.isStarted)

end SessionRehearsal

end ScrapeRelay.Rehearsal
