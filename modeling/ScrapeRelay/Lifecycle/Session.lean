import ScrapeRelay.Lifecycle.Control
import ScrapeRelay.Lifecycle.Engines
import ScrapeRelay.Timeline

/-!
# Receiver sessions

A session is the life of one receiver within its host. The first start launches
the startup task, which goes on by itself:

1. it leaves the token for a stop and builds the engines;
2. it gives the scrape engine the job definitions; if they are rejected, the
   session ends with a fatal error;
3. it launches the discovery task and the scrape task;
4. it waits for the gate, which the scrape task opens after a grace period before it
   begins scraping;
5. it gives the discovery engine the settings of each job and launches the task that
   logs errors of the background.

A failure of the discovery task is fatal. Failures of scraping and of the settings
go to the log by way of a single place; what finds it taken is lost. A stop cancels
the engines, and so does the host.
-/

namespace ScrapeRelay.Lifecycle

def sourceName : String := "Prometheus"

inductive Call where
  | installJobs
  | applyDiscovery
  | runDiscovery
  | runScraping
  | discoveryEnded
  | scrapingEnded
deriving DecidableEq

inductive Ending where
  /-- A stop came before it. -/
  | turnedAway
  /-- The job definitions were rejected. -/
  | failed
  | completed
deriving DecidableEq

inductive StartupPhase where
  | absent
  | launched
  /-- Has locked the place of the token, and knows whether a stop came. -/
  | entered (stopCame : Bool)
  /-- Has left the token. -/
  | admitted
  /-- Has built the engines. -/
  | equipped
  /-- The job definitions were rejected. -/
  | rejected (failure : Failure)
  /-- Has cancelled the engines. -/
  | revoked (failure : Failure)
  /-- Has given itself up. -/
  | refused (failure : Failure)
  /-- The job definitions were accepted. -/
  | accepted
  /-- Has launched the discovery task. -/
  | discovering
  /-- Waits for the gate, having launched the scrape task. -/
  | gated
  /-- Has applied the discovery settings. -/
  | applied (result : Except Failure Unit)
  /-- Has launched the task that logs. -/
  | settled
  | finished (ending : Ending)

/-- How far the task that runs an engine is. -/
inductive RunPhase where
  | absent
  /-- Goes on at an instant. -/
  | sleeping (wake : Nat)
  /-- About to begin. -/
  | awake
  | active
  | ended
deriving DecidableEq

structure Session (ε : Type) where
  receiver : Config.Receiver
  control : Control
  hostCancelled : Bool
  now : Nat
  engines : ε
  startup : StartupPhase
  discovery : RunPhase
  scraping : RunPhase
  gateIsOpen : Bool
  /-- The background failure that waits to be logged. -/
  pendingFailure : Option Failure
  /-- Whether the task that logs background failures runs. -/
  isLogging : Bool
  /-- The failures reported to the host, in order. -/
  fatal : List Failure
  log : Log
  /-- The calls of the engines, with the instants. -/
  calls : List (Nat × Call)

inductive SessionTask (α : Type) where
  | startup
  | discovery
  | scraping
  | logging
  | engine (task : α)
deriving DecidableEq

namespace Session

variable {ε α : Type}

def new (engines : Engines ε α) (receiver : Config.Receiver) : Session ε :=
  ⟨receiver, .new, false, 0, engines.new, .absent, .absent, .absent, false, none, false, [], [], []⟩

def isCancelled (session : Session ε) : Bool :=
  session.control.isCancelled || session.hostCancelled

def report (notices : List Notice) (session : Session ε) : Session ε :=
  { session with log := session.log.add session.now notices }

def record (call : Call) (session : Session ε) : Session ε :=
  { session with calls := session.calls ++ [(session.now, call)] }

def reportFatal (failure : Failure) (session : Session ε) : Session ε :=
  { session.report [.fatal failure] with fatal := session.fatal ++ [failure] }

def leaveFailure (result : Except Failure Unit) (session : Session ε) : Session ε :=
  match result, session.pendingFailure with
  | .error failure, none => { session with pendingFailure := some failure }
  | _, _ => session

/-- Ask for the startup. Only the first to ask may launch it. -/
def claim (session : Session ε) : Session ε × Bool :=
  let (control, first) := session.control.claim
  ({ session with control := control }, first)

def launch (session : Session ε) : Session ε := { session with startup := .launched }

/-- Start the receiver. The answer tells whether this start launched the startup. -/
def start (session : Session ε) : Session ε × Bool :=
  match session.claim with
  | (session, true) => (session.launch, true)
  | (session, false) => (session, false)

def isStarted (session : Session ε) : Bool :=
  match session.startup with
  | .finished _ => true
  | _ => false

def stop (session : Session ε) : Session ε := { session with control := session.control.stop }

def cancelHost (session : Session ε) : Session ε := { session with hostCancelled := true }

def enterStartup (session : Session ε) : Session ε :=
  { session with startup := .entered session.control.stopCame }

def depositToken (stopCame : Bool) (session : Session ε) : Session ε :=
  { session with
    control := session.control.deposit stopCame
    startup := if stopCame then .finished .turnedAway else .admitted }

def installJobs (engines : Engines ε α) (session : Session ε) : Session ε :=
  let session := session.record .installJobs
  match engines.installJobs session.receiver.scrape session.engines with
  | (state, .error failure) =>
      { session with engines := state, startup := .rejected failure }.report
        [.configRejected failure]
  | (state, .ok _) => { session with engines := state, startup := .accepted }

/-- Give the discovery engine the settings of each job, once the gate is open. -/
def applyDiscovery (engines : Engines ε α) (session : Session ε) : Session ε :=
  if session.gateIsOpen then
    let session := session.record .applyDiscovery
    let (state, notices, result) :=
      engines.applyDiscovery session.receiver.scrape.discoveries session.engines
    { session with engines := state, startup := .applied result }.report notices
  else session

def startupStep (engines : Engines ε α) (session : Session ε) : Session ε :=
  match session.startup with
  | .absent => session
  | .launched => session.enterStartup
  | .entered stopCame => session.depositToken stopCame
  | .admitted => { session with startup := .equipped }
  | .equipped => session.installJobs engines
  | .rejected failure =>
      { session with control := session.control.cancel, startup := .revoked failure }
  | .revoked failure =>
      { session with control := session.control.refuse, startup := .refused failure }
  | .refused failure => { session with startup := .finished .failed }.reportFatal failure
  | .accepted => { session with discovery := .awake, startup := .discovering }
  | .discovering =>
      { session with
        scraping := .sleeping (session.now + session.receiver.startupGrace.nanos)
        startup := .gated }
  | .gated => session.applyDiscovery engines
  | .applied result =>
      { session.leaveFailure result with isLogging := true, startup := .settled }
  | .settled =>
      { session with control := session.control.confirm, startup := .finished .completed }
  | .finished _ => session

/-- The most steps that the startup makes between two waits. -/
def stepsPerTurn : Nat := 7

/-- A turn of the startup: all steps up to the next wait. -/
def startupTurn (engines : Engines ε α) (session : Session ε) : Session ε :=
  Nat.repeat (startupStep engines) stepsPerTurn session

def endDiscovery (result : Option (Except Failure Unit)) (session : Session ε) : Session ε :=
  match result with
  | none => session
  | some (.ok _) => { session with discovery := .ended }.record .discoveryEnded
  | some (.error failure) =>
      ({ session with discovery := .ended }.report [.discoveryFailed failure]).reportFatal failure

def beginDiscovery (engines : Engines ε α) (session : Session ε) :
    Session ε × Option (Except Failure Unit) :=
  let session := { session with discovery := .active }.record .runDiscovery
  let (state, result) := engines.beginDiscovery session.engines
  ({ session with engines := state }, result)

def resumeDiscovery (engines : Engines ε α) (session : Session ε) :
    Session ε × Option (Except Failure Unit) :=
  let turn := engines.discoveryTurn session.isCancelled session.engines
  ({ session with engines := turn.engines }.report turn.notices, turn.result)

def discoveryTurn (engines : Engines ε α) (session : Session ε) : Session ε :=
  match session.discovery with
  | .awake =>
      let (session, result) := session.beginDiscovery engines
      session.endDiscovery result
  | .active =>
      let (session, result) := session.resumeDiscovery engines
      session.endDiscovery result
  | _ => session

def endScraping (result : Option (Except Failure Unit)) (session : Session ε) : Session ε :=
  match result with
  | none => session
  | some (.ok _) => { session with scraping := .ended }.record .scrapingEnded
  | some (.error failure) => { session with scraping := .ended }.leaveFailure (.error failure)

def beginScraping (engines : Engines ε α) (session : Session ε) :
    Session ε × Option (Except Failure Unit) :=
  let session := { session with scraping := .active }.record .runScraping
  let (state, result) := engines.beginScraping session.engines
  ({ session with engines := state }, result)

def resumeScraping (engines : Engines ε α) (session : Session ε) :
    Session ε × Option (Except Failure Unit) :=
  let turn := engines.scrapingTurn session.isCancelled session.engines
  ({ session with engines := turn.engines }.report turn.notices, turn.result)

/-- A single step of the scrape task. It opens the gate before it begins scraping. -/
def scrapingStep (engines : Engines ε α) (session : Session ε) : Session ε :=
  match session.scraping with
  | .sleeping wake =>
      if wake ≤ session.now then { session with gateIsOpen := true, scraping := .awake }
      else session
  | .awake =>
      let (session, result) := session.beginScraping engines
      session.endScraping result
  | .active =>
      let (session, result) := session.resumeScraping engines
      session.endScraping result
  | _ => session

/-- A turn of the scrape task, which begins scraping as soon as it has opened the gate. -/
def scrapingTurn (engines : Engines ε α) (session : Session ε) : Session ε :=
  match session.scraping with
  | .sleeping _ => (session.scrapingStep engines).scrapingStep engines
  | _ => session.scrapingStep engines

def loggingTurn (session : Session ε) : Session ε :=
  match session.isLogging, session.pendingFailure with
  | true, some failure =>
      { session with pendingFailure := none }.report [.backgroundFailure failure]
  | _, _ => session

def engineTurn (engines : Engines ε α) (task : α) (session : Session ε) : Session ε :=
  let (state, notices) := engines.turn session.isCancelled session.now task session.engines
  { session with engines := state }.report notices

def step (engines : Engines ε α) (task : SessionTask α) (session : Session ε) : Session ε :=
  match task with
  | .startup => session.startupStep engines
  | .discovery => session.discoveryTurn engines
  | .scraping => session.scrapingStep engines
  | .logging => session.loggingTurn
  | .engine task => session.engineTurn engines task

def turn (engines : Engines ε α) (task : SessionTask α) (session : Session ε) : Session ε :=
  match task with
  | .startup => session.startupTurn engines
  | .scraping => session.scrapingTurn engines
  | task => session.step engines task

def startupIsReady (session : Session ε) : Bool :=
  match session.startup with
  | .absent | .finished _ => false
  | .gated => session.gateIsOpen
  | _ => true

def runIsReady (now : Nat) (engineIsReady : Bool) : RunPhase → Bool
  | .sleeping wake => wake ≤ now
  | .awake => true
  | .active => engineIsReady
  | _ => false

def ready (engines : Engines ε α) (session : Session ε) : List (SessionTask α) :=
  let when (condition : Bool) (task : SessionTask α) : List (SessionTask α) :=
    if condition then [task] else []
  let cancelled := session.isCancelled
  when session.startupIsReady .startup ++
    when (runIsReady session.now (engines.discoveryIsReady cancelled session.engines)
      session.discovery) .discovery ++
    when (runIsReady session.now (engines.scrapingIsReady cancelled session.engines)
      session.scraping) .scraping ++
    when (session.isLogging && session.pendingFailure.isSome) .logging ++
    (engines.ready cancelled session.now session.engines).map SessionTask.engine

def wakeTimes : RunPhase → List Nat
  | .sleeping wake => [wake]
  | _ => []

def timeline (engines : Engines ε α) : Timeline (Session ε) (SessionTask α) where
  now := Session.now
  wait time session := { session with now := time }
  ready := ready engines
  turn := turn engines
  dues session :=
    wakeTimes session.discovery ++ wakeTimes session.scraping ++ engines.dues session.engines

end Session

end ScrapeRelay.Lifecycle
