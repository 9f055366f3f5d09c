import Mathlib.Data.List.Induction
import ScrapeRelay.Proofs.Lifecycle.Once

/-!
# Failures along a run

What goes wrong in a session, and what becomes of it: the host is told, or it is logged as a
failure of the background. `deeds` reads this off a step before it is made, from the phase of
the task and the answers of the engines; `step_fatal`, `step_log` and `step_pending` say that
this is all that a step does to the list of the host, to the log and to the place where a
failure waits to be logged.
-/

namespace ScrapeRelay.Lifecycle

/-- What a failure comes from. -/
inductive Source where
  | definitions
  | discovery
  | scraping
  | settings
deriving DecidableEq

inductive Deed where
  /-- A failure occurs. One of the background occurs as it is handed in to be logged. -/
  | failed (source : Source) (failure : Failure)
  /-- The host is told. -/
  | told (failure : Failure)
  /-- It is logged as a failure of the background. -/
  | noted (failure : Failure)
deriving DecidableEq

namespace Deed

/-- What the host hears of a deed. -/
def reports : Deed → List Failure
  | .told failure => [failure]
  | _ => []

/-- The notices that a deed leaves in the log. -/
def notices : Deed → List Notice
  | .failed .definitions failure => [.configRejected failure]
  | .failed .discovery failure => [.discoveryFailed failure]
  | .failed _ _ => []
  | .told failure => [.fatal failure]
  | .noted failure => [.backgroundFailure failure]

/-- Whether a deed is about failures that the host is told. -/
def isForHost : Deed → Bool
  | .failed .definitions _ | .failed .discovery _ | .told _ => true
  | _ => false

/-- What waits to be logged after a deed. A failure that finds the place taken is lost. -/
def leaves (pending : Option Failure) : Deed → Option Failure
  | .failed .scraping failure | .failed .settings failure => pending.or (some failure)
  | .noted _ => none
  | _ => pending

end Deed

theorem Log.add_append (now : Nat) (first second : List Notice) (log : Log) :
    log.add now (first ++ second) = (log.add now first).add now second :=
  List.foldl_append

namespace Session

variable {ε α : Type} {engines : Engines ε α} {session : Session ε}

/-- The result with which the discovery task ends in its next turn, if it does. -/
def discoveryResult (engines : Engines ε α) (session : Session ε) :
    Option (Except Failure Unit) :=
  match session.discovery with
  | .awake => (engines.beginDiscovery session.engines).2
  | .active => (engines.discoveryTurn session.isCancelled session.engines).result
  | _ => none

/-- The result with which the scrape task ends in its next step, if it does. -/
def scrapingResult (engines : Engines ε α) (session : Session ε) :
    Option (Except Failure Unit) :=
  match session.scraping with
  | .awake => (engines.beginScraping session.engines).2
  | .active => (engines.scrapingTurn session.isCancelled session.engines).result
  | _ => none

def startupDeeds (engines : Engines ε α) (session : Session ε) : List Deed :=
  match session.startup with
  | .equipped =>
      match (engines.installJobs session.receiver.scrape session.engines).2 with
      | .error failure => [.failed .definitions failure]
      | .ok _ => []
  | .refused failure => [.told failure]
  | .applied (.error failure) => [.failed .settings failure]
  | _ => []

def discoveryDeeds : Option (Except Failure Unit) → List Deed
  | some (.error failure) => [.failed .discovery failure, .told failure]
  | _ => []

def scrapingDeeds : Option (Except Failure Unit) → List Deed
  | some (.error failure) => [.failed .scraping failure]
  | _ => []

def loggingDeeds (session : Session ε) : List Deed :=
  match session.isLogging, session.pendingFailure with
  | true, some failure => [.noted failure]
  | _, _ => []

/-- What the next step of a task does about failures. -/
def deeds (engines : Engines ε α) (session : Session ε) : SessionTask α → List Deed
  | .startup => session.startupDeeds engines
  | .discovery => discoveryDeeds (session.discoveryResult engines)
  | .scraping => scrapingDeeds (session.scrapingResult engines)
  | .logging => session.loggingDeeds
  | .engine _ => []

/-- What the engines report of themselves in the next step of a task. -/
def engineNotices (engines : Engines ε α) (session : Session ε) : SessionTask α → List Notice
  | .startup =>
      match session.startup with
      | .gated =>
          if session.gateIsOpen then
            (engines.applyDiscovery session.receiver.scrape.discoveries session.engines).2.1
          else []
      | _ => []
  | .discovery =>
      match session.discovery with
      | .active => (engines.discoveryTurn session.isCancelled session.engines).notices
      | _ => []
  | .scraping =>
      match session.scraping with
      | .active => (engines.scrapingTurn session.isCancelled session.engines).notices
      | _ => []
  | .logging => []
  | .engine task => (engines.turn session.isCancelled session.now task session.engines).2

/-- A turn of discovery is what its result makes of a session in which the engines went on. -/
theorem discoveryTurn_eq (engines : Engines ε α) (session : Session ε) :
    ∃ state phase calls, session.discoveryTurn engines =
      endDiscovery (session.discoveryResult engines) { session with
        engines := state, discovery := phase, calls := calls
        log := session.log.add session.now (session.engineNotices engines .discovery) } := by
  unfold discoveryTurn discoveryResult engineNotices
  cases session.discovery with
  | awake => exact ⟨_, _, _, rfl⟩
  | active => exact ⟨_, session.discovery, session.calls, rfl⟩
  | _ => exact ⟨session.engines, session.discovery, session.calls, rfl⟩

theorem scrapingStep_eq (engines : Engines ε α) (session : Session ε) :
    ∃ state phase gate calls, session.scrapingStep engines =
      endScraping (session.scrapingResult engines) { session with
        engines := state, scraping := phase, gateIsOpen := gate, calls := calls
        log := session.log.add session.now (session.engineNotices engines .scraping) } := by
  unfold scrapingStep scrapingResult engineNotices
  cases session.scraping with
  | sleeping wake =>
      dsimp only
      split
      · exact ⟨session.engines, _, _, session.calls, rfl⟩
      · exact ⟨session.engines, session.scraping, session.gateIsOpen, session.calls, rfl⟩
  | awake => exact ⟨_, _, session.gateIsOpen, _, rfl⟩
  | active => exact ⟨_, session.scraping, session.gateIsOpen, session.calls, rfl⟩
  | _ => exact ⟨session.engines, session.scraping, session.gateIsOpen, session.calls, rfl⟩

theorem discoveryDeeds_leaves (result : Option (Except Failure Unit)) (pending : Option Failure) :
    (discoveryDeeds result).foldl Deed.leaves pending = pending := by
  unfold discoveryDeeds
  split <;> rfl

theorem scrapingDeeds_quiet (result : Option (Except Failure Unit)) :
    (scrapingDeeds result).flatMap Deed.reports = [] ∧
      (scrapingDeeds result).flatMap Deed.notices = [] := by
  unfold scrapingDeeds
  split <;> exact ⟨rfl, rfl⟩

theorem loggingDeeds_reports (session : Session ε) :
    session.loggingDeeds.flatMap Deed.reports = [] := by
  unfold loggingDeeds
  split <;> rfl

theorem endDiscovery_told (result : Option (Except Failure Unit)) (session : Session ε) :
    (session.endDiscovery result).fatal =
        session.fatal ++ (discoveryDeeds result).flatMap Deed.reports ∧
      (session.endDiscovery result).log =
        session.log.add session.now ((discoveryDeeds result).flatMap Deed.notices) ∧
      (session.endDiscovery result).pendingFailure = session.pendingFailure := by
  unfold endDiscovery discoveryDeeds
  split <;> simp [record, report, reportFatal, Deed.reports, Deed.notices, Log.add]

theorem endScraping_left (result : Option (Except Failure Unit)) (session : Session ε) :
    (session.endScraping result).fatal = session.fatal ∧
      (session.endScraping result).log = session.log ∧
      (session.endScraping result).pendingFailure =
        (scrapingDeeds result).foldl Deed.leaves session.pendingFailure := by
  unfold endScraping scrapingDeeds leaveFailure
  split
  · exact ⟨rfl, rfl, rfl⟩
  · exact ⟨rfl, rfl, rfl⟩
  · cases session.pendingFailure <;> simp [Deed.leaves]

theorem loggingTurn_noted (session : Session ε) :
    session.loggingTurn.log =
        session.log.add session.now (session.loggingDeeds.flatMap Deed.notices) ∧
      session.loggingTurn.pendingFailure =
        session.loggingDeeds.foldl Deed.leaves session.pendingFailure := by
  unfold loggingTurn loggingDeeds
  cases session.isLogging <;> cases waits : session.pendingFailure <;>
    simp [waits, report, Deed.notices, Deed.leaves, Log.add]

theorem startupStep_told (engines : Engines ε α) (session : Session ε) :
    (session.startupStep engines).fatal =
        session.fatal ++ (session.startupDeeds engines).flatMap Deed.reports ∧
      (session.startupStep engines).log =
        session.log.add session.now (session.engineNotices engines .startup ++
          (session.startupDeeds engines).flatMap Deed.notices) ∧
      (session.startupStep engines).pendingFailure =
        (session.startupDeeds engines).foldl Deed.leaves session.pendingFailure := by
  unfold startupStep startupDeeds engineNotices
  cases phase : session.startup with
  | equipped =>
      dsimp only [installJobs, record]
      split <;> rename_i installed <;>
        simp [installed, report, Deed.reports, Deed.notices, Deed.leaves, Log.add]
  | gated =>
      dsimp only [applyDiscovery, record]
      split <;> simp [report, Log.add]
  | refused failure =>
      simp [report, reportFatal, Deed.reports, Deed.notices, Deed.leaves, Log.add]
  | applied result =>
      cases result <;> cases pending : session.pendingFailure <;>
        simp [leaveFailure, pending, Deed.reports, Deed.notices, Deed.leaves, Log.add]
  | _ => exact ⟨(List.append_nil _).symm, rfl, rfl⟩

theorem step_fatal (engines : Engines ε α) (session : Session ε) (task : SessionTask α) :
    (session.step engines task).fatal =
      session.fatal ++ (session.deeds engines task).flatMap Deed.reports := by
  cases task with
  | startup => exact (session.startupStep_told engines).1
  | discovery =>
      obtain ⟨_, _, _, turned⟩ := session.discoveryTurn_eq engines
      rw [step, turned]
      exact (endDiscovery_told _ _).1
  | scraping =>
      obtain ⟨_, _, _, _, stepped⟩ := session.scrapingStep_eq engines
      rw [step, stepped, (endScraping_left _ _).1, deeds, (scrapingDeeds_quiet _).1,
        List.append_nil]
  | logging =>
      obtain ⟨_, _, turned⟩ := session.loggingTurn_frame
      rw [step, turned, deeds, loggingDeeds_reports, List.append_nil]
  | engine task => exact (List.append_nil _).symm

theorem step_log (engines : Engines ε α) (session : Session ε) (task : SessionTask α) :
    (session.step engines task).log =
      session.log.add session.now (session.engineNotices engines task ++
        (session.deeds engines task).flatMap Deed.notices) := by
  cases task with
  | startup => exact (session.startupStep_told engines).2.1
  | discovery =>
      obtain ⟨_, _, _, turned⟩ := session.discoveryTurn_eq engines
      rw [step, turned, (endDiscovery_told _ _).2.1, Log.add_append]
      rfl
  | scraping =>
      obtain ⟨_, _, _, _, stepped⟩ := session.scrapingStep_eq engines
      rw [step, stepped, (endScraping_left _ _).2.1, deeds, (scrapingDeeds_quiet _).2,
        List.append_nil]
  | logging => exact session.loggingTurn_noted.1
  | engine task => exact congrArg (session.log.add session.now) (List.append_nil _).symm

theorem step_pending (engines : Engines ε α) (session : Session ε) (task : SessionTask α) :
    (session.step engines task).pendingFailure =
      (session.deeds engines task).foldl Deed.leaves session.pendingFailure := by
  cases task with
  | startup => exact (session.startupStep_told engines).2.2
  | discovery =>
      obtain ⟨_, _, _, turned⟩ := session.discoveryTurn_eq engines
      rw [step, turned, (endDiscovery_told _ _).2.2, deeds, discoveryDeeds_leaves]
  | scraping =>
      obtain ⟨_, _, _, _, stepped⟩ := session.scrapingStep_eq engines
      rw [step, stepped]
      exact (endScraping_left _ _).2.2
  | logging => exact session.loggingTurn_noted.2
  | engine task => rfl

end Session

namespace Threads

variable {ε α : Type} {engines : Engines ε α} {threads : Threads ε}

def deeds (engines : Engines ε α) (threads : Threads ε) : Act ε α → List Deed
  | .step task => threads.session.deeds engines task
  | _ => []

def engineNotices (engines : Engines ε α) (threads : Threads ε) : Act ε α → List Notice
  | .step task => threads.session.engineNotices engines task
  | _ => []

/-- All that is done about failures in a run, in order. -/
def trace (engines : Engines ε α) (threads : Threads ε) : List (Act ε α) → List Deed
  | [] => []
  | act :: acts => threads.deeds engines act ++ trace engines (perform engines threads act) acts

theorem trace_append (before after : List (Act ε α)) :
    trace engines threads (before ++ after) =
      trace engines threads before ++ trace engines (run engines threads before) after := by
  induction before generalizing threads with
  | nil => rfl
  | cons act before ih =>
      simp only [List.cons_append, trace, ih, List.append_assoc]
      rfl

theorem trace_concat (acts : List (Act ε α)) (act : Act ε α) :
    trace engines threads (acts ++ [act]) =
      trace engines threads acts ++ (run engines threads acts).deeds engines act := by
  rw [trace_append, trace, trace, List.append_nil]

/-- What is no step of a task changes neither the tasks nor anything about failures. -/
structure Aside (before after : Session ε) : Prop where
  fatal : after.fatal = before.fatal
  log : after.log = before.log
  pending : after.pendingFailure = before.pendingFailure
  isLogging : after.isLogging = before.isLogging
  discovery : after.discovery = before.discovery
  scraping : after.scraping = before.scraping
  cancelled : before.control.isCancelled = true → after.control.isCancelled = true
  startup : after.startup = before.startup ∨
    before.startup = .absent ∧ after.startup = .launched

theorem perform_aside (engines : Engines ε α) (once : threads.StartsOnce) {act : Act ε α}
    (other : ∀ task, act ≠ .step task) :
    Aside threads.session (perform engines threads act).session := by
  have start {number : Nat} {after : Threads ε} (move : StartMove threads number after) :
      Aside threads.session after.session := by
    cases move with
    | launch claimed =>
        exact ⟨rfl, rfl, rfl, rfl, rfl, rfl, id, .inr ⟨once.claimed number claimed, rfl⟩⟩
    | _ => exact ⟨rfl, rfl, rfl, rfl, rfl, rfl, id, .inl rfl⟩
  have stop {number : Nat} {after : Threads ε} (move : StopMove threads number after) :
      Aside threads.session after.session := by
    cases move with
    | withdraw marked unlocked =>
        refine ⟨rfl, rfl, rfl, rfl, rfl, rfl, fun cancelled => ?_, .inl rfl⟩
        simp [setStop, setControl, cancelled]
    | _ => exact ⟨rfl, rfl, rfl, rfl, rfl, rfl, id, .inl rfl⟩
  cases act with
  | start number => exact start (threads.startStep_move number)
  | dropStart number => exact start (threads.dropStart_move number)
  | stop number => exact stop (threads.stopStep_move number)
  | step task => exact absurd rfl (other task)
  | _ => exact ⟨rfl, rfl, rfl, rfl, rfl, rfl, id, .inl rfl⟩

end Threads

end ScrapeRelay.Lifecycle
