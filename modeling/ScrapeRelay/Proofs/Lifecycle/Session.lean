import ScrapeRelay.Lifecycle.Session

/-!
# Steps of a session

What each step of a task can change in a session, and which calls of the engines it
adds.
-/

namespace ScrapeRelay.Lifecycle

/-! ## Phases -/

namespace RunPhase

def isLaunched : RunPhase → Bool
  | .absent => false
  | _ => true

def hasBegun : RunPhase → Bool
  | .active | .ended => true
  | _ => false

/-- Whether the task has slept. -/
def hasWoken : RunPhase → Bool
  | .awake | .active | .ended => true
  | _ => false

theorem eq_absent {phase : RunPhase} (unlaunched : phase.isLaunched = false) : phase = .absent := by
  cases phase <;> simp_all [isLaunched]

theorem hasWoken_of_hasBegun {phase : RunPhase} (begun : phase.hasBegun = true) :
    phase.hasWoken = true := by
  cases phase <;> simp_all [hasBegun, hasWoken]

theorem hasBegun_of_not_hasWoken {phase : RunPhase} (asleep : phase.hasWoken = false) :
    phase.hasBegun = false := by
  cases phase <;> simp_all [hasBegun, hasWoken]

theorem eq_awake {phase : RunPhase} (woken : phase.hasWoken = true)
    (waits : phase.hasBegun = false) : phase = .awake := by
  cases phase <;> simp_all [hasBegun, hasWoken]

theorem isLaunched_of_hasWoken {phase : RunPhase} (woken : phase.hasWoken = true) :
    phase.isLaunched = true := by
  cases phase <;> simp_all [hasWoken, isLaunched]

theorem isLaunched_of_hasBegun {phase : RunPhase} (begun : phase.hasBegun = true) :
    phase.isLaunched = true :=
  isLaunched_of_hasWoken (hasWoken_of_hasBegun begun)

end RunPhase

namespace StartupPhase

def hasEngines : StartupPhase → Bool
  | .absent | .launched | .entered _ | .admitted | .finished .turnedAway => false
  | _ => true

def hasInstalled : StartupPhase → Bool
  | .equipped => false
  | phase => phase.hasEngines

def hasLaunchedDiscovery : StartupPhase → Bool
  | .discovering | .gated | .applied _ | .settled | .finished .completed => true
  | _ => false

def hasLaunchedScraping : StartupPhase → Bool
  | .gated | .applied _ | .settled | .finished .completed => true
  | _ => false

def hasApplied : StartupPhase → Bool
  | .applied _ | .settled | .finished .completed => true
  | _ => false

theorem hasInstalled_of_hasLaunchedDiscovery {phase : StartupPhase}
    (launched : phase.hasLaunchedDiscovery = true) : phase.hasInstalled = true := by
  cases phase with
  | finished ending => cases ending <;> simp_all [hasLaunchedDiscovery, hasInstalled, hasEngines]
  | _ => simp_all [hasLaunchedDiscovery, hasInstalled, hasEngines]

theorem hasInstalled_of_hasLaunchedScraping {phase : StartupPhase}
    (launched : phase.hasLaunchedScraping = true) : phase.hasInstalled = true := by
  cases phase with
  | finished ending => cases ending <;> simp_all [hasLaunchedScraping, hasInstalled, hasEngines]
  | _ => simp_all [hasLaunchedScraping, hasInstalled, hasEngines]

theorem hasInstalled_of_hasApplied {phase : StartupPhase}
    (applied : phase.hasApplied = true) : phase.hasInstalled = true := by
  cases phase with
  | finished ending => cases ending <;> simp_all [hasApplied, hasInstalled, hasEngines]
  | _ => simp_all [hasApplied, hasInstalled, hasEngines]

/-- Whether the job definitions turned out to be bad. -/
def isRejected : StartupPhase → Bool
  | .rejected _ | .revoked _ | .refused _ | .finished .failed => true
  | _ => false

theorem flags_of_isRejected {phase : StartupPhase} (rejected : phase.isRejected = true) :
    phase.hasApplied = false ∧ phase.hasLaunchedDiscovery = false ∧
      phase.hasLaunchedScraping = false := by
  cases phase with
  | finished ending => cases ending <;> simp_all [isRejected, hasApplied, hasLaunchedDiscovery,
      hasLaunchedScraping]
  | _ => simp_all [isRejected, hasApplied, hasLaunchedDiscovery, hasLaunchedScraping]

theorem flags_of_no_engines {phase : StartupPhase} (none : phase.hasEngines = false) :
    phase.hasLaunchedDiscovery = false ∧ phase.hasLaunchedScraping = false := by
  cases phase with
  | finished ending => cases ending <;> simp_all [hasEngines, hasLaunchedDiscovery,
      hasLaunchedScraping]
  | _ => simp_all [hasEngines, hasLaunchedDiscovery, hasLaunchedScraping]

def holdsLock : StartupPhase → Bool
  | .entered _ => true
  | _ => false

/-- Whether the startup has not come to the place of the token, or found there that a
stop came. -/
def isOutside : StartupPhase → Bool
  | .absent | .launched | .entered true => true
  | _ => false

/-- Where a single step can take the startup. -/
inductive Leads : StartupPhase → StartupPhase → Prop where
  | stay (phase : StartupPhase) : Leads phase phase
  | launch : Leads .absent .launched
  | enter (stopCame : Bool) : Leads .launched (.entered stopCame)
  | turnAway : Leads (.entered true) (.finished .turnedAway)
  | letIn : Leads (.entered false) .admitted
  | equip : Leads .admitted .equipped
  | reject (failure : Failure) : Leads .equipped (.rejected failure)
  | revoke (failure : Failure) : Leads (.rejected failure) (.revoked failure)
  | refuse (failure : Failure) : Leads (.revoked failure) (.refused failure)
  | fail (failure : Failure) : Leads (.refused failure) (.finished .failed)
  | accept : Leads .equipped .accepted
  | discover : Leads .accepted .discovering
  | wait : Leads .discovering .gated
  | apply (result : Except Failure Unit) : Leads .gated (.applied result)
  | settle (result : Except Failure Unit) : Leads (.applied result) .settled
  | complete : Leads .settled (.finished .completed)

namespace Leads

variable {before after : StartupPhase}

theorem hasEngines (leads : Leads before after) (built : before.hasEngines = true) :
    after.hasEngines = true := by
  cases leads <;> simp_all [StartupPhase.hasEngines]

theorem hasLaunchedDiscovery (leads : Leads before after)
    (launched : before.hasLaunchedDiscovery = true) : after.hasLaunchedDiscovery = true := by
  cases leads <;> simp_all [StartupPhase.hasLaunchedDiscovery]

theorem hasLaunchedScraping (leads : Leads before after)
    (launched : before.hasLaunchedScraping = true) : after.hasLaunchedScraping = true := by
  cases leads <;> simp_all [StartupPhase.hasLaunchedScraping]

theorem isRejected (leads : Leads before after) (rejected : before.isRejected = true) :
    after.isRejected = true := by
  cases leads <;> simp_all [StartupPhase.isRejected]

/-- Once the startup is past the place of the token, it stays past it. -/
theorem isInside (leads : Leads before after) (inside : before.isOutside = false) :
    after.isOutside = false := by
  cases leads <;> simp_all [StartupPhase.isOutside]

end Leads

end StartupPhase

namespace Session

variable {ε α : Type} {engines : Engines ε α} {session : Session ε}

def count (call : Call) (session : Session ε) : Nat :=
  session.calls.countP (fun entry => entry.2 = call)

/-- Only the first start launches the startup. -/
theorem start_eq (session : Session ε) :
    session.start.1 =
      if session.control.stage = .idle then
        { session with
          control := { session.control with stage := .starting }
          startup := .launched }
      else session := by
  unfold start claim Control.claim Control.move
  by_cases idle : session.control.stage = .idle
  · simp only [if_pos idle]
    rfl
  · simp only [if_neg idle]

/-- Only the first stop does anything. -/
theorem stop_eq (session : Session ε) :
    session.stop =
      if session.control.stopLatch.isDone then session
      else { session with
        control := ⟨.stopped, ⟨true⟩, false,
          session.control.holdsToken || session.control.isCancelled⟩ } := by
  cases done : session.control.stopLatch.isDone with
  | true =>
      have latch : session.control.stopLatch = ⟨true⟩ := by rw [← done]
      have refused : session.control.enterStop = (session.control, false) := by
        rw [Control.enterStop, Latch.pass, done, ← latch]
        rfl
      simp only [stop, Control.stop, refused, if_true]
  | false =>
      have withdrawn (control : Control) : control.withdraw.markStopped =
          ⟨.stopped, control.stopLatch, false, control.holdsToken || control.isCancelled⟩ := by
        rw [Control.markStopped, ← control.withdraw_stopLatch, ← control.withdraw_isCancelled,
          ← control.withdraw_holdsToken]
      simp [stop, Control.stop, Control.enterStop, Latch.pass, done, withdrawn,
        Control.markStopping]

/-! ## What a step leaves alone -/

theorem leaveFailure_frame (result : Except Failure Unit) (session : Session ε) :
    ∃ pending, session.leaveFailure result = { session with pendingFailure := pending } := by
  unfold leaveFailure
  split
  · exact ⟨_, rfl⟩
  · exact ⟨session.pendingFailure, rfl⟩

theorem endDiscovery_frame (result : Option (Except Failure Unit)) (session : Session ε) :
    ∃ discovery fatal log calls, session.endDiscovery result =
      { session with discovery := discovery, fatal := fatal, log := log, calls := calls } := by
  unfold endDiscovery
  split
  · exact ⟨_, _, _, _, rfl⟩
  · exact ⟨_, _, _, _, rfl⟩
  · exact ⟨_, _, _, _, rfl⟩

theorem discoveryTurn_frame (engines : Engines ε α) (session : Session ε) :
    ∃ state discovery fatal log calls, session.discoveryTurn engines =
      { session with
        engines := state, discovery := discovery, fatal := fatal, log := log, calls := calls } := by
  unfold discoveryTurn
  split
  · obtain ⟨_, _, _, _, ended⟩ := endDiscovery_frame (session.beginDiscovery engines).2
      (session.beginDiscovery engines).1
    exact ⟨_, _, _, _, _, ended⟩
  · obtain ⟨_, _, _, _, ended⟩ := endDiscovery_frame (session.resumeDiscovery engines).2
      (session.resumeDiscovery engines).1
    exact ⟨_, _, _, _, _, ended⟩
  · exact ⟨_, _, _, _, _, rfl⟩

theorem endScraping_frame (result : Option (Except Failure Unit)) (session : Session ε) :
    ∃ scraping pending calls, session.endScraping result =
      { session with scraping := scraping, pendingFailure := pending, calls := calls } := by
  unfold endScraping leaveFailure
  split
  · exact ⟨_, _, _, rfl⟩
  · exact ⟨_, _, _, rfl⟩
  · split <;> exact ⟨_, _, _, rfl⟩

theorem scrapingStep_frame (engines : Engines ε α) (session : Session ε) :
    ∃ state scraping gate pending log calls, session.scrapingStep engines =
      { session with
        engines := state, scraping := scraping, gateIsOpen := gate
        pendingFailure := pending, log := log, calls := calls } := by
  unfold scrapingStep
  split
  · split <;> exact ⟨_, _, _, _, _, _, rfl⟩
  · obtain ⟨_, _, _, ended⟩ := endScraping_frame (session.beginScraping engines).2
      (session.beginScraping engines).1
    exact ⟨_, _, _, _, _, _, ended⟩
  · obtain ⟨_, _, _, ended⟩ := endScraping_frame (session.resumeScraping engines).2
      (session.resumeScraping engines).1
    exact ⟨_, _, _, _, _, _, ended⟩
  · exact ⟨_, _, _, _, _, _, rfl⟩

theorem loggingTurn_frame (session : Session ε) :
    ∃ pending log,
      session.loggingTurn = { session with pendingFailure := pending, log := log } := by
  unfold loggingTurn
  split
  · exact ⟨_, _, rfl⟩
  · exact ⟨_, _, rfl⟩

theorem loggingTurn_engines (session : Session ε) :
    session.loggingTurn.engines = session.engines := by
  obtain ⟨_, _, stepped⟩ := session.loggingTurn_frame
  rw [stepped]

/-- No task but the startup changes how far the startup is, or the control. -/
theorem step_frame (engines : Engines ε α) {task : SessionTask α} (session : Session ε)
    (other : task ≠ .startup) :
    (session.step engines task).startup = session.startup ∧
      (session.step engines task).control = session.control ∧
      (session.step engines task).receiver = session.receiver ∧
      (session.step engines task).now = session.now ∧
      (session.step engines task).hostCancelled = session.hostCancelled := by
  cases task with
  | startup => exact absurd rfl other
  | discovery =>
      obtain ⟨_, _, _, _, _, stepped⟩ := session.discoveryTurn_frame engines
      rw [step, stepped]
      exact ⟨rfl, rfl, rfl, rfl, rfl⟩
  | scraping =>
      obtain ⟨_, _, _, _, _, _, stepped⟩ := session.scrapingStep_frame engines
      rw [step, stepped]
      exact ⟨rfl, rfl, rfl, rfl, rfl⟩
  | logging =>
      obtain ⟨_, _, stepped⟩ := session.loggingTurn_frame
      rw [step, stepped]
      exact ⟨rfl, rfl, rfl, rfl, rfl⟩
  | engine task => exact ⟨rfl, rfl, rfl, rfl, rfl⟩

/-! ## Steps of the startup -/

theorem startupStep_control (engines : Engines ε α) (session : Session ε) :
    (session.startupStep engines).control =
      match session.startup with
      | .entered stopCame => session.control.deposit stopCame
      | .rejected _ => session.control.cancel
      | .revoked _ => session.control.refuse
      | .settled => session.control.confirm
      | _ => session.control := by
  unfold startupStep
  cases phase : session.startup with
  | equipped =>
      dsimp only [installJobs]
      split <;> rfl
  | gated =>
      dsimp only [applyDiscovery]
      split <;> rfl
  | applied result =>
      obtain ⟨_, left⟩ := leaveFailure_frame result session
      dsimp only
      rw [left]
  | _ => rfl

theorem startupStep_startup (engines : Engines ε α) (session : Session ε) :
    (session.startupStep engines).startup =
      match session.startup with
      | .absent => .absent
      | .launched => .entered session.control.stopCame
      | .entered stopCame => if stopCame then .finished .turnedAway else .admitted
      | .admitted => .equipped
      | .equipped =>
          match (engines.installJobs session.receiver.scrape session.engines).2 with
          | .error failure => .rejected failure
          | .ok _ => .accepted
      | .rejected failure => .revoked failure
      | .revoked failure => .refused failure
      | .refused _ => .finished .failed
      | .accepted => .discovering
      | .discovering => .gated
      | .gated =>
          if session.gateIsOpen then
            .applied (engines.applyDiscovery session.receiver.scrape.discoveries
              session.engines).2.2
          else .gated
      | .applied _ => .settled
      | .settled => .finished .completed
      | .finished ending => .finished ending := by
  unfold startupStep
  cases phase : session.startup with
  | equipped =>
      dsimp only [installJobs]
      split
      · rename_i installed
        rw [record] at installed
        simp only [installed]
        rfl
      · rename_i installed
        rw [record] at installed
        simp only [installed]
  | gated =>
      dsimp only [applyDiscovery]
      split
      · rfl
      · exact phase
  | absent => exact phase
  | finished ending => exact phase
  | _ => rfl

/-- What the startup does to the engines. -/
theorem startupStep_engines (engines : Engines ε α) (session : Session ε) :
    (session.startupStep engines).engines =
      match session.startup with
      | .equipped => (engines.installJobs session.receiver.scrape session.engines).1
      | .gated =>
          if session.gateIsOpen then
            (engines.applyDiscovery session.receiver.scrape.discoveries session.engines).1
          else session.engines
      | _ => session.engines := by
  unfold startupStep
  cases phase : session.startup with
  | equipped =>
      dsimp only [installJobs]
      split
      · rename_i installed
        rw [record] at installed
        simp only [installed]
        rfl
      · rename_i installed
        rw [record] at installed
        simp only [installed]
  | gated =>
      dsimp only [applyDiscovery]
      split <;> rfl
  | applied result =>
      obtain ⟨_, left⟩ := leaveFailure_frame result session
      dsimp only
      rw [left]
  | _ => rfl

theorem startupStep_leads (engines : Engines ε α) (session : Session ε) :
    session.startup.Leads (session.startupStep engines).startup := by
  rw [startupStep_startup]
  cases session.startup with
  | entered stopCame =>
      cases stopCame with
      | true => exact .turnAway
      | false => exact .letIn
  | equipped =>
      dsimp only
      split
      · exact .reject _
      · exact .accept
  | gated =>
      dsimp only
      split
      · exact .apply _
      · exact .stay _
  | _ => constructor

theorem startupStep_frame (engines : Engines ε α) (session : Session ε) :
    (session.startupStep engines).receiver = session.receiver ∧
      (session.startupStep engines).now = session.now ∧
      (session.startupStep engines).gateIsOpen = session.gateIsOpen ∧
      (session.startupStep engines).hostCancelled = session.hostCancelled := by
  unfold startupStep
  cases phase : session.startup with
  | equipped =>
      dsimp only [installJobs]
      split <;> exact ⟨rfl, rfl, rfl, rfl⟩
  | gated =>
      dsimp only [applyDiscovery]
      split <;> exact ⟨rfl, rfl, rfl, rfl⟩
  | applied result =>
      obtain ⟨_, left⟩ := leaveFailure_frame result session
      dsimp only
      rw [left]
      exact ⟨rfl, rfl, rfl, rfl⟩
  | _ => exact ⟨rfl, rfl, rfl, rfl⟩

theorem startupStep_absent_iff (engines : Engines ε α) (session : Session ε) :
    (session.startupStep engines).startup = .absent ↔ session.startup = .absent := by
  rw [startupStep_startup]
  cases session.startup with
  | entered stopCame => cases stopCame <;> simp
  | equipped => dsimp only; split <;> simp
  | gated => dsimp only; split <;> simp
  | _ => simp

/-- The startup leaves every stage but its own alone, and never goes back to the first. -/
theorem startupStep_stage (engines : Engines ε α) (session : Session ε) :
    (session.startupStep engines).control.stage = session.control.stage ∨
      session.control.stage = .starting ∧
        (session.startupStep engines).control.stage ≠ .idle := by
  rw [startupStep_control]
  cases session.startup with
  | entered stopCame => cases stopCame <;> exact .inl rfl
  | revoked failure =>
      dsimp only [Control.refuse, Control.move]
      split
      · rename_i starting
        exact .inr ⟨starting, by simp⟩
      · exact .inl rfl
  | settled =>
      dsimp only [Control.confirm, Control.move]
      split
      · rename_i starting
        exact .inr ⟨starting, by simp⟩
      · exact .inl rfl
  | _ => exact .inl rfl

/-- What the startup does about the token, and that it leaves the latch alone. -/
theorem startupStep_token (engines : Engines ε α) (session : Session ε) :
    (session.startupStep engines).control.stopLatch = session.control.stopLatch ∧
      ((session.startupStep engines).control.holdsToken = true →
        session.control.holdsToken = true ∨ session.startup = .entered false) ∧
      (session.control.holdsToken = true →
        (session.startupStep engines).control.holdsToken = true) ∧
      (session.control.isCancelled = true →
        (session.startupStep engines).control.isCancelled = true) := by
  rw [startupStep_control]
  cases session.startup with
  | entered stopCame => cases stopCame <;> simp [Control.deposit]
  | revoked failure =>
      dsimp only [Control.refuse, Control.move]
      split <;> simp
  | settled =>
      dsimp only [Control.confirm, Control.move]
      split <;> simp
  | rejected failure => simp [Control.cancel]
  | _ => simp

/-- The place of the token is locked by a launched startup, which looks for a stop then. -/
theorem startupStep_entered (engines : Engines ε α) {session : Session ε} {stopCame : Bool}
    (entered : (session.startupStep engines).startup = .entered stopCame) :
    session.startup = .launched ∧ session.control.stopCame = stopCame := by
  rw [startupStep_startup] at entered
  cases phase : session.startup with
  | launched => exact ⟨rfl, by simpa [phase] using entered⟩
  | entered came => cases came <;> simp [phase] at entered
  | equipped =>
      simp only [phase] at entered
      split at entered <;> simp at entered
  | gated =>
      simp only [phase] at entered
      split at entered <;> simp at entered
  | _ => simp [phase] at entered

theorem startupStep_runs (engines : Engines ε α) (session : Session ε) :
    (session.startupStep engines).discovery =
        (match session.startup with
        | .accepted => .awake
        | _ => session.discovery) ∧
      (session.startupStep engines).scraping =
        (match session.startup with
        | .discovering => .sleeping (session.now + session.receiver.startupGrace.nanos)
        | _ => session.scraping) := by
  unfold startupStep
  cases phase : session.startup with
  | equipped =>
      dsimp only [installJobs]
      split <;> exact ⟨rfl, rfl⟩
  | gated =>
      dsimp only [applyDiscovery]
      split <;> exact ⟨rfl, rfl⟩
  | applied result =>
      obtain ⟨_, left⟩ := leaveFailure_frame result session
      dsimp only
      rw [left]
      exact ⟨rfl, rfl⟩
  | _ => exact ⟨rfl, rfl⟩

/-! ## Calls of the engines -/

theorem startupStep_calls (engines : Engines ε α) (session : Session ε) :
    (session.startupStep engines).calls = session.calls ++
      match session.startup with
      | .equipped => [(session.now, .installJobs)]
      | .gated => if session.gateIsOpen then [(session.now, .applyDiscovery)] else []
      | _ => [] := by
  unfold startupStep
  cases phase : session.startup with
  | equipped =>
      dsimp only [installJobs]
      split <;> rfl
  | gated =>
      dsimp only [applyDiscovery]
      split <;> simp [record, report]
  | applied result =>
      obtain ⟨_, left⟩ := leaveFailure_frame result session
      dsimp only
      rw [left]
      simp
  | _ => simp [enterStartup, depositToken, reportFatal, report]

theorem endDiscovery_calls (result : Option (Except Failure Unit)) (session : Session ε)
    (active : session.discovery.hasBegun = true) :
    (session.endDiscovery result).discovery.hasBegun = true ∧
      ∃ ended, (∀ entry ∈ ended, entry.2 = Call.discoveryEnded) ∧
        (session.endDiscovery result).calls = session.calls ++ ended := by
  unfold endDiscovery
  split
  · exact ⟨active, [], by simp, by simp⟩
  · exact ⟨rfl, [(session.now, .discoveryEnded)], by simp, rfl⟩
  · exact ⟨rfl, [], by simp, by simp [report, reportFatal]⟩

/-- The discovery task calls its engine when it begins, and may end from then on. -/
theorem discoveryTurn_calls (engines : Engines ε α) (session : Session ε) :
    session.discoveryTurn engines = session ∧ session.discovery ≠ .awake ∨
      session.discovery.hasWoken = true ∧
      (session.discoveryTurn engines).discovery.hasBegun = true ∧
      ∃ ended, (∀ entry ∈ ended, entry.2 = Call.discoveryEnded) ∧
        (session.discoveryTurn engines).calls = session.calls ++
          ((if session.discovery.hasBegun then [] else [(session.now, .runDiscovery)]) ++
            ended) := by
  unfold discoveryTurn
  cases phase : session.discovery with
  | awake =>
      obtain ⟨begun, ended, only, calls⟩ := endDiscovery_calls (session.beginDiscovery engines).2
        (session.beginDiscovery engines).1 rfl
      exact .inr ⟨rfl, begun, ended, only, calls.trans (List.append_assoc ..)⟩
  | active =>
      obtain ⟨begun, ended, only, calls⟩ := endDiscovery_calls (session.resumeDiscovery engines).2
        (session.resumeDiscovery engines).1 (congrArg RunPhase.hasBegun phase)
      exact .inr ⟨rfl, begun, ended, only, calls⟩
  | _ => exact .inl ⟨rfl, by simp⟩

theorem discoveryTurn_of_asleep (engines : Engines ε α) {session : Session ε}
    (asleep : session.discovery.hasWoken = false) : session.discoveryTurn engines = session := by
  obtain ⟨same, _⟩ | ⟨woken, _⟩ := session.discoveryTurn_calls engines
  · exact same
  · simp [asleep] at woken

theorem endScraping_calls (result : Option (Except Failure Unit)) (session : Session ε)
    (active : session.scraping.hasBegun = true) :
    (session.endScraping result).scraping.hasBegun = true ∧
      (session.endScraping result).gateIsOpen = session.gateIsOpen ∧
      ∃ ended, (∀ entry ∈ ended, entry.2 = Call.scrapingEnded) ∧
        (session.endScraping result).calls = session.calls ++ ended := by
  unfold endScraping
  split
  · exact ⟨active, rfl, [], by simp, by simp⟩
  · exact ⟨rfl, rfl, [(session.now, .scrapingEnded)], by simp, rfl⟩
  · obtain ⟨_, left⟩ := leaveFailure_frame (.error _) { session with scraping := .ended }
    rw [left]
    exact ⟨rfl, rfl, [], by simp, by simp⟩

/-- The scrape task opens the gate when it wakes, then calls its engine, and may end from
then on. -/
theorem scrapingStep_calls (engines : Engines ε α) (session : Session ε) :
    session.scrapingStep engines = session ∧ session.scraping ≠ .awake ∨
      (∃ wake, session.scraping = .sleeping wake ∧ wake ≤ session.now ∧
        session.scrapingStep engines = { session with gateIsOpen := true, scraping := .awake }) ∨
      session.scraping.hasWoken = true ∧
      (session.scrapingStep engines).scraping.hasBegun = true ∧
      (session.scrapingStep engines).gateIsOpen = session.gateIsOpen ∧
      ∃ ended, (∀ entry ∈ ended, entry.2 = Call.scrapingEnded) ∧
        (session.scrapingStep engines).calls = session.calls ++
          ((if session.scraping.hasBegun then [] else [(session.now, .runScraping)]) ++ ended) := by
  unfold scrapingStep
  cases phase : session.scraping with
  | sleeping wake =>
      dsimp only
      split
      · rename_i due
        exact .inr (.inl ⟨wake, rfl, due, rfl⟩)
      · exact .inl ⟨rfl, by simp⟩
  | awake =>
      obtain ⟨begun, gate, ended, only, calls⟩ := endScraping_calls
        (session.beginScraping engines).2 (session.beginScraping engines).1 rfl
      exact .inr (.inr ⟨rfl, begun, gate, ended, only, calls.trans (List.append_assoc ..)⟩)
  | active =>
      obtain ⟨begun, gate, ended, only, calls⟩ := endScraping_calls
        (session.resumeScraping engines).2 (session.resumeScraping engines).1
        (congrArg RunPhase.hasBegun phase)
      exact .inr (.inr ⟨rfl, begun, gate, ended, only, calls⟩)
  | _ => exact .inl ⟨rfl, by simp⟩

theorem scrapingStep_of_unlaunched (engines : Engines ε α) {session : Session ε}
    (unlaunched : session.scraping.isLaunched = false) :
    session.scrapingStep engines = session := by
  rw [scrapingStep, RunPhase.eq_absent unlaunched]

/-- A step adds calls behind those before. The settings are applied only while the gate is
open. -/
theorem step_calls (engines : Engines ε α) (task : SessionTask α) (session : Session ε) :
    ∃ added, (session.step engines task).calls = session.calls ++ added ∧
      ∀ time, (time, Call.applyDiscovery) ∈ added →
        time = session.now ∧ session.gateIsOpen = true := by
  cases task with
  | startup =>
      refine ⟨_, session.startupStep_calls engines, fun time member => ?_⟩
      cases phase : session.startup with
      | gated =>
          simp only [phase] at member
          split at member
          · rename_i isOpen
            simp only [List.mem_singleton, Prod.mk.injEq] at member
            exact ⟨member.1, isOpen⟩
          · simp at member
      | _ => simp [phase] at member
  | discovery =>
      obtain ⟨same, _⟩ | ⟨_, _, ended, only, calls⟩ := session.discoveryTurn_calls engines
      · exact ⟨[], by rw [step, same, List.append_nil], by simp⟩
      · refine ⟨_, calls, fun time member => ?_⟩
        obtain member | member := List.mem_append.mp member
        · split at member <;> simp at member
        · simpa using only _ member
  | scraping =>
      obtain ⟨same, _⟩ | ⟨_, _, _, opened⟩ | ⟨_, _, _, ended, only, calls⟩ :=
        session.scrapingStep_calls engines
      · exact ⟨[], by rw [step, same, List.append_nil], by simp⟩
      · exact ⟨[], by rw [step, opened, List.append_nil], by simp⟩
      · refine ⟨_, calls, fun time member => ?_⟩
        obtain member | member := List.mem_append.mp member
        · split at member <;> simp at member
        · simpa using only _ member
  | logging =>
      obtain ⟨_, _, stepped⟩ := session.loggingTurn_frame
      exact ⟨[], by rw [step, stepped, List.append_nil], by simp⟩
  | engine task => exact ⟨[], (List.append_nil _).symm, by simp⟩

end Session

end ScrapeRelay.Lifecycle
