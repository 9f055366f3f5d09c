import ScrapeRelay.Proofs.Lifecycle.Failures
import ScrapeRelay.Proofs.Lifecycle.Handshake

/-!
# Where failures go

A receiver tells its host of one failure at most, of the job definitions or of discovery
(`HostCourse`). What fails in the background, scraping or the settings, is logged by way of a
single place (`LogCourse`). Each of the two courses goes with how far the tasks are (`AtHost`,
`AtLog`), and every step keeps to both.
-/

namespace ScrapeRelay.Lifecycle

/-! ## Courses -/

/-- What may happen about the failures that the host is told. -/
inductive HostCourse : List Deed → Prop where
  | nothing : HostCourse []
  | rejected (failure : Failure) : HostCourse [.failed .definitions failure]
  | told (failure : Failure) : HostCourse [.failed .definitions failure, .told failure]
  | ended (failure : Failure) : HostCourse [.failed .discovery failure, .told failure]

theorem HostCourse.length_reports {deeds : List Deed} (course : HostCourse deeds) :
    (deeds.flatMap Deed.reports).length ≤ 1 := by
  cases course <;> simp [Deed.reports]

/-- What may happen about the failures of the background, with the one that waits to be
logged. -/
inductive LogCourse : List Deed → Option Failure → Prop where
  | nothing : LogCourse [] none
  | first (source : Source) (failure : Failure) :
      LogCourse [.failed source failure] (some failure)
  | noted (source : Source) (failure : Failure) :
      LogCourse [.failed source failure, .noted failure] none
  | second {source other : Source} (apart : source ≠ other) (failure next : Failure) :
      LogCourse [.failed source failure, .noted failure, .failed other next] (some next)
  | bothNoted {source other : Source} (apart : source ≠ other) (failure next : Failure) :
      LogCourse [.failed source failure, .noted failure, .failed other next, .noted next] none
  /-- The second failure occurs while the first one still waits. -/
  | lost {source other : Source} (apart : source ≠ other) (failure next : Failure) :
      LogCourse [.failed source failure, .failed other next] (some failure)
  | lostNoted {source other : Source} (apart : source ≠ other) (failure next : Failure) :
      LogCourse [.failed source failure, .failed other next, .noted failure] none

def Deed.isForLog (deed : Deed) : Bool := !deed.isForHost

def Source.isOfBackground : Source → Bool
  | .scraping | .settings => true
  | _ => false

namespace LogCourse

variable {deeds : List Deed} {pending : Option Failure} {failure : Failure}

theorem note (course : LogCourse deeds (some failure)) :
    LogCourse (deeds ++ [.noted failure]) none := by
  cases course with
  | first source => exact .noted source failure
  | second apart before => exact .bothNoted apart before failure
  | lost apart _ next => exact .lostNoted apart failure next

/-- There are two sources of failures in the background, so a third failure has none left. -/
theorem occur (course : LogCourse deeds pending) {source : Source}
    (background : source.isOfBackground = true)
    (sources : ∀ other next, Deed.failed other next ∈ deeds →
      other.isOfBackground = true ∧ other ≠ source) (failure : Failure) :
    LogCourse (deeds ++ [.failed source failure]) (pending.or (some failure)) := by
  have full {one other : Source} (apart : one ≠ other)
      (oneOf : one.isOfBackground = true ∧ one ≠ source)
      (otherOf : other.isOfBackground = true ∧ other ≠ source) : False := by
    cases one <;> cases other <;> cases source <;> simp_all [Source.isOfBackground]
  cases course with
  | nothing => exact .first source failure
  | first one before =>
      exact .lost (sources one before (by simp)).2 before failure
  | noted one before =>
      exact .second (sources one before (by simp)).2 before failure
  | second apart before next =>
      exact (full apart (sources _ before (by simp)) (sources _ next (by simp))).elim
  | bothNoted apart before next =>
      exact (full apart (sources _ before (by simp)) (sources _ next (by simp))).elim
  | lost apart before next =>
      exact (full apart (sources _ before (by simp)) (sources _ next (by simp))).elim
  | lostNoted apart before next =>
      exact (full apart (sources _ before (by simp)) (sources _ next (by simp))).elim

theorem exists_source (course : LogCourse deeds (some failure)) :
    ∃ source, Deed.failed source failure ∈ deeds := by
  cases course with
  | first source => exact ⟨source, by simp⟩
  | @second _ other => exact ⟨other, by simp⟩
  | @lost source => exact ⟨source, by simp⟩

end LogCourse

/-! ## Invariants -/

namespace StartupPhase

def hasSettled : StartupPhase → Bool
  | .settled | .finished .completed => true
  | _ => false

theorem Leads.hasSettled {before after : StartupPhase} (leads : Leads before after)
    (settled : before.hasSettled = true) : after.hasSettled = true := by
  cases leads <;> simp_all [StartupPhase.hasSettled]

theorem Leads.hasSettled_eq {before after : StartupPhase} (leads : Leads before after)
    (other : ∀ result, before ≠ .applied result) : after.hasSettled = before.hasSettled := by
  cases leads <;> simp_all [StartupPhase.hasSettled]

theorem hasSettled_of_isRejected {phase : StartupPhase} (rejected : phase.isRejected = true) :
    phase.hasSettled = false := by
  cases phase with
  | finished ending => cases ending <;> simp_all [isRejected, hasSettled]
  | _ => simp_all [isRejected, hasSettled]

end StartupPhase

namespace Session

variable {ε α : Type} {engines : Engines ε α} {session after : Session ε} {deeds : List Deed}

theorem startupStep_isLogging (engines : Engines ε α) (session : Session ε) :
    (session.startupStep engines).isLogging =
      match session.startup with
      | .applied _ => true
      | _ => session.isLogging := by
  unfold startupStep
  cases session.startup with
  | equipped =>
      dsimp only [installJobs]
      split <;> rfl
  | gated =>
      dsimp only [applyDiscovery]
      split <;> rfl
  | _ => rfl

theorem startupStep_discovery (engines : Engines ε α) (other : session.startup ≠ .accepted) :
    (session.startupStep engines).discovery = session.discovery := by
  rw [(session.startupStep_runs engines).1]
  cases phase : session.startup with
  | accepted => exact absurd phase other
  | _ => rfl

/-- How far a receiver is that has done something about failures the host is told. -/
inductive AtHost (session : Session ε) : List Deed → Prop where
  | nothing (accepted : session.startup.isRejected = false) : AtHost session []
  | rejected {failure : Failure}
      (phase : session.startup = .rejected failure ∨
        (session.startup = .revoked failure ∨ session.startup = .refused failure) ∧
          session.control.isCancelled = true) :
      AtHost session [.failed .definitions failure]
  | told (failure : Failure) (phase : session.startup = .finished .failed)
      (cancelled : session.control.isCancelled = true) :
      AtHost session [.failed .definitions failure, .told failure]
  | ended (failure : Failure) (accepted : session.startup.isRejected = false)
      (phase : session.discovery = .ended) :
      AtHost session [.failed .discovery failure, .told failure]

namespace AtHost

theorem course (routed : session.AtHost deeds) : HostCourse deeds := by
  cases routed with
  | nothing => exact .nothing
  | rejected => exact .rejected _
  | told => exact .told _
  | ended => exact .ended _

theorem isRejected (routed : session.AtHost deeds) {failure : Failure}
    (failed : Deed.failed .definitions failure ∈ deeds) : session.startup.isRejected = true := by
  cases routed with
  | nothing accepted => simp at failed
  | rejected phase => rcases phase with phase | ⟨phase | phase, _⟩ <;> rw [phase] <;> rfl
  | told failure phase cancelled => rw [phase]; rfl
  | ended failure accepted phase => simp at failed

theorem isCancelled (routed : session.AtHost deeds) {failure : Failure}
    (failed : Deed.failed .definitions failure ∈ deeds) (told : Deed.told failure ∈ deeds) :
    session.control.isCancelled = true := by
  cases routed with
  | nothing accepted => simp at failed
  | rejected phase => simp at told
  | told failure phase cancelled => exact cancelled
  | ended failure accepted phase => simp at failed

/-- Where the startup, discovery and the token stay as they are. -/
theorem frame (routed : session.AtHost deeds)
    (startup : after.startup = session.startup ∨
      session.startup = .absent ∧ after.startup = .launched)
    (discovery : session.discovery = .ended → after.discovery = .ended)
    (cancelled : session.control.isCancelled = true → after.control.isCancelled = true) :
    after.AtHost deeds := by
  have same (present : session.startup ≠ .absent) : after.startup = session.startup :=
    startup.resolve_right fun launched => present launched.1
  have still (accepted : session.startup.isRejected = false) :
      after.startup.isRejected = false := by
    rcases startup with same | ⟨_, launched⟩
    · rw [same]
      exact accepted
    · rw [launched]
      rfl
  cases routed with
  | nothing accepted => exact .nothing (still accepted)
  | rejected phase =>
      refine .rejected ?_
      rw [same (by rcases phase with phase | ⟨phase | phase, _⟩ <;> simp [phase])]
      exact phase.imp_right fun ⟨phase, revoked⟩ => ⟨phase, cancelled revoked⟩
  | told failure phase revoked =>
      exact .told failure ((same (by simp [phase])).trans phase) (cancelled revoked)
  | ended failure accepted phase => exact .ended failure (still accepted) (discovery phase)

theorem aside (routed : session.AtHost deeds) (aside : Threads.Aside session after) :
    after.AtHost deeds :=
  routed.frame aside.startup (fun ended => aside.discovery.trans ended) aside.cancelled

/-- Only the end of discovery is told of a receiver whose job definitions are not rejected. -/
theorem of_accepted (routed : session.AtHost deeds)
    (accepted : session.startup.isRejected = false) :
    deeds = [] ∨ session.discovery = .ended ∧
      ∃ failure, deeds = [.failed .discovery failure, .told failure] := by
  cases routed with
  | nothing => exact .inl rfl
  | rejected phase =>
      rcases phase with phase | ⟨phase | phase, _⟩ <;>
        simp [phase, StartupPhase.isRejected] at accepted
  | told failure phase => simp [phase, StartupPhase.isRejected] at accepted
  | ended failure _ phase => exact .inr ⟨phase, failure, rfl⟩

/-- As long as the discovery task is not launched it has told nothing. -/
theorem of_unlaunched (routed : session.AtHost deeds) (accountable : session.Accountable)
    (accepted : session.startup.isRejected = false)
    (unlaunched : session.startup.hasLaunchedDiscovery = false) : deeds = [] := by
  obtain nothing | ⟨ended, _⟩ := routed.of_accepted accepted
  · exact nothing
  · have launched := accountable.discovery
    simp [ended, unlaunched, RunPhase.hasWoken] at launched

/-- A step of the startup that is not about the job definitions. -/
theorem startup_of_accepted (engines : Engines ε α) (routed : session.AtHost deeds)
    (accountable : session.Accountable) (accepted : session.startup.isRejected = false)
    (other : session.startup ≠ .equipped) :
    (session.startupStep engines).AtHost deeds := by
  have still : (session.startupStep engines).startup.isRejected = false := by
    rw [startupStep_startup]
    cases phase : session.startup with
    | entered stopCame => cases stopCame <;> rfl
    | equipped => exact absurd phase other
    | gated =>
        dsimp only
        split <;> rfl
    | finished ending =>
        rw [phase] at accepted
        exact accepted
    | _ => first | rfl | simp [phase, StartupPhase.isRejected] at accepted
  by_cases launching : session.startup = .accepted
  · rw [routed.of_unlaunched accountable accepted (by rw [launching]; rfl)]
    exact .nothing still
  · have discovery := startupStep_discovery engines launching
    obtain rfl | ⟨ended, failure, rfl⟩ := routed.of_accepted accepted
    · exact .nothing still
    · exact .ended failure still (discovery.trans ended)

theorem startup (engines : Engines ε α) (routed : session.AtHost deeds)
    (accountable : session.Accountable) :
    (session.startupStep engines).AtHost
      (deeds ++ (session.startupDeeds engines).filter Deed.isForHost) := by
  have goesOn := session.startupStep_startup engines
  have control := session.startupStep_control engines
  cases phase : session.startup with
  | equipped =>
      rw [routed.of_unlaunched accountable (by rw [phase]; rfl) (by rw [phase]; rfl)]
      simp only [phase] at goesOn
      simp only [startupDeeds, phase]
      cases installed : (engines.installJobs session.receiver.scrape session.engines).2 with
      | error failure =>
          rw [installed] at goesOn
          exact .rejected (.inl goesOn)
      | ok _ =>
          rw [installed] at goesOn
          exact .nothing (by rw [goesOn]; rfl)
  | rejected failure =>
      simp only [phase] at goesOn control
      simp only [startupDeeds, phase, List.filter_nil, List.append_nil]
      cases routed with
      | rejected held =>
          simp only [phase, StartupPhase.rejected.injEq, reduceCtorEq, or_self, false_and,
            or_false] at held
          subst held
          exact .rejected (.inr ⟨.inl goesOn, by rw [control]; rfl⟩)
      | _ => simp_all [StartupPhase.isRejected]
  | revoked failure =>
      simp only [phase] at goesOn control
      simp only [startupDeeds, phase, List.filter_nil, List.append_nil]
      cases routed with
      | rejected held =>
          simp only [phase, StartupPhase.revoked.injEq, reduceCtorEq, or_false, false_or] at held
          obtain ⟨rfl, cancelled⟩ := held
          refine .rejected (.inr ⟨.inr goesOn, ?_⟩)
          rw [control, Control.refuse, Control.move]
          split <;> exact cancelled
      | _ => simp_all [StartupPhase.isRejected]
  | refused failure =>
      simp only [phase] at goesOn control
      simp only [startupDeeds, phase]
      cases routed with
      | rejected held =>
          simp only [phase, StartupPhase.refused.injEq, reduceCtorEq, false_or] at held
          obtain ⟨rfl, cancelled⟩ := held
          exact .told _ goesOn (by rw [control]; exact cancelled)
      | _ => simp_all [StartupPhase.isRejected]
  | finished ending =>
      have same : session.startupStep engines = session := by rw [startupStep, phase]
      rw [same]
      simpa [startupDeeds, phase] using routed
  | applied result =>
      have none : (session.startupDeeds engines).filter Deed.isForHost = [] := by
        rw [startupDeeds, phase]
        cases result <;> rfl
      rw [none, List.append_nil]
      exact routed.startup_of_accepted engines accountable (by rw [phase]; rfl) (by simp [phase])
  | _ =>
      simp only [startupDeeds, phase, List.filter_nil, List.append_nil]
      exact routed.startup_of_accepted engines accountable (by rw [phase]; rfl) (by simp [phase])

theorem discovery (engines : Engines ε α) (routed : session.AtHost deeds)
    (accountable : session.Accountable) :
    (session.discoveryTurn engines).AtHost
      (deeds ++ (discoveryDeeds (session.discoveryResult engines)).filter Deed.isForHost) := by
  obtain ⟨_, _, _, _, _, framed⟩ := session.discoveryTurn_frame engines
  have startup : (session.discoveryTurn engines).startup = session.startup := by rw [framed]
  have control : (session.discoveryTurn engines).control = session.control := by rw [framed]
  -- A task that has ended has no result any more.
  have running {result : Except Failure Unit}
      (ended : session.discoveryResult engines = some result) :
      session.discovery.hasWoken = true ∧ session.discovery ≠ .ended := by
    unfold discoveryResult at ended
    cases phase : session.discovery <;> simp_all [RunPhase.hasWoken]
  have quiet (none : (discoveryDeeds (session.discoveryResult engines)) = []) :
      (session.discoveryTurn engines).AtHost
        (deeds ++ (discoveryDeeds (session.discoveryResult engines)).filter Deed.isForHost) := by
    rw [none, List.filter_nil, List.append_nil]
    refine routed.frame (.inl startup) (fun ended => ?_)
      (fun cancelled => by rw [control, cancelled])
    rw [discoveryTurn, ended]
    exact ended
  rcases result : session.discoveryResult engines with _ | failure | _
  · exact result ▸ quiet (by rw [result]; rfl)
  · obtain ⟨woken, unended⟩ := running result
    have launched := accountable.discovery.symm.trans woken
    obtain ⟨_, _, _, turned⟩ := session.discoveryTurn_eq engines
    rw [result] at turned
    have ended : (session.discoveryTurn engines).discovery = .ended := by
      rw [turned]
      rfl
    have accepted : session.startup.isRejected = false := by
      by_contra rejected
      have flags := StartupPhase.flags_of_isRejected (by simpa using rejected)
      simp [flags.2.1] at launched
    obtain rfl | ⟨already, _⟩ := routed.of_accepted accepted
    · exact .ended failure (startup ▸ accepted) ended
    · exact absurd already unended
  · exact result ▸ quiet (by rw [result]; rfl)

theorem step (engines : Engines ε α) (routed : session.AtHost deeds)
    (accountable : session.Accountable) (task : SessionTask α) :
    (session.step engines task).AtHost
      (deeds ++ (session.deeds engines task).filter Deed.isForHost) := by
  have others (other : task ≠ .startup)
      (none : (session.deeds engines task).filter Deed.isForHost = [])
      (discovery : (session.step engines task).discovery = session.discovery) :
      (session.step engines task).AtHost
        (deeds ++ (session.deeds engines task).filter Deed.isForHost) := by
    obtain ⟨startup, control, _⟩ := session.step_frame engines other
    rw [none, List.append_nil]
    exact routed.frame (.inl startup) (fun ended => discovery.trans ended)
      (fun cancelled => by rw [control, cancelled])
  cases task with
  | startup => exact routed.startup engines accountable
  | discovery => exact routed.discovery engines accountable
  | scraping =>
      obtain ⟨_, _, _, _, _, _, stepped⟩ := session.scrapingStep_frame engines
      refine others (by simp) ?_ (by rw [Session.step, stepped])
      rw [Session.deeds]
      unfold scrapingDeeds
      split <;> rfl
  | logging =>
      obtain ⟨_, _, stepped⟩ := session.loggingTurn_frame
      refine others (by simp) ?_ (by rw [Session.step, stepped])
      rw [Session.deeds, loggingDeeds]
      split <;> rfl
  | engine task => exact others (by simp) rfl rfl

end AtHost

/-- Whether a source can bring forth no failure of the background any more. -/
def isSpent (session : Session ε) : Source → Bool
  | .scraping => session.scraping = .ended
  | .settings => session.startup.hasSettled
  | _ => false

theorem isOfBackground_of_isSpent {source : Source} (spent : session.isSpent source = true) :
    source.isOfBackground = true := by
  cases source <;> simp_all [isSpent, Source.isOfBackground]

theorem isSpent_step (engines : Engines ε α) (accountable : session.Accountable)
    (task : SessionTask α) {source : Source} (spent : session.isSpent source = true) :
    (session.step engines task).isSpent source = true := by
  cases source with
  | scraping =>
      have ended : session.scraping = .ended := of_decide_eq_true spent
      refine decide_eq_true ?_
      cases task with
      | startup =>
          have launched := accountable.scraping
          rw [step, (session.startupStep_runs engines).2]
          cases phase : session.startup with
          | discovering =>
              simp [phase, ended, RunPhase.isLaunched, StartupPhase.hasLaunchedScraping] at launched
          | _ => exact ended
      | discovery =>
          obtain ⟨_, _, _, _, _, stepped⟩ := session.discoveryTurn_frame engines
          rw [step, stepped]
          exact ended
      | scraping =>
          rw [step, scrapingStep, ended]
          exact ended
      | logging =>
          obtain ⟨_, _, stepped⟩ := session.loggingTurn_frame
          rw [step, stepped]
          exact ended
      | engine task => exact ended
  | settings =>
      by_cases startup : task = .startup
      · subst startup
        exact (session.startupStep_leads engines).hasSettled spent
      · rw [isSpent, (session.step_frame engines startup).1]
        exact spent
  | _ => simp [isSpent] at spent

theorem isLogging_step (engines : Engines ε α)
    (logs : session.isLogging = session.startup.hasSettled) (task : SessionTask α) :
    (session.step engines task).isLogging = (session.step engines task).startup.hasSettled := by
  by_cases startup : task = .startup
  · subst startup
    have leads := session.startupStep_leads engines
    rw [step, startupStep_isLogging]
    cases phase : session.startup with
    | applied result =>
        rw [startupStep_startup, phase]
        rfl
    | _ =>
        rw [phase] at leads logs
        exact logs.trans (leads.hasSettled_eq (by simp)).symm
  · rw [(session.step_frame engines startup).1, ← logs]
    cases task with
    | startup => exact absurd rfl startup
    | discovery =>
        obtain ⟨_, _, _, _, _, stepped⟩ := session.discoveryTurn_frame engines
        rw [step, stepped]
    | scraping =>
        obtain ⟨_, _, _, _, _, _, stepped⟩ := session.scrapingStep_frame engines
        rw [step, stepped]
    | logging =>
        obtain ⟨_, _, stepped⟩ := session.loggingTurn_frame
        rw [step, stepped]
    | engine task => rfl

/-- How far a receiver is that has done something about failures of the background. -/
structure AtLog (session : Session ε) (deeds : List Deed) : Prop where
  course : LogCourse deeds session.pendingFailure
  spent : ∀ source failure, Deed.failed source failure ∈ deeds → session.isSpent source = true
  isLogging : session.isLogging = session.startup.hasSettled

namespace AtLog

/-- A failure that waits is one of a scrape task that has opened the gate, or the task that logs
is there. -/
theorem waits (routed : session.AtLog deeds) (accountable : session.Accountable)
    {failure : Failure} (pending : session.pendingFailure = some failure) :
    session.isLogging = true ∨
      session.gateIsOpen = true ∧ session.startup.hasLaunchedScraping = true := by
  obtain ⟨source, failed⟩ := (pending ▸ routed.course).exists_source
  have spent := routed.spent source failure failed
  cases source with
  | scraping =>
      have ended : session.scraping = .ended := of_decide_eq_true spent
      refine .inr ⟨?_, ?_⟩
      · rw [accountable.gate, ended]
        rfl
      · rw [← accountable.scraping, ended]
        rfl
  | settings => exact .inl (routed.isLogging.trans spent)
  | _ => simp [isSpent] at spent

theorem aside (routed : session.AtLog deeds) (aside : Threads.Aside session after) :
    after.AtLog deeds := by
  have settled : after.startup.hasSettled = session.startup.hasSettled := by
    rcases aside.startup with same | ⟨absent, launched⟩
    · rw [same]
    · rw [absent, launched]
      rfl
  refine ⟨?_, fun source failure failed => ?_, ?_⟩
  · rw [aside.pending]
    exact routed.course
  · have spent := routed.spent source failure failed
    cases source with
    | scraping =>
        rw [isSpent, aside.scraping]
        exact spent
    | settings => exact settled.trans spent
    | _ => simp [isSpent] at spent
  · rw [aside.isLogging, settled]
    exact routed.isLogging

theorem still (engines : Engines ε α) (routed : session.AtLog deeds)
    (accountable : session.Accountable) (task : SessionTask α)
    (none : (session.deeds engines task).filter Deed.isForLog = [])
    (pending : (session.deeds engines task).foldl Deed.leaves session.pendingFailure =
      session.pendingFailure) :
    (session.step engines task).AtLog
      (deeds ++ (session.deeds engines task).filter Deed.isForLog) := by
  rw [none, List.append_nil]
  refine ⟨?_, fun source failure failed => ?_, isLogging_step engines routed.isLogging task⟩
  · rw [step_pending, pending]
    exact routed.course
  · exact isSpent_step engines accountable task (routed.spent source failure failed)

/-- A source that is not spent fails, and is spent after that. -/
theorem occur (engines : Engines ε α) (routed : session.AtLog deeds)
    (accountable : session.Accountable) {task : SessionTask α} {source : Source}
    {failure : Failure} (only : session.deeds engines task = [.failed source failure])
    (unspent : session.isSpent source = false)
    (spent : (session.step engines task).isSpent source = true) :
    (session.step engines task).AtLog
      (deeds ++ (session.deeds engines task).filter Deed.isForLog) := by
  have background := isOfBackground_of_isSpent spent
  have kept : (session.deeds engines task).filter Deed.isForLog = [.failed source failure] := by
    rw [only]
    cases source <;> simp_all [Source.isOfBackground, Deed.isForLog, Deed.isForHost]
  have left : (session.step engines task).pendingFailure =
      session.pendingFailure.or (some failure) := by
    rw [step_pending, only]
    cases source <;> simp_all [Source.isOfBackground, Deed.leaves]
  rw [kept]
  refine ⟨?_, fun other next failed => ?_, isLogging_step engines routed.isLogging task⟩
  · rw [left]
    refine routed.course.occur background (fun other next failed => ?_) failure
    have before := routed.spent other next failed
    refine ⟨isOfBackground_of_isSpent before, ?_⟩
    rintro rfl
    simp [unspent] at before
  · rcases List.mem_append.mp failed with before | now
    · exact isSpent_step engines accountable task (routed.spent other next before)
    · obtain ⟨rfl, rfl⟩ := Deed.failed.inj (List.mem_singleton.mp now)
      exact spent

theorem startup (engines : Engines ε α) (routed : session.AtLog deeds)
    (accountable : session.Accountable) :
    (session.step engines .startup).AtLog
      (deeds ++ (session.deeds engines .startup).filter Deed.isForLog) := by
  cases phase : session.startup with
  | applied result =>
      cases result with
      | error failure =>
          have only : session.deeds engines (.startup : SessionTask α) =
              [.failed .settings failure] := by
            rw [Session.deeds, startupDeeds, phase]
          refine routed.occur engines accountable only ?_ ?_
          · rw [isSpent, phase]
            rfl
          · rw [isSpent, step, startupStep_startup, phase]
            rfl
      | ok _ =>
          have none : session.deeds engines (.startup : SessionTask α) = [] := by
            rw [Session.deeds, startupDeeds, phase]
          exact routed.still engines accountable .startup (by rw [none]; rfl) (by rw [none]; rfl)
  | equipped =>
      refine routed.still engines accountable .startup ?_ ?_ <;>
        · rw [Session.deeds, startupDeeds, phase]
          dsimp only
          split <;> rfl
  | _ =>
      refine routed.still engines accountable .startup ?_ ?_ <;>
        · rw [Session.deeds, startupDeeds, phase]
          rfl

theorem scraping (engines : Engines ε α) (routed : session.AtLog deeds)
    (accountable : session.Accountable) :
    (session.step engines .scraping).AtLog
      (deeds ++ (session.deeds engines .scraping).filter Deed.isForLog) := by
  have quiet (none : session.deeds engines (.scraping : SessionTask α) = []) :=
    routed.still engines accountable .scraping (by rw [none]; rfl) (by rw [none]; rfl)
  rcases result : session.scrapingResult engines with _ | failure | _
  · exact quiet (by rw [Session.deeds, result]; rfl)
  · have only : session.deeds engines (.scraping : SessionTask α) =
        [.failed .scraping failure] := by
      rw [Session.deeds, result]
      rfl
    refine routed.occur engines accountable only ?_ ?_
    · unfold scrapingResult at result
      cases phase : session.scraping <;> simp_all [isSpent]
    · obtain ⟨_, _, _, _, stepped⟩ := session.scrapingStep_eq engines
      rw [step, stepped, result, isSpent, endScraping]
      obtain ⟨_, left⟩ := leaveFailure_frame (.error failure) _
      rw [left]
      rfl
  · exact quiet (by rw [Session.deeds, result]; rfl)

theorem logging (engines : Engines ε α) (routed : session.AtLog deeds)
    (accountable : session.Accountable) :
    (session.step engines .logging).AtLog
      (deeds ++ (session.deeds engines .logging).filter Deed.isForLog) := by
  have quiet (none : session.deeds engines (.logging : SessionTask α) = []) :=
    routed.still engines accountable .logging (by rw [none]; rfl) (by rw [none]; rfl)
  cases logs : session.isLogging with
  | false => exact quiet (by rw [Session.deeds, loggingDeeds, logs])
  | true =>
      cases pending : session.pendingFailure with
      | none => exact quiet (by rw [Session.deeds, loggingDeeds, logs, pending])
      | some failure =>
          have only : session.deeds engines (.logging : SessionTask α) = [.noted failure] := by
            rw [Session.deeds, loggingDeeds, logs, pending]
          have course := (pending ▸ routed.course).note
          refine ⟨?_, fun source next failed => ?_, isLogging_step engines routed.isLogging _⟩
          · rw [step_pending, only]
            exact course
          · rw [only] at failed
            rcases List.mem_append.mp failed with before | now
            · exact isSpent_step engines accountable .logging (routed.spent source next before)
            · simp [Deed.isForLog, Deed.isForHost] at now

theorem step (engines : Engines ε α) (routed : session.AtLog deeds)
    (accountable : session.Accountable) (task : SessionTask α) :
    (session.step engines task).AtLog
      (deeds ++ (session.deeds engines task).filter Deed.isForLog) := by
  cases task with
  | startup => exact routed.startup engines accountable
  | discovery =>
      refine routed.still engines accountable .discovery ?_ (discoveryDeeds_leaves _ _)
      rw [Session.deeds]
      unfold discoveryDeeds
      split <;> rfl
  | scraping => exact routed.scraping engines accountable
  | logging => exact routed.logging engines accountable
  | engine task => exact routed.still engines accountable (.engine task) rfl rfl

end AtLog

end Session

end ScrapeRelay.Lifecycle
