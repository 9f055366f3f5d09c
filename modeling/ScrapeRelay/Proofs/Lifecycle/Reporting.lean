import ScrapeRelay.Proofs.Lifecycle.Routing
import ScrapeRelay.Proofs.Lifecycle.Stages
import ScrapeRelay.Proofs.Lifecycle.Startup
import ScrapeRelay.Proofs.Lifecycle.Uninterrupted

/-!
# What is reported of failures

The courses of failures over whole runs, and what does not depend on them. Whatever fails in
the background, the startup gets through, the receiver runs, and what waits to be logged is
logged; all of this is put together in `failures_are_routed`.
-/

namespace ScrapeRelay.Lifecycle

theorem StartupPhase.Leads.hasLaunchedDiscovery_eq {before after : StartupPhase}
    (leads : StartupPhase.Leads before after) (other : before ≠ .accepted) :
    after.hasLaunchedDiscovery = before.hasLaunchedDiscovery := by
  cases leads <;> simp_all [StartupPhase.hasLaunchedDiscovery]

theorem StartupPhase.Leads.to_completed {before after : StartupPhase}
    (leads : StartupPhase.Leads before after) (completed : after = .finished .completed) :
    before = .settled ∨ before = .finished .completed := by
  subst completed
  cases leads with
  | stay => exact .inr rfl
  | complete => exact .inl rfl

namespace Threads

variable {ε α : Type} {engines : Engines ε α} {threads : Threads ε} {receiver : Config.Receiver}

/-- What holds of a new receiver, and is kept by every step with what it does about failures and
by all that is done aside, holds along a run. -/
theorem run_trace (engines : Engines ε α) (receiver : Config.Receiver)
    (holds : List Deed → Session ε → Prop) (first : holds [] (.new engines receiver))
    (step : ∀ deeds session (task : SessionTask α), session.Accountable → holds deeds session →
      holds (deeds ++ session.deeds engines task) (session.step engines task))
    (aside : ∀ deeds before after, holds deeds before → Aside before after → holds deeds after)
    (acts : List (Act ε α)) :
    holds (trace engines (new engines receiver) acts)
      (run engines (new engines receiver) acts).session := by
  induction acts using List.reverseRecOn with
  | nil => exact first
  | append_singleton acts act ih =>
      have once := (StartsOnce.new engines receiver).run engines acts
      have accountable := run_accountable engines (StartsOnce.new engines receiver)
        (.new engines receiver) acts
      rw [trace_concat, run_append]
      by_cases stepped : ∃ task, act = .step task
      · obtain ⟨task, rfl⟩ := stepped
        exact step _ _ task accountable ih
      · have other : ∀ task, act ≠ .step task := fun task same => stepped ⟨task, same⟩
        have none : (run engines (new engines receiver) acts).deeds engines act = [] := by
          cases act with
          | step task => exact absurd rfl (other task)
          | _ => rfl
        rw [none, List.append_nil]
        exact aside _ _ _ ih (perform_aside engines once other)

theorem run_fatal (engines : Engines ε α) (receiver : Config.Receiver) (acts : List (Act ε α)) :
    (run engines (new engines receiver) acts).session.fatal =
      (trace engines (new engines receiver) acts).flatMap Deed.reports := by
  refine run_trace engines receiver (fun deeds session => session.fatal =
    deeds.flatMap Deed.reports) rfl (fun deeds session task _ told => ?_)
    (fun deeds before after told aside => aside.fatal.trans told) acts
  rw [Session.step_fatal, told, List.flatMap_append]

theorem run_atHost (engines : Engines ε α) (receiver : Config.Receiver) (acts : List (Act ε α)) :
    (run engines (new engines receiver) acts).session.AtHost
      ((trace engines (new engines receiver) acts).filter Deed.isForHost) := by
  refine run_trace engines receiver (fun deeds session => session.AtHost
    (deeds.filter Deed.isForHost)) (.nothing rfl) (fun deeds session task accountable routed => ?_)
    (fun deeds before after routed aside => routed.aside aside) acts
  rw [List.filter_append]
  exact routed.step engines accountable task

theorem run_atLog (engines : Engines ε α) (receiver : Config.Receiver) (acts : List (Act ε α)) :
    (run engines (new engines receiver) acts).session.AtLog
      ((trace engines (new engines receiver) acts).filter Deed.isForLog) := by
  refine run_trace engines receiver (fun deeds session => session.AtLog
    (deeds.filter Deed.isForLog)) ⟨.nothing, by simp, rfl⟩
    (fun deeds session task accountable routed => ?_)
    (fun deeds before after routed aside => routed.aside aside) acts
  rw [List.filter_append]
  exact routed.step engines accountable task

theorem perform_log (engines : Engines ε α) (once : threads.StartsOnce) (act : Act ε α) :
    (perform engines threads act).session.log =
      threads.session.log.add threads.session.now
        (threads.engineNotices engines act ++
          (threads.deeds engines act).flatMap Deed.notices) := by
  cases act with
  | step task => exact threads.session.step_log engines task
  | _ => exact (perform_aside engines once (by simp)).log

/-- The discovery task is there from the time at which the startup launches it. -/
theorem Move.discovery_isLaunched {session next : Session ε} (move : Move engines session next)
    (launched : session.discovery.isLaunched = session.startup.hasLaunchedDiscovery) :
    next.discovery.isLaunched = next.startup.hasLaunchedDiscovery := by
  cases move with
  | launch absent =>
      rw [absent] at launched
      exact launched
  | step task =>
      cases task with
      | startup =>
          by_cases launching : session.startup = .accepted
          · rw [Session.step, (session.startupStep_runs engines).1, Session.startupStep_startup,
              launching]
            rfl
          · have leads := session.startupStep_leads engines
            rw [Session.step, Session.startupStep_discovery engines launching, launched]
            exact (leads.hasLaunchedDiscovery_eq launching).symm
      | discovery =>
          obtain ⟨_, _, _, _, _, stepped⟩ := session.discoveryTurn_frame engines
          have startup : (session.discoveryTurn engines).startup = session.startup := by
            rw [stepped]
          rw [Session.step, startup, ← launched]
          obtain ⟨same, _⟩ | ⟨woken, begun, _⟩ := session.discoveryTurn_calls engines
          · rw [same]
          · rw [RunPhase.isLaunched_of_hasBegun begun, RunPhase.isLaunched_of_hasWoken woken]
      | scraping =>
          obtain ⟨_, _, _, _, _, _, stepped⟩ := session.scrapingStep_frame engines
          rw [Session.step, stepped]
          exact launched
      | logging =>
          obtain ⟨_, _, stepped⟩ := session.loggingTurn_frame
          rw [Session.step, stepped]
          exact launched
      | engine task => exact launched
  | _ => exact launched

theorem nothing_launched (engines : Engines ε α) (receiver : Config.Receiver)
    (acts : List (Act ε α))
    (rejected : (run engines (new engines receiver) acts).session.startup.isRejected = true) :
    let session := (run engines (new engines receiver) acts).session
    session.discovery = .absent ∧ session.scraping = .absent ∧ session.isLogging = false ∧
      ∀ call, call = .applyDiscovery ∨ call = .runDiscovery ∨ call = .runScraping →
        session.count call = 0 := by
  intro session
  have once : (new engines receiver).StartsOnce := .new engines receiver
  have accountable : session.Accountable :=
    run_accountable engines once (.new engines receiver) acts
  have discovery : session.discovery.isLaunched = session.startup.hasLaunchedDiscovery :=
    run_keeps_session engines (fun session =>
        session.discovery.isLaunched = session.startup.hasLaunchedDiscovery) once acts
      (fun _ _ launched move => move.discovery_isLaunched launched) rfl
  obtain ⟨_, noDiscovery, noScraping⟩ := StartupPhase.flags_of_isRejected rejected
  refine ⟨RunPhase.eq_absent (discovery.trans noDiscovery),
    RunPhase.eq_absent (accountable.scraping.trans noScraping), ?_,
    fun call other => accountable.nothing_else rejected other⟩
  rw [(run_atLog engines receiver acts).isLogging]
  exact StartupPhase.hasSettled_of_isRejected rejected

/-- Nothing but a stop takes a receiver whose startup is completed out of service. -/
def Confirmed (threads : Threads ε) : Prop :=
  threads.session.startup = .finished .completed →
    threads.session.control.stopLatch.isDone = false → threads.session.control.stage = .running

theorem Staged.starting (staged : threads.Staged) (starts : threads.StartsOnce)
    (stops : threads.StopsOnce) (settled : threads.session.startup = .settled)
    (unstopped : threads.session.control.stopLatch.isDone = false) :
    threads.session.control.stage = .starting := by
  have uncalled (number : Nat) := stops.undone unstopped number
  cases stage : threads.session.control.stage with
  | starting => rfl
  | idle =>
      have absent := (starts.idle stage).1
      simp [settled] at absent
  | running =>
      have completed := staged.running stage
      simp [settled] at completed
  | stopping =>
      obtain ⟨number, call | call⟩ := staged.stopping stage
      all_goals
        have unlatched := uncalled number
        simp [call, StopCall.isFirst] at unlatched
  | stopped =>
      obtain refused | ⟨number, call⟩ := staged.stopped stage
      · simp [settled, StartupPhase.hasRefused] at refused
      · have unlatched := uncalled number
        simp [call, StopCall.isFirst] at unlatched

namespace Confirmed

theorem perform (engines : Engines ε α) (confirmed : threads.Confirmed)
    (staged : threads.Staged) (starts : threads.StartsOnce) (stops : threads.StopsOnce)
    (act : Act ε α) : (perform engines threads act).Confirmed := by
  have start {number : Nat} {after : Threads ε} (move : StartMove threads number after) :
      after.Confirmed := by
    cases move with
    | claim called idle =>
        intro completed
        have absent : threads.session.startup = .finished .completed := completed
        simp [(starts.idle idle).1] at absent
    | launch claimed =>
        intro completed
        simp [setStart, Session.launch] at completed
    | finish same unclaimed => exact confirmed
    | still => exact confirmed
  have stop {number : Nat} {after : Threads ε} (move : StopMove threads number after) :
      after.Confirmed := by
    have late (first : (threads.stops number).isFirst = true) {control : Control}
        (latch : control.stopLatch = threads.session.control.stopLatch)
        (unstopped : control.stopLatch.isDone = false) : False := by
      rw [latch, stops.isDone first] at unstopped
      cases unstopped
    cases move with
    | pass called undone => exact fun _ unstopped => by simp [setStop, setControl] at unstopped
    | refuse called => exact confirmed
    | mark passed => exact fun _ unstopped => (late (by rw [passed]; rfl) rfl unstopped).elim
    | withdraw marked unlocked =>
        exact fun _ unstopped =>
          (late (by rw [marked]; rfl) threads.session.control.withdraw_stopLatch unstopped).elim
    | finish withdrawn =>
        exact fun _ unstopped => (late (by rw [withdrawn]; rfl) rfl unstopped).elim
    | still => exact confirmed
  cases act with
  | start number => exact start (threads.startStep_move number)
  | dropStart number => exact start (threads.dropStart_move number)
  | stop number => exact stop (threads.stopStep_move number)
  | step task =>
      by_cases startup : task = .startup
      · subst startup
        intro completed unstopped
        rw [Threads.perform, Session.step, (threads.session.startupStep_token engines).1]
          at unstopped
        have leads := threads.session.startupStep_leads engines
        rw [Threads.perform, Session.step, Session.startupStep_control]
        obtain settled | already := leads.to_completed completed
        · have starting := staged.starting starts stops settled unstopped
          simp [settled, Control.confirm, Control.move, starting]
        · rw [already]
          exact confirmed already unstopped
      · obtain ⟨phase, control, _⟩ := threads.session.step_frame engines startup
        intro completed unstopped
        rw [Threads.perform, control] at unstopped ⊢
        exact confirmed (phase.symm.trans completed) unstopped
  | cancelHost => exact confirmed
  | wait nanos => exact confirmed
  | outside change => exact confirmed

theorem run (engines : Engines ε α) (receiver : Config.Receiver) (acts : List (Act ε α)) :
    (run engines (new engines receiver) acts).Confirmed := by
  induction acts using List.reverseRecOn with
  | nil => exact fun completed => by simp [Threads.new, Session.new] at completed
  | append_singleton acts act ih =>
      have starts := (StartsOnce.new engines receiver).run engines acts
      rw [run_append]
      exact ih.perform engines
        ((Staged.new engines receiver).run engines (.new engines receiver) acts) starts
        ((StopsOnce.new engines receiver).run engines acts) act

end Confirmed

theorem follow_eq_run (acts : Nat → Act ε α) (time : Nat) :
    follow engines threads acts time = run engines threads ((List.range time).map acts) := by
  induction time with
  | zero => rfl
  | succ time ih =>
      rw [List.range_succ, List.map_append, run_append, ← ih]
      rfl

namespace Endless

variable {sessions : Nat → Session ε} {time : Nat}

/-- Once the gate is open the startup goes on, whatever becomes of the settings. -/
theorem settles (endless : Endless engines sessions)
    (launched : (sessions time).startup.hasLaunchedScraping = true)
    (isOpen : (sessions time).gateIsOpen = true) :
    ∃ later, (sessions later).startup.hasSettled = true := by
  obtain ⟨applying, applied⟩ := endless.applies launched isOpen
  cases phase : (sessions applying).startup with
  | applied result =>
      obtain ⟨later, settled⟩ := endless.startup_leaves (.applied result) (· = .settled)
        (fun _ phase => by simp [Session.startupIsReady, phase])
        (fun _ phase => by simp [Session.startupStep_startup, phase]) phase
      exact ⟨later, by rw [settled]; rfl⟩
  | settled => exact ⟨applying, by rw [phase]; rfl⟩
  | finished ending =>
      refine ⟨applying, ?_⟩
      cases ending <;> simp_all [StartupPhase.hasApplied, StartupPhase.hasSettled]
  | _ => simp [phase, StartupPhase.hasApplied] at applied

theorem completes (endless : Endless engines sessions) (admitted : Admitted sessions) :
    ∃ complete, ∀ later, complete ≤ later → (sessions later).startup = .finished .completed := by
  obtain ⟨opened, _, launched, isOpen⟩ := endless.passes_gate admitted
  obtain ⟨settling, settled⟩ := endless.settles launched isOpen
  obtain ⟨complete, completed⟩ : ∃ time, (sessions time).startup = .finished .completed := by
    cases phase : (sessions settling).startup with
    | settled =>
        exact endless.startup_leaves .settled (· = .finished .completed)
          (fun _ phase => by simp [Session.startupIsReady, phase])
          (fun _ phase => by simp [Session.startupStep_startup, phase]) phase
    | finished ending =>
        cases ending with
        | completed => exact ⟨settling, phase⟩
        | _ => simp [phase, StartupPhase.hasSettled] at settled
    | _ => simp [phase, StartupPhase.hasSettled] at settled
  exact ⟨complete, fun later after =>
    stays (fun session => session.startup = .finished .completed)
      (fun time completed => (endless.moves time).leads.of_completed completed) completed after⟩

end Endless

theorem logging_mem_ready {session : Session ε} {failure : Failure}
    (logs : session.isLogging = true) (waits : session.pendingFailure = some failure) :
    .logging ∈ session.ready engines := by
  simp [Session.ready, logs, waits]

/-- What waits to be logged is logged in the end. -/
theorem follow_drains (engines : Engines ε α) (receiver : Config.Receiver)
    {acts : Nat → Act ε α}
    (fair : Fair engines (follow engines (new engines receiver) acts) acts)
    (attended : FairTo engines .logging (follow engines (new engines receiver) acts) acts)
    (time : Nat) :
    ∃ later, time ≤ later ∧
      (follow engines (new engines receiver) acts later).session.pendingFailure = none := by
  have endless := follow_endless engines receiver fair
  have atLog (time : Nat) :
      (follow engines (new engines receiver) acts time).session.AtLog
        ((trace engines (new engines receiver) ((List.range time).map acts)).filter
          Deed.isForLog) := by
    rw [follow_eq_run]
    exact run_atLog engines receiver _
  have goesOn (time : Nat) : follow engines (new engines receiver) acts (time + 1) =
      perform engines (follow engines (new engines receiver) acts time) (acts time) := rfl
  generalize follow engines (new engines receiver) acts = threads at *
  cases waits : (threads time).session.pendingFailure with
  | none => exact ⟨time, Nat.le_refl _, waits⟩
  | some failure =>
      obtain ⟨settling, settled⟩ : ∃ settling,
          (threads settling).session.startup.hasSettled = true := by
        obtain logs | ⟨isOpen, launched⟩ := (atLog time).waits (endless.accountable time) waits
        · exact ⟨time, (atLog time).isLogging.symm.trans logs⟩
        · exact endless.settles launched isOpen
      obtain ⟨later, after, stepped⟩ := attended (max time settling)
      have logs : (threads later).session.isLogging = true := by
        rw [(atLog later).isLogging]
        exact Endless.stays (fun session => session.startup.hasSettled = true)
          (fun time settled => (endless.moves time).leads.hasSettled settled) settled (by omega)
      cases still : (threads later).session.pendingFailure with
      | none => exact ⟨later, by omega, still⟩
      | some next =>
          refine ⟨later + 1, by omega, ?_⟩
          rw [goesOn, stepped (logging_mem_ready logs still), perform, Session.step_pending,
            Session.deeds, Session.loggingDeeds, logs, still]
          rfl

theorem reports_filter (deeds : List Deed) :
    (deeds.filter Deed.isForHost).flatMap Deed.reports = deeds.flatMap Deed.reports := by
  induction deeds with
  | nil => rfl
  | cons deed deeds ih =>
      rw [List.filter_cons, List.flatMap_cons]
      split
      · rw [List.flatMap_cons, ih]
      · rename_i background
        cases deed with
        | told failure => exact absurd rfl background
        | _ => exact ih

/-- However the steps of starts, stops and tasks interleave, and whatever the engines answer: the
host is told of one failure at most, and that is the rejection of the job definitions, with
nothing else launched and the engines cancelled, or the failure of discovery. What fails in the
background, scraping or the settings, is never told: it is left at a single place from which it
is logged. Only a second failure that occurs while the first still waits there is lost. As long
as the tasks are not passed over for good the place is always emptied again, and a startup that
is not stopped and whose job definitions are accepted completes, whatever fails in the
background. Failures of the background count from when they are handed in, which on a single
thread is the turn in which they occur. -/
theorem failures_are_routed (engines : Engines ε α) (receiver : Config.Receiver) :
    (∀ acts : List (Act ε α),
      let threads := run engines (new engines receiver) acts
      let deeds := trace engines (new engines receiver) acts
      threads.session.fatal = deeds.flatMap Deed.reports ∧
      threads.session.fatal.length ≤ 1 ∧
      HostCourse (deeds.filter Deed.isForHost) ∧
      (∀ failure, Deed.failed .definitions failure ∈ deeds →
        threads.session.discovery = .absent ∧ threads.session.scraping = .absent ∧
        threads.session.isLogging = false ∧
        (∀ call, call = .applyDiscovery ∨ call = .runDiscovery ∨ call = .runScraping →
          threads.session.count call = 0) ∧
        (Deed.told failure ∈ deeds → threads.session.control.isCancelled = true)) ∧
      LogCourse (deeds.filter Deed.isForLog) threads.session.pendingFailure ∧
      ∀ act, (perform engines threads act).session.log =
        threads.session.log.add threads.session.now
          (threads.engineNotices engines act ++
            (threads.deeds engines act).flatMap Deed.notices)) ∧
    (∀ acts : Nat → Act ε α,
      let threads := follow engines (new engines receiver) acts
      let deeds time := trace engines (new engines receiver) ((List.range time).map acts)
      Fair engines threads acts →
        (FairTo engines .logging threads acts → ∀ time, ∃ later, time ≤ later ∧
          LogCourse ((deeds later).filter Deed.isForLog) none) ∧
        (Admitted (fun time => (threads time).session) → ∃ complete, ∀ later, complete ≤ later →
          (threads later).stage = .running)) ∧
    ∀ (events : List (Event ε α)) result,
      (Session.run engines (.new engines receiver) events).startup ≠ .applied result := by
  refine ⟨fun acts => ?_, fun acts => ?_, fun events result applied => ?_⟩
  · intro threads deeds
    have fatal : threads.session.fatal = deeds.flatMap Deed.reports :=
      run_fatal engines receiver acts
    have atHost : threads.session.AtHost (deeds.filter Deed.isForHost) :=
      run_atHost engines receiver acts
    have once : threads.StartsOnce := (StartsOnce.new engines receiver).run engines acts
    refine ⟨fatal, ?_, atHost.course, fun failure failed => ?_,
      (run_atLog engines receiver acts).course, fun act => perform_log engines once act⟩
    · rw [fatal, ← reports_filter]
      exact atHost.course.length_reports
    · have failed : Deed.failed .definitions failure ∈ deeds.filter Deed.isForHost :=
        List.mem_filter.mpr ⟨failed, rfl⟩
      obtain ⟨discovery, scraping, logging, calls⟩ :=
        nothing_launched engines receiver acts (atHost.isRejected failed)
      exact ⟨discovery, scraping, logging, calls, fun told =>
        atHost.isCancelled failed (List.mem_filter.mpr ⟨told, rfl⟩)⟩
  · intro threads deeds fair
    refine ⟨fun attended time => ?_, fun admitted => ?_⟩
    · obtain ⟨later, after, drained⟩ := follow_drains engines receiver fair attended time
      refine ⟨later, after, ?_⟩
      rw [← drained, follow_eq_run]
      exact (run_atLog engines receiver _).course
    · obtain ⟨complete, completed⟩ := (follow_endless engines receiver fair).completes admitted
      refine ⟨complete, fun later after => ?_⟩
      have confirmed : (threads later).Confirmed := by
        have ran := Confirmed.run engines receiver ((List.range later).map acts)
        rw [← follow_eq_run] at ran
        exact ran
      exact confirmed (completed later after) (admitted.unstopped later)
  · have parked := Session.run_isParked engines receiver events
    rw [applied] at parked
    cases parked

/-- Both the scrape engine and the settings of discovery fail at once. -/
def failingEngines : Engines Unit Empty :=
  { idleEngines with
    applyDiscovery := fun _ _ => ((), [], .error (.discovery "web" (.plain "refused")))
    beginScraping := fun _ => ((), some (.error .notificationsClosed)) }

def failingStart : List (Act Unit Empty) :=
  [.start 0, .start 0] ++ List.replicate 6 (.step .startup) ++
    [.step .discovery, .wait Config.defaultStartupGrace.nanos] ++
    List.replicate 2 (.step .scraping) ++ List.replicate 3 (.step .startup) ++ [.step .logging]

def failing : Nat → Threads Unit :=
  follow failingEngines (new failingEngines (.named "receiver")) (thenRest failingStart)

/-- A receiver of which everything in the background fails runs all the same. The failure of the
settings comes while that of scraping waits, and is lost. -/
theorem failures_are_routed_failing :
    Fair failingEngines failing (thenRest failingStart) ∧
      FairTo failingEngines .logging failing (thenRest failingStart) ∧
      Admitted (fun time => (failing time).session) ∧
      (∃ complete, (failing complete).stage = .running) ∧
      trace failingEngines (new failingEngines (.named "receiver")) failingStart =
        [.failed .scraping .notificationsClosed,
          .failed .settings (.discovery "web" (.plain "refused")),
          .noted .notificationsClosed] := by
  have idle : ∀ task : SessionTask Empty, task ∉
      (run failingEngines (new failingEngines (.named "receiver")) failingStart).session.ready
        failingEngines := by
    intro task
    cases task with
    | engine task => exact task.elim
    | _ => decide
  have fair : Fair failingEngines failing (thenRest failingStart) :=
    fair_thenRest fun task _ => idle task
  have admitted : Admitted (fun time => (failing time).session) :=
    admitted_thenRest ⟨2, rfl⟩ (by decide)
  obtain ⟨complete, running⟩ := ((failures_are_routed failingEngines (.named "receiver")).2.1
    (thenRest failingStart) fair).2 admitted
  exact ⟨fair, fairTo_thenRest (idle .logging), admitted,
    ⟨complete, running complete (Nat.le_refl _)⟩, by decide⟩

end Threads

end ScrapeRelay.Lifecycle
