import ScrapeRelay.Proofs.Lifecycle.Progress
import ScrapeRelay.Proofs.Lifecycle.Shutdown
import ScrapeRelay.Proofs.Lifecycle.Turns

/-!
# Starting up

What all runs of a receiver have in common as to the calls of its engines
(`startup_handshake`), whichever calls to start and to stop it are under way, and
whatever the engines answer.
-/

namespace ScrapeRelay.Lifecycle

namespace Threads

variable {ε α : Type} {engines : Engines ε α} {threads : Threads ε}

theorem Move.receiver {session next : Session ε} (move : Move engines session next) :
    next.receiver = session.receiver := by
  cases move with
  | step task =>
      by_cases startup : task = .startup
      · subst startup
        exact (session.startupStep_frame engines).1
      · exact (session.step_frame engines startup).2.2.1
  | _ => rfl

theorem run_accountable (engines : Engines ε α) (once : threads.StartsOnce)
    (accountable : threads.session.Accountable) (acts : List (Act ε α)) :
    (run engines threads acts).session.Accountable :=
  run_keeps_session engines Session.Accountable once acts
    (fun _ _ accountable move => accountable.move move) accountable

theorem nothing_after_rejection (once : threads.StartsOnce)
    (accountable : threads.session.Accountable) {failure : Failure}
    (equipped : threads.session.startup = .equipped)
    (rejected : (engines.installJobs threads.session.receiver.scrape threads.session.engines).2 =
      .error failure)
    (later : List (Act ε α)) {call : Call}
    (other : call = .applyDiscovery ∨ call = .runDiscovery ∨ call = .runScraping) :
    (run engines threads (.step .startup :: later)).session.count call = 0 := by
  have refused : (threads.session.step engines .startup).startup.isRejected = true := by
    rw [Session.step, Session.startupStep_startup, equipped]
    dsimp only
    rw [rejected]
    rfl
  refine (run_accountable engines once accountable _).nothing_else ?_ other
  exact run_keeps_session engines (fun session => session.startup.isRejected = true)
    (once.perform engines (.step .startup)) later
    (fun _ _ rejected move => move.leads.isRejected rejected) refused

theorem grace_first (once : threads.StartsOnce) (accountable : threads.session.Accountable)
    (discovering : threads.session.startup = .discovering) (later : List (Act ε α)) {time : Nat}
    (applied : (time, Call.applyDiscovery) ∈
      (run engines threads (.step .startup :: later)).session.calls) :
    threads.session.now + threads.session.receiver.startupGrace.nanos ≤ time := by
  have waits := run_keeps_session engines
    (fun session => session.Accountable ∧ NotBefore _ session)
    (once.perform engines (.step .startup)) later
    (fun _ _ ⟨accountable, waits⟩ move => ⟨accountable.move move, waits.move accountable move⟩)
    ⟨accountable.step engines .startup, notBefore_launch engines accountable discovering⟩
  exact waits.2.applied time applied

def follow (engines : Engines ε α) (threads : Threads ε) (acts : Nat → Act ε α) :
    Nat → Threads ε
  | 0 => threads
  | time + 1 => perform engines (follow engines threads acts time) (acts time)

/-- None of the main tasks is passed over for good while it has something to do. -/
def Fair (engines : Engines ε α) (threads : Nat → Threads ε) (acts : Nat → Act ε α) : Prop :=
  ∀ task : SessionTask α, task.isMain = true → ∀ time, ∃ later, time ≤ later ∧
    (task ∈ (threads later).session.ready engines → acts later = .step task)

theorem follow_startsOnce (engines : Engines ε α) (once : threads.StartsOnce)
    (acts : Nat → Act ε α) (time : Nat) : (follow engines threads acts time).StartsOnce := by
  induction time with
  | zero => exact once
  | succ time ih => exact ih.perform engines (acts time)

theorem follow_endless (engines : Engines ε α) (receiver : Config.Receiver)
    {acts : Nat → Act ε α}
    (fair : Fair engines (follow engines (new engines receiver) acts) acts) :
    Endless engines (fun time => (follow engines (new engines receiver) acts time).session) := by
  have moves (time : Nat) :=
    perform_move engines
      (follow_startsOnce engines (StartsOnce.new engines receiver) acts time) (acts time)
  refine ⟨moves, fun time => ?_, fun task main time => ?_⟩
  · induction time with
    | zero => exact .new engines receiver
    | succ time ih => exact ih.move (moves time)
  · obtain ⟨later, after, stepped⟩ := fair task main time
    refine ⟨later, after, fun ready => ?_⟩
    rw [follow, stepped ready]
    rfl

/-- However the steps of starts, stops and tasks interleave: no engine is started or given
something twice; the job definitions come first, and nothing follows if they are rejected;
the discovery engine is given its settings once the gate is open, and not before the grace
period of the scrape task is over. On a single thread scraping has begun by then. If the
receiver is never stopped, its job definitions are accepted and the grace period elapses,
then all of this is done, whether or not a call to start still waits for it. -/
theorem startup_handshake (engines : Engines ε α) (receiver : Config.Receiver) :
    (∀ acts : List (Act ε α),
      let threads := run engines (new engines receiver) acts
      (∀ call, call ≠ .discoveryEnded ∧ call ≠ .scrapingEnded →
        threads.session.count call ≤ 1) ∧
      (∀ (place time : Nat) (call : Call), threads.session.calls[place]? = some (time, call) →
        call ≠ .installJobs → ∃ earlier start : Nat, earlier < place ∧
          threads.session.calls[earlier]? = some (start, .installJobs)) ∧
      (∀ failure, threads.session.startup = .equipped →
        (engines.installJobs receiver.scrape threads.session.engines).2 = .error failure →
        ∀ later call, call = .applyDiscovery ∨ call = .runDiscovery ∨ call = .runScraping →
          (run engines threads (.step .startup :: later)).session.count call = 0) ∧
      (∀ act, (perform engines threads act).session.count .applyDiscovery ≠
          threads.session.count .applyDiscovery → threads.session.gateIsOpen = true) ∧
      (threads.session.startup = .discovering → ∀ later time,
        (time, Call.applyDiscovery) ∈
          (run engines threads (.step .startup :: later)).session.calls →
        threads.session.now + receiver.startupGrace.nanos ≤ time)) ∧
    (∀ events : List (Event ε α),
      let session := Session.run engines (.new engines receiver) events
      ∀ place time : Nat, session.calls[place]? = some (time, .applyDiscovery) →
        ∃ earlier start : Nat, earlier < place ∧
          session.calls[earlier]? = some (start, .runScraping)) ∧
    ∀ acts : Nat → Act ε α,
      let threads := follow engines (new engines receiver) acts
      Fair engines threads acts → Admitted (fun time => (threads time).session) →
      ∃ complete, ∀ later, complete ≤ later →
        (threads later).session.count .installJobs = 1 ∧
        (threads later).session.count .runDiscovery = 1 ∧
        (threads later).session.count .runScraping = 1 ∧
        (threads later).session.count .applyDiscovery = 1 := by
  refine ⟨fun acts => ?_, fun events => ?_, fun acts => ?_⟩
  · intro threads
    have once : threads.StartsOnce := (StartsOnce.new engines receiver).run engines acts
    have accountable : threads.session.Accountable :=
      run_accountable engines (StartsOnce.new engines receiver) (.new engines receiver) acts
    have same : threads.session.receiver = receiver :=
      run_keeps_session engines (fun session => session.receiver = receiver)
        (StartsOnce.new engines receiver) acts (fun _ _ same move => move.receiver.trans same) rfl
    refine ⟨accountable.count_le_one, fun place time call made other => ?_, ?_, ?_, ?_⟩
    · exact accountable.installed_first made other
    · rw [← same]
      exact fun failure equipped rejected later call other =>
        nothing_after_rejection once accountable equipped rejected later other
    · exact fun act applied => (perform_move engines once act).gateIsOpen applied
    · rw [← same]
      exact fun discovering later time applied =>
        grace_first once accountable discovering later applied
  · exact ((Session.BegunFirst.new engines receiver).run engines events).ordered
  · exact fun fair admitted => (follow_endless engines receiver fair).calls_all admitted

/-- Some steps, after which time stands still. -/
def thenRest (acts : List (Act ε α)) (time : Nat) : Act ε α := acts.getD time (.wait 0)

theorem follow_thenRest (engines : Engines ε α) (threads : Threads ε) (acts : List (Act ε α))
    (time : Nat) :
    follow engines threads (thenRest acts) time = run engines threads (acts.take time) := by
  induction time with
  | zero => rfl
  | succ time ih =>
      rw [follow, ih, List.take_add_one, run_append, thenRest, List.getD_eq_getElem?_getD]
      cases acts[time]? with
      | none => rfl
      | some act => rfl

/-- A task is not passed over for good while it has something to do. -/
def FairTo (engines : Engines ε α) (task : SessionTask α) (threads : Nat → Threads ε)
    (acts : Nat → Act ε α) : Prop :=
  ∀ time, ∃ later, time ≤ later ∧
    (task ∈ (threads later).session.ready engines → acts later = .step task)

theorem fairTo_thenRest {task : SessionTask α} {acts : List (Act ε α)}
    (idle : task ∉ (run engines threads acts).session.ready engines) :
    FairTo engines task (follow engines threads (thenRest acts)) (thenRest acts) := by
  refine fun time => ⟨max time acts.length, Nat.le_max_left _ _, fun ready => ?_⟩
  rw [follow_thenRest, List.take_of_length_le (Nat.le_max_right _ _)] at ready
  exact absurd ready idle

/-- Steps after which no main task has anything to do pass none of them over. -/
theorem fair_thenRest {acts : List (Act ε α)}
    (idle : ∀ task : SessionTask α, task.isMain = true →
      task ∉ (run engines threads acts).session.ready engines) :
    Fair engines (follow engines threads (thenRest acts)) (thenRest acts) :=
  fun task main => fairTo_thenRest (idle task main)

/-- What holds after each of some steps holds for good. -/
theorem thenRest_holds (acts : List (Act ε α)) (holds : Session ε → Prop)
    (held : ∀ time < acts.length + 1, holds (run engines threads (acts.take time)).session)
    (time : Nat) : holds (follow engines threads (thenRest acts) time).session := by
  rw [follow_thenRest]
  by_cases early : time < acts.length + 1
  · exact held time early
  · have whole := held acts.length (Nat.lt_succ_self _)
    rw [List.take_length] at whole
    rw [List.take_of_length_le (by omega)]
    exact whole

/-- A launched startup that no stop and no bad job definitions come in the way of, and whose grace
period is over in the end, has what it needs. -/
theorem admitted_thenRest {acts : List (Act ε α)}
    (launched : ∃ time, (run engines threads (acts.take time)).session.startup = .launched)
    (undisturbed : ∀ time < acts.length + 1,
      let session := (run engines threads (acts.take time)).session
      session.control.stopLatch.isDone = false ∧ session.startup.isRejected = false ∧
        ∀ wake ∈ Session.wakeTimes session.scraping,
          wake ≤ (run engines threads acts).session.now) :
    Admitted (fun time => (follow engines threads (thenRest acts) time).session) := by
  have undisturbed := thenRest_holds acts (fun session =>
    session.control.stopLatch.isDone = false ∧ session.startup.isRejected = false ∧
      ∀ wake ∈ Session.wakeTimes session.scraping, wake ≤ (run engines threads acts).session.now)
    undisturbed
  refine ⟨?_, fun time => (undisturbed time).1, fun time failure rejected => ?_,
    fun time wake asleep => ⟨max time acts.length, Nat.le_max_left _ _, ?_⟩⟩
  · obtain ⟨time, phase⟩ := launched
    exact ⟨time, by rw [follow_thenRest]; exact phase⟩
  · have accepted := (undisturbed time).2.1
    simp [rejected, StartupPhase.isRejected] at accepted
  · rw [follow_thenRest, List.take_of_length_le (Nat.le_max_right _ _)]
    exact (undisturbed time).2.2 wake (by rw [asleep]; exact List.mem_cons_self)

/-- A start that is dropped at the gate, and everything that the tasks do after that. -/
def abandonedStart : List (Act Unit Empty) :=
  [.start 0, .start 0] ++ List.replicate 6 (.step .startup) ++
    [.dropStart 0, .step .discovery, .wait Config.defaultStartupGrace.nanos] ++
    List.replicate 2 (.step .scraping) ++ List.replicate 3 (.step .startup)

def abandoned : Nat → Threads Unit :=
  follow idleEngines (new idleEngines (.named "receiver")) (thenRest abandonedStart)

theorem abandoned_admitted : Admitted (fun time => (abandoned time).session) :=
  admitted_thenRest ⟨2, rfl⟩ (by decide)

/-- A receiver starts up although its caller does not wait for it. -/
theorem startup_handshake_abandoned :
    Fair idleEngines abandoned (thenRest abandonedStart) ∧
      Admitted (fun time => (abandoned time).session) ∧
      ∃ complete, (abandoned complete).session.count .applyDiscovery = 1 := by
  have fair : Fair idleEngines abandoned (thenRest abandonedStart) := by
    refine fair_thenRest fun task main => ?_
    cases task with
    | startup => decide
    | discovery => decide
    | scraping => decide
    | logging => simp [SessionTask.isMain] at main
    | engine task => exact task.elim
  obtain ⟨complete, all⟩ := (startup_handshake idleEngines (.named "receiver")).2.2
    (thenRest abandonedStart) fair abandoned_admitted
  exact ⟨fair, abandoned_admitted, complete, (all complete (Nat.le_refl _)).2.2.2⟩

end Threads

end ScrapeRelay.Lifecycle
