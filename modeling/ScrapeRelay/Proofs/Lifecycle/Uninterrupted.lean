import ScrapeRelay.Proofs.Lifecycle.Silence

/-!
# Receivers that are left alone

A receiver that is neither stopped nor cancelled, and whose job definitions are accepted,
starts up completely: once its grace period is over and none of its tasks has anything to
do, both engines run (`Ongoing.at_rest`).
-/

namespace ScrapeRelay.Lifecycle

namespace StartupPhase

/-- Whether neither a stop nor bad job definitions have kept the startup from going on. -/
def goesWell : StartupPhase → Bool
  | .entered stopCame => !stopCame
  | .rejected _ | .revoked _ | .refused _ => false
  | .finished ending => ending = .completed
  | _ => true

/-- Whether the startup can be at this phase between two turns. -/
def isParked : StartupPhase → Bool
  | .absent | .launched | .gated | .finished _ => true
  | _ => false

/-- Whether the startup has given the job definitions away in this turn. -/
def isLaunching : StartupPhase → Bool
  | .accepted | .discovering => true
  | _ => false

/-- The most steps that the startup makes before it waits. -/
def stepsLeft (gateIsOpen : Bool) : StartupPhase → Nat
  | .absent | .finished _ => 0
  | .launched => 7
  | .entered _ => 6
  | .admitted => 5
  | .equipped => 4
  | .rejected _ => 3
  | .revoked _ | .accepted | .applied _ => 2
  | .refused _ | .discovering | .settled => 1
  | .gated => if gateIsOpen then 3 else 0

theorem stepsLeft_le (gateIsOpen : Bool) (phase : StartupPhase) :
    phase.stepsLeft gateIsOpen ≤ Session.stepsPerTurn := by
  cases phase <;> cases gateIsOpen <;> simp [stepsLeft, Session.stepsPerTurn]

theorem not_isLaunching {phase : StartupPhase} (parked : phase.isParked = true) :
    phase.isLaunching = false := by
  cases phase <;> simp_all [isParked, isLaunching]

end StartupPhase

theorem RunPhase.eq_sleeping {phase : RunPhase} (launched : phase.isLaunched = true)
    (asleep : phase.hasWoken = false) : ∃ wake, phase = .sleeping wake := by
  cases phase <;> simp_all [isLaunched, hasWoken]

namespace Session

variable {ε α : Type} {engines : Engines ε α} {session : Session ε} {receiver : Config.Receiver}

theorem startupStep_stepsLeft (engines : Engines ε α) (accountable : session.Accountable) :
    (session.startupStep engines).startup.stepsLeft (session.startupStep engines).gateIsOpen ≤
      session.startup.stepsLeft session.gateIsOpen - 1 := by
  rw [(session.startupStep_frame engines).2.2.1, startupStep_startup]
  cases phase : session.startup with
  | entered stopCame => cases stopCame <;> simp [StartupPhase.stepsLeft]
  | equipped =>
      dsimp only
      cases (engines.installJobs session.receiver.scrape session.engines).2 <;>
        simp [StartupPhase.stepsLeft]
  | discovering =>
      -- The gate is closed as long as the scrape task is not launched.
      have unlaunched := accountable.scraping
      rw [phase] at unlaunched
      have closed := accountable.gate
      rw [RunPhase.eq_absent unlaunched] at closed
      simp [StartupPhase.stepsLeft, closed, RunPhase.hasWoken]
  | gated => cases session.gateIsOpen <;> simp [StartupPhase.stepsLeft]
  | _ => simp [StartupPhase.stepsLeft]

/-- A turn takes the startup to its next wait. -/
theorem startupTurn_waits (engines : Engines ε α) (accountable : session.Accountable) :
    (session.startupTurn engines).startupIsReady = false := by
  have repeated (steps : Nat) :
      let after := Nat.repeat (startupStep engines) steps session
      after.Accountable ∧ after.startup.stepsLeft after.gateIsOpen ≤
        session.startup.stepsLeft session.gateIsOpen - steps := by
    induction steps with
    | zero => exact ⟨accountable, Nat.le_refl _⟩
    | succ steps ih =>
        have less := startupStep_stepsLeft engines ih.1
        exact ⟨ih.1.startupStep engines, Nat.le_trans less (Nat.sub_le_sub_right ih.2 1)⟩
  have none : (session.startupTurn engines).startup.stepsLeft
      (session.startupTurn engines).gateIsOpen = 0 := by
    have most := session.startup.stepsLeft_le session.gateIsOpen
    have left := (repeated stepsPerTurn).2
    rw [Nat.sub_eq_zero_of_le most] at left
    exact Nat.le_zero.mp left
  unfold startupIsReady
  cases phase : (session.startupTurn engines).startup with
  | gated => simpa [phase, StartupPhase.stepsLeft] using none
  | absent => rfl
  | finished ending => rfl
  | _ => simp [phase, StartupPhase.stepsLeft] at none

theorem startupTurn_isParked (engines : Engines ε α) (accountable : session.Accountable) :
    (session.startupTurn engines).startup.isParked = true := by
  have waits := startupTurn_waits engines accountable
  unfold startupIsReady at waits
  split at waits <;> simp_all [StartupPhase.isParked]

theorem turn_startup (engines : Engines ε α) {task : SessionTask α} (other : task ≠ .startup) :
    (session.turn engines task).startup = session.startup :=
  turn_keeps engines task (fun after => after.startup = session.startup)
    (fun after same => (after.step_frame engines other).1.trans same) rfl

/-- Between two turns of one thread the startup waits, if it goes on at all. -/
theorem run_isParked (engines : Engines ε α) (receiver : Config.Receiver)
    (events : List (Event ε α)) :
    (run engines (new engines receiver) events).startup.isParked = true := by
  refine (run_keeps (fun session => session.Reached ∧ session.startup.isParked = true)
    (fun session event _ ⟨reached, parked⟩ => ⟨reached.perform engines event, ?_⟩)
    ⟨.new engines receiver, rfl⟩).2
  cases event with
  | start =>
      rw [perform, start_eq]
      split
      · rfl
      · exact parked
  | turn task =>
      by_cases startup : task = .startup
      · subst startup
        exact startupTurn_isParked engines reached.accountable
      · rw [perform, turn_startup engines startup]
        exact parked
  | _ => exact parked

/-- A session of a receiver that was neither stopped nor cancelled and whose job
definitions were not rejected. -/
structure Undisturbed (receiver : Config.Receiver) (session : Session ε) : Prop where
  receiver : session.receiver = receiver
  unstopped : session.control.stopLatch.isDone = false
  uncancelled : session.isCancelled = false
  goesWell : session.startup.goesWell = true

namespace Undisturbed

theorem new (engines : Engines ε α) (receiver : Config.Receiver) :
    (new engines receiver).Undisturbed receiver :=
  ⟨rfl, rfl, rfl, rfl⟩

theorem start (undisturbed : session.Undisturbed receiver) :
    session.start.1.Undisturbed receiver := by
  obtain ⟨same, unstopped, uncancelled, goesWell⟩ := undisturbed
  rw [start_eq]
  split
  · exact ⟨same, unstopped, uncancelled, rfl⟩
  · exact ⟨same, unstopped, uncancelled, goesWell⟩

theorem startupStep (accepts : ∀ state, (engines.installJobs receiver.scrape state).2 = .ok ())
    (undisturbed : session.Undisturbed receiver) :
    (session.startupStep engines).Undisturbed receiver := by
  obtain ⟨rfl, unstopped, uncancelled, goesWell⟩ := undisturbed
  obtain ⟨same, _, _, host⟩ := session.startupStep_frame engines
  have startup := session.startupStep_startup engines
  have control := session.startupStep_control engines
  obtain ⟨token, hostCancelled⟩ := Bool.or_eq_false_iff.mp uncancelled
  refine ⟨same, ?_, ?_, ?_⟩
  · rw [(session.startupStep_token engines).1]
    exact unstopped
  · rw [isCancelled, host, hostCancelled, Bool.or_false]
    cases phase : session.startup with
    | entered stopCame =>
        cases stopCame with
        | true => simp [phase, StartupPhase.goesWell] at goesWell
        | false => simpa [control, phase, Control.deposit] using token
    | rejected failure => simp [phase, StartupPhase.goesWell] at goesWell
    | revoked failure => simp [phase, StartupPhase.goesWell] at goesWell
    | settled =>
        simp only [phase] at control
        rw [control, Control.confirm, Control.move]
        split <;> exact token
    | _ => simpa [control, phase] using token
  · cases phase : session.startup with
    | launched => simp [startup, phase, StartupPhase.goesWell, Control.stopCame, unstopped]
    | entered stopCame =>
        cases stopCame with
        | true => simp [phase, StartupPhase.goesWell] at goesWell
        | false => simp [startup, phase, StartupPhase.goesWell]
    | equipped => simp [startup, phase, accepts, StartupPhase.goesWell]
    | gated =>
        rw [startup, phase]
        dsimp only
        split <;> rfl
    | _ => simp_all [StartupPhase.goesWell]

theorem step (accepts : ∀ state, (engines.installJobs receiver.scrape state).2 = .ok ())
    (undisturbed : session.Undisturbed receiver) (task : SessionTask α) :
    (session.step engines task).Undisturbed receiver := by
  by_cases startup : task = .startup
  · subst startup
    exact undisturbed.startupStep accepts
  · obtain ⟨rfl, unstopped, uncancelled, goesWell⟩ := undisturbed
    obtain ⟨phase, control, same, _, host⟩ := session.step_frame engines startup
    refine ⟨same, ?_, ?_, ?_⟩
    · rw [control]
      exact unstopped
    · rw [isCancelled, control, host]
      exact uncancelled
    · rw [phase]
      exact goesWell

end Undisturbed

/-- Whether the grace period is over. It begins as the engines are called first. -/
def graceIsOver (session : Session ε) : Bool :=
  match session.calls.head? with
  | some (time, _) => time + session.receiver.startupGrace.nanos ≤ session.now
  | none => false

/-- The scrape task sleeps for the grace period from the first call on. -/
structure Punctual (session : Session ε) : Prop where
  launching : session.startup.isLaunching = true →
    session.calls.head?.map Prod.fst = some session.now
  sleeping : ∀ wake, session.scraping = .sleeping wake →
    session.calls.head?.map (fun first => first.1 + session.receiver.startupGrace.nanos) =
      some wake

theorem first_append {β : Type} {first : Nat × Call → β} {value : β} {calls added : List (Nat × Call)}
    (known : calls.head?.map first = some value) :
    (calls ++ added).head?.map first = some value := by
  obtain ⟨call, head, _⟩ := Option.map_eq_some_iff.mp known
  rw [List.head?_append, head, Option.some_or, ← head]
  exact known

/-- A sleep of the scrape task was begun by the startup. -/
theorem asleep_of_step (engines : Engines ε α) {task : SessionTask α} {wake : Nat}
    (other : task ≠ .startup) (asleep : (session.step engines task).scraping = .sleeping wake) :
    session.scraping = .sleeping wake := by
  cases task with
  | startup => exact absurd rfl other
  | discovery =>
      obtain ⟨_, _, _, _, _, stepped⟩ := session.discoveryTurn_frame engines
      rw [step, stepped] at asleep
      exact asleep
  | scraping =>
      rw [step] at asleep
      obtain ⟨same, _⟩ | ⟨_, _, _, opened⟩ | ⟨_, begun, _⟩ := session.scrapingStep_calls engines
      · rw [same] at asleep
        exact asleep
      · simp [opened] at asleep
      · simp [asleep, RunPhase.hasBegun] at begun
  | logging =>
      obtain ⟨_, _, stepped⟩ := session.loggingTurn_frame
      rw [step, stepped] at asleep
      exact asleep
  | engine task => exact asleep

namespace Punctual

variable {after : Session ε} {added : List (Nat × Call)}

theorem new (engines : Engines ε α) (receiver : Config.Receiver) :
    (new engines receiver).Punctual := by
  constructor <;> simp [Session.new, StartupPhase.isLaunching]

/-- Where no sleep begins. -/
theorem aside (punctual : session.Punctual) (calls : after.calls = session.calls ++ added)
    (receiver : after.receiver = session.receiver)
    (launching : after.startup.isLaunching = true →
      session.startup.isLaunching = true ∧ after.now = session.now)
    (asleep : ∀ wake, after.scraping = .sleeping wake → session.scraping = .sleeping wake) :
    after.Punctual := by
  refine ⟨fun launches => ?_, fun wake sleeps => ?_⟩
  · obtain ⟨before, now⟩ := launching launches
    rw [calls, now]
    exact first_append (punctual.launching before)
  · rw [calls, receiver]
    exact first_append (punctual.sleeping wake (asleep wake sleeps))

theorem startupStep (engines : Engines ε α) (accountable : session.Accountable)
    (punctual : session.Punctual) : (session.startupStep engines).Punctual := by
  obtain ⟨receiver, now, _, _⟩ := session.startupStep_frame engines
  have startup := session.startupStep_startup engines
  have calls := session.startupStep_calls engines
  have scraping := (session.startupStep_runs engines).2
  cases phase : session.startup with
  | equipped =>
      have unlaunched := accountable.scraping
      have opening := accountable.opening
      rw [phase] at unlaunched opening
      have none : session.calls = [] := by
        simpa [StartupPhase.hasInstalled] using opening
      simp only [phase, RunPhase.eq_absent unlaunched] at scraping
      rw [phase, none] at calls
      refine ⟨fun _ => ?_, fun wake asleep => ?_⟩
      · rw [calls, now]
        rfl
      · rw [scraping] at asleep
        cases asleep
  | discovering =>
      simp only [phase, List.append_nil] at scraping calls startup
      refine ⟨fun launches => ?_, fun wake asleep => ?_⟩
      · simp [startup, StartupPhase.isLaunching] at launches
      · have first := punctual.launching (by rw [phase]; rfl)
        rw [scraping] at asleep
        obtain ⟨call, head, time⟩ := Option.map_eq_some_iff.mp first
        rw [calls, receiver, head, Option.map_some, time]
        exact congrArg some (RunPhase.sleeping.inj asleep)
  | accepted =>
      exact punctual.aside calls receiver (fun _ => ⟨by rw [phase]; rfl, now⟩)
        (fun wake asleep => by simpa [scraping, phase] using asleep)
  | entered stopCame =>
      refine punctual.aside calls receiver (fun launches => ?_)
        (fun wake asleep => by simpa [scraping, phase] using asleep)
      cases stopCame <;> simp [startup, phase, StartupPhase.isLaunching] at launches
  | gated =>
      refine punctual.aside calls receiver (fun launches => ?_)
        (fun wake asleep => by simpa [scraping, phase] using asleep)
      rw [startup, phase] at launches
      dsimp only at launches
      split at launches <;> simp [StartupPhase.isLaunching] at launches
  | _ =>
      refine punctual.aside calls receiver (fun launches => ?_)
        (fun wake asleep => by simpa [scraping, phase] using asleep)
      simp [startup, phase, StartupPhase.isLaunching] at launches

theorem step (engines : Engines ε α) (accountable : session.Accountable)
    (punctual : session.Punctual) (task : SessionTask α) :
    (session.step engines task).Punctual := by
  by_cases startup : task = .startup
  · subst startup
    exact punctual.startupStep engines accountable
  · obtain ⟨phase, _, receiver, now, _⟩ := session.step_frame engines startup
    obtain ⟨added, calls, _⟩ := session.step_calls engines task
    refine punctual.aside calls receiver (fun launches => ?_)
      (fun wake => asleep_of_step engines startup)
    rw [phase] at launches
    exact ⟨launches, now⟩

end Punctual

/-- What holds, at any time, of a receiver that is left alone. -/
structure Ongoing (receiver : Config.Receiver) (session : Session ε) : Prop where
  reached : session.Reached
  undisturbed : session.Undisturbed receiver
  parked : session.startup.isParked = true
  punctual : session.Punctual

namespace Ongoing

theorem new (engines : Engines ε α) (receiver : Config.Receiver) :
    (new engines receiver).Ongoing receiver :=
  ⟨.new engines receiver, .new engines receiver, rfl, .new engines receiver⟩

theorem perform (accepts : ∀ state, (engines.installJobs receiver.scrape state).2 = .ok ())
    (ongoing : session.Ongoing receiver) {event : Event ε α}
    (undisturbing : event ≠ .stop ∧ event ≠ .cancelHost) :
    (perform engines session event).Ongoing receiver := by
  have reached := ongoing.reached.perform engines event
  have settled := StartupPhase.not_isLaunching ongoing.parked
  have asides {after : Session ε} (calls : after.calls = session.calls)
      (same : after.receiver = session.receiver) (scraping : after.scraping = session.scraping)
      (parked : after.startup.isParked = true) : after.Punctual := by
    refine ongoing.punctual.aside (calls.trans (List.append_nil _).symm) same ?_
      (fun wake asleep => scraping ▸ asleep)
    simp [StartupPhase.not_isLaunching parked]
  obtain ⟨same, unstopped, uncancelled, goesWell⟩ := ongoing.undisturbed
  cases event with
  | stop => exact absurd rfl undisturbing.1
  | cancelHost => exact absurd rfl undisturbing.2
  | start =>
      have undisturbed := ongoing.undisturbed.start
      rw [Session.perform] at reached ⊢
      rw [start_eq] at reached undisturbed ⊢
      split at reached
      · rename_i idle
        rw [if_pos idle] at undisturbed ⊢
        exact ⟨reached, undisturbed, rfl, asides rfl rfl rfl rfl⟩
      · rename_i busy
        rw [if_neg busy]
        exact ongoing
  | wait nanos =>
      exact ⟨reached, ⟨same, unstopped, uncancelled, goesWell⟩, ongoing.parked,
        asides rfl rfl rfl ongoing.parked⟩
  | outside change =>
      exact ⟨reached, ⟨same, unstopped, uncancelled, goesWell⟩, ongoing.parked,
        asides rfl rfl rfl ongoing.parked⟩
  | turn task =>
      have accountable := ongoing.reached.accountable
      obtain ⟨_, undisturbed, punctual⟩ : (session.turn engines task).Accountable ∧
          (session.turn engines task).Undisturbed receiver ∧
          (session.turn engines task).Punctual := by
        refine turn_keeps engines task (fun after =>
          after.Accountable ∧ after.Undisturbed receiver ∧ after.Punctual) ?_
          ⟨accountable, ongoing.undisturbed, ongoing.punctual⟩
        rintro after ⟨accountable, undisturbed, punctual⟩
        exact ⟨accountable.step engines task, undisturbed.step accepts task,
          punctual.step engines accountable task⟩
      refine ⟨reached, undisturbed, ?_, punctual⟩
      by_cases startup : task = .startup
      · subst startup
        exact startupTurn_isParked engines accountable
      · rw [Session.perform, turn_startup engines startup]
        exact ongoing.parked

/-- Once the grace period is over and no task has anything to do, the startup is completed
and both engines were started. -/
theorem at_rest (ongoing : session.Ongoing receiver) (elapsed : session.graceIsOver = true)
    (rest : session.ready engines = []) :
    session.startup = .finished .completed ∧ session.discovery.hasBegun = true ∧
      session.scraping.hasBegun = true := by
  have accountable := ongoing.reached.accountable
  have idle (task : SessionTask α) : task ∉ session.ready engines := by simp [rest]
  obtain ⟨time, call, first⟩ : ∃ time call, session.calls.head? = some (time, call) := by
    unfold graceIsOver at elapsed
    split at elapsed
    · exact ⟨_, _, by assumption⟩
    · cases elapsed
  have awake (wake : Nat) : session.scraping ≠ .sleeping wake := by
    intro asleep
    have due := ongoing.punctual.sleeping wake asleep
    rw [first, Option.map_some, Option.some.injEq] at due
    simp only [graceIsOver, first, due, decide_eq_true_eq] at elapsed
    exact idle .scraping (scraping_mem_ready.mpr (by simp [asleep, runIsReady, elapsed]))
  have completed : session.startup = .finished .completed := by
    have installed := accountable.opening
    rw [first] at installed
    have parked := ongoing.parked
    have goesWell := ongoing.undisturbed.goesWell
    cases phase : session.startup with
    | absent => simp [phase, StartupPhase.hasInstalled, StartupPhase.hasEngines] at installed
    | launched => simp [phase, StartupPhase.hasInstalled, StartupPhase.hasEngines] at installed
    | gated =>
        exfalso
        have launched := accountable.scraping
        rw [phase] at launched
        by_cases isOpen : session.gateIsOpen = true
        · exact idle .startup (startup_mem_ready.mpr (by simp [startupIsReady, phase, isOpen]))
        · have closed : session.scraping.hasWoken = false := by
            rw [← accountable.gate]
            simpa using isOpen
          obtain ⟨wake, asleep⟩ := RunPhase.eq_sleeping launched closed
          exact awake wake asleep
    | finished ending => simpa [phase, StartupPhase.goesWell] using goesWell
    | _ => simp [phase, StartupPhase.isParked] at parked
  have discovery := accountable.discovery
  have scraping := accountable.scraping
  rw [completed] at discovery scraping
  refine ⟨completed, ?_, ?_⟩
  · by_contra waits
    have waiting := RunPhase.eq_awake discovery (by simpa using waits)
    exact idle .discovery (discovery_mem_ready.mpr (by rw [waiting]; rfl))
  · cases phase : session.scraping with
    | absent => simp [phase, RunPhase.isLaunched, StartupPhase.hasLaunchedScraping] at scraping
    | sleeping wake => exact absurd phase (awake wake)
    | awake => exact absurd (scraping_mem_ready.mpr (by rw [phase]; rfl)) (idle .scraping)
    | active => rfl
    | ended => rfl

end Ongoing

end Session

end ScrapeRelay.Lifecycle
