import ScrapeRelay.Proofs.Lifecycle.Once

/-!
# Stopping while starting

A stop may come at any point of the startup. Either the startup finds out before it
builds the engines, or the stop finds the token of the engines and cancels it
(`stop_leaves_no_engine`).
-/

namespace ScrapeRelay.Lifecycle

namespace StartupPhase

def hasComeToToken : StartupPhase → Bool
  | .absent | .launched => false
  | _ => true

/-- Whether the startup will not build the engines once a stop came. -/
def isShutOut : StartupPhase → Bool
  | .absent | .launched | .entered true | .finished .turnedAway => true
  | _ => false

theorem hasEngines_of_isShutOut {phase : StartupPhase} (out : phase.isShutOut = true) :
    phase.hasEngines = false := by
  cases phase with
  | entered stopCame => rfl
  | finished ending => cases ending <;> simp_all [isShutOut, hasEngines]
  | _ => simp_all [isShutOut, hasEngines]

end StartupPhase

namespace Threads

variable {ε α : Type} {engines : Engines ε α} {threads after : Threads ε} {number : Nat}

theorem StartMove.isDone (move : StartMove threads number after)
    (done : threads.session.control.stopLatch.isDone = true) :
    after.session.control.stopLatch.isDone = true := by
  cases move <;> exact done

theorem StopMove.isDone (move : StopMove threads number after)
    (done : threads.session.control.stopLatch.isDone = true) :
    after.session.control.stopLatch.isDone = true := by
  cases move with
  | pass called undone => rfl
  | withdraw marked unlocked => simpa [setStop, setControl] using done
  | _ => exact done

theorem perform_isDone (engines : Engines ε α) (act : Act ε α)
    (done : threads.session.control.stopLatch.isDone = true) :
    (perform engines threads act).session.control.stopLatch.isDone = true := by
  cases act with
  | start number => exact (threads.startStep_move number).isDone done
  | dropStart number => exact (threads.dropStart_move number).isDone done
  | stop number => exact (threads.stopStep_move number).isDone done
  | step task =>
      by_cases startup : task = .startup
      · subst startup
        rw [perform, Session.step, (threads.session.startupStep_token engines).1]
        exact done
      · rw [perform, (threads.session.step_frame engines startup).2.1]
        exact done
  | _ => exact done

/-- A stop came while the startup had not come to the token. -/
structure ShutOut (threads : Threads ε) : Prop where
  done : threads.session.control.stopLatch.isDone = true
  out : threads.session.startup.isShutOut = true

theorem shutOut_of_stop (engines : Engines ε α) (called : threads.stops number = .called)
    (undone : threads.session.control.stopLatch.isDone = false)
    (outside : threads.session.startup.hasComeToToken = false) :
    (perform engines threads (.stop number)).ShutOut := by
  have passed : perform engines threads (.stop number) =
      { threads.setControl { threads.session.control with stopLatch := ⟨true⟩ } with
        passes := threads.passes + 1 }.setStop number .passed := by
    simp [perform, stopStep, called, Control.enterStop, Latch.pass, undone]
  rw [passed]
  refine ⟨rfl, ?_⟩
  change threads.session.startup.isShutOut = true
  cases phase : threads.session.startup with
  | absent => rfl
  | launched => rfl
  | _ => simp [phase, StartupPhase.hasComeToToken] at outside

theorem ShutOut.perform (engines : Engines ε α) (out : threads.ShutOut)
    (once : threads.StartsOnce) (act : Act ε α) : (perform engines threads act).ShutOut := by
  refine ⟨perform_isDone engines act out.done, ?_⟩
  have before := out.out
  obtain same | ⟨_, launched⟩ | stepped := (perform_move engines once act).startup
  · rw [same]
    exact before
  · rw [launched]
    rfl
  · rw [stepped, Session.startupStep_startup]
    cases phase : threads.session.startup with
    | launched => simp [Control.stopCame, out.done, StartupPhase.isShutOut]
    | entered stopCame => cases stopCame <;> simp_all [StartupPhase.isShutOut]
    | finished ending => cases ending <;> simp_all [StartupPhase.isShutOut]
    | _ => simp_all [StartupPhase.isShutOut]

theorem ShutOut.run (engines : Engines ε α) (out : threads.ShutOut) (once : threads.StartsOnce)
    (acts : List (Act ε α)) : (run engines threads acts).ShutOut := by
  induction acts generalizing threads with
  | nil => exact out
  | cons act rest ih => exact ih (out.perform engines once act) (once.perform engines act)

/-- Once the stop that was let through is over, a token that the startup has left is
cancelled. -/
theorem StopsOnce.isCancelled (once : threads.StopsOnce)
    (inside : threads.session.startup.isOutside = false)
    (returned : threads.stops number = .returned true) :
    threads.session.control.isCancelled = true := by
  obtain ⟨_, gone, notEntered⟩ := once.returned number returned
  obtain entered | held | cancelled := once.token inside
  · exact absurd entered notEntered
  · simp [gone] at held
  · exact cancelled

theorem StopMove.returned {other : Nat} {first : Bool} (move : StopMove threads number after)
    (returned : threads.stops other = .returned first) : after.stops other = .returned first := by
  have kept {call : StopCall} (current : threads.stops number ≠ .returned first) :
      Function.update threads.stops number call other = .returned first := by
    have different : other ≠ number := fun same => current (same ▸ returned)
    rw [Function.update_of_ne different]
    exact returned
  cases move with
  | pass called undone => exact kept (by simp [called])
  | refuse called => exact kept (by simp [called])
  | mark passed => exact kept (by simp [passed])
  | withdraw marked unlocked => exact kept (by simp [marked])
  | finish withdrawn => exact kept (by simp [withdrawn])
  | still => exact returned

theorem StartMove.stops (move : StartMove threads number after) : after.stops = threads.stops := by
  cases move <;> rfl

theorem run_returned (engines : Engines ε α) {first : Bool} (acts : List (Act ε α))
    (returned : threads.stops number = .returned first) :
    (run engines threads acts).stops number = .returned first := by
  induction acts generalizing threads with
  | nil => exact returned
  | cons act rest ih =>
      refine ih ?_
      cases act with
      | start other =>
          rw [perform, (threads.startStep_move other).stops]
          exact returned
      | dropStart other =>
          rw [perform, (threads.dropStart_move other).stops]
          exact returned
      | stop other => exact (threads.stopStep_move other).returned returned
      | _ => exact returned

/-- However the steps of starts, stops and tasks interleave: the startup is launched at
most once, and at most one stop is let through. If the startup had not come to the place
of the token by then, the engines are never built. Otherwise the token of the engines is
cancelled once that stop has returned. From then on the receiver is stopped. -/
theorem stop_leaves_no_engine (engines : Engines ε α) (receiver : Config.Receiver)
    (acts : List (Act ε α)) :
    let threads := run engines (new engines receiver) acts
    threads.launches ≤ 1 ∧ threads.passes ≤ 1 ∧
    (∀ number later, threads.stops number = .called →
      threads.session.control.stopLatch.isDone = false →
      let after := run engines threads (.stop number :: later)
      (threads.session.startup.hasComeToToken = false →
        after.session.startup.hasEngines = false) ∧
      (threads.session.startup.hasComeToToken = true → after.stops number = .returned true →
        after.session.control.isCancelled = true)) ∧
    ∀ number later, threads.stops number = .returned true →
      (run engines threads later).session.control.stage = .stopped := by
  intro threads
  have starts : threads.StartsOnce := (StartsOnce.new engines receiver).run engines acts
  have stops : threads.StopsOnce := (StopsOnce.new engines receiver).run engines acts
  refine ⟨?_, ?_, ?_, ?_⟩
  · obtain ⟨_, none⟩ | ⟨_, one⟩ := starts.launches <;> omega
  · rw [stops.passes]
    exact Bool.toNat_le _
  · intro number later called undone after
    refine ⟨fun outside => ?_, fun reached returned => ?_⟩
    · have out := shutOut_of_stop engines called undone outside
      exact StartupPhase.hasEngines_of_isShutOut
        (out.run engines (starts.perform engines (.stop number)) later).out
    · have inside : threads.session.startup.isOutside = false := by
        cases phase : threads.session.startup with
        | entered stopCame =>
            cases stopCame with
            | true => simp [stops.barred phase] at undone
            | false => rfl
        | absent => simp [phase, StartupPhase.hasComeToToken] at reached
        | launched => simp [phase, StartupPhase.hasComeToToken] at reached
        | _ => rfl
      refine (stops.run engines (.stop number :: later)).isCancelled ?_ returned
      exact run_keeps_session engines (fun session => session.startup.isOutside = false) starts
        (.stop number :: later) (fun _ _ inside move => move.leads.isInside inside) inside
  · intro number later returned
    exact ((stops.run engines later).returned number (run_returned engines later returned)).1

/-- Engines without tasks, which accept everything. -/
def idleEngines : Engines Unit Empty where
  new := ()
  installJobs _ _ := ((), .ok ())
  applyDiscovery _ _ := ((), [], .ok ())
  beginDiscovery _ := ((), none)
  discoveryIsReady cancelled _ := cancelled
  discoveryTurn cancelled _ := ⟨(), [], if cancelled then some (.ok ()) else none⟩
  beginScraping _ := ((), none)
  scrapingIsReady cancelled _ := cancelled
  scrapingTurn cancelled _ := ⟨(), [], if cancelled then some (.ok ()) else none⟩
  ready _ _ _ := []
  turn _ _ _ _ := ((), [])
  dues _ := []

/-- A stop is let through while the startup has the place of the token locked. It waits
there and then finds the token; the startup goes on with engines that are cancelled. -/
theorem stop_leaves_no_engine_locked :
    let receiver := Config.Receiver.named "receiver"
    let threads := run idleEngines (new idleEngines receiver)
      [.start 0, .start 0, .step .startup]
    let after := run idleEngines threads
      [.stop 1, .stop 1, .stop 1, .step .startup, .stop 1, .step .startup, .stop 1, .step .startup]
    threads.session.startup.hasComeToToken = true ∧ after.session.startup.hasEngines = true ∧
      after.session.control.isCancelled = true ∧ after.session.control.stage = .stopped := by
  have race := stop_leaves_no_engine idleEngines (Config.Receiver.named "receiver")
    [.start 0, .start 0, .step .startup]
  obtain ⟨_, _, stopped, _⟩ := race
  exact ⟨rfl, rfl, (stopped 1 [.stop 1, .stop 1, .step .startup, .stop 1, .step .startup, .stop 1,
    .step .startup] rfl rfl).2 rfl rfl, rfl⟩

end Threads

end ScrapeRelay.Lifecycle
