import Mathlib.Data.List.Induction
import ScrapeRelay.Proofs.Lifecycle.Threads
import ScrapeRelay.Proofs.Lifecycle.Turns

/-!
# One thread as an interleaving

What happens on a single thread is one of the ways in which the steps of calls and tasks
may take turns: every request and every turn is a sequence of steps without a break. So
what holds of all interleavings holds on a single thread.
-/

namespace ScrapeRelay.Lifecycle

namespace Session

variable {ε α : Type} {engines : Engines ε α} {session : Session ε}

/-- A turn of the startup does not end with the place of the token locked. -/
theorem startupTurn_holdsLock (engines : Engines ε α) (session : Session ε) :
    (session.startupTurn engines).startup.holdsLock = false := by
  have turn : session.startupTurn engines =
      startupStep engines (startupStep engines (Nat.repeat (startupStep engines) 5 session)) := rfl
  rw [turn]
  generalize Nat.repeat (startupStep engines) 5 session = before
  cases phase : ((before.startupStep engines).startupStep engines).startup with
  | entered stopCame =>
      have launched := (startupStep_entered engines phase).1
      rw [startupStep_startup] at launched
      cases earlier : before.startup with
      | entered came => cases came <;> simp [earlier] at launched
      | equipped =>
          simp only [earlier] at launched
          split at launched <;> simp at launched
      | gated =>
          simp only [earlier] at launched
          split at launched <;> simp at launched
      | _ => simp [earlier] at launched
  | _ => rfl

/-- A session lies between two turns of one thread, and there are calls left to make. -/
structure Serial (threads : Threads ε) (session : Session ε) : Prop where
  same : threads.session = session
  unlocked : session.startup.holdsLock = false
  fresh : ∃ bound, ∀ number, bound ≤ number →
    threads.starts number = .called ∧ threads.stops number = .called

namespace Serial

variable {threads : Threads ε}

theorem new (engines : Engines ε α) (receiver : Config.Receiver) :
    Serial (.new engines receiver) (new engines receiver) :=
  ⟨rfl, rfl, 0, fun _ _ => ⟨rfl, rfl⟩⟩

theorem run_steps (engines : Engines ε α) (threads : Threads ε) (task : SessionTask α)
    (count : Nat) :
    Threads.run engines threads (List.replicate count (.step task)) =
      { threads with session := Nat.repeat (step engines task) count threads.session } := by
  induction count with
  | zero => rfl
  | succ count ih =>
      rw [List.replicate_succ', Threads.run_append, ih]
      rfl

theorem steps (serial : Serial threads session) (task : SessionTask α) (count : Nat)
    (unlocked : (Nat.repeat (step engines task) count session).startup.holdsLock = false) :
    ∃ acts, Serial (Threads.run engines threads acts)
      (Nat.repeat (step engines task) count session) := by
  refine ⟨List.replicate count (.step task), ?_⟩
  rw [run_steps, serial.same]
  exact ⟨rfl, unlocked, serial.fresh⟩

/-- Calls with a number that has been used are not needed any more. -/
theorem freshAbove {threads after : Threads ε} {bound : Nat}
    (fresh : ∀ number, bound ≤ number →
      threads.starts number = .called ∧ threads.stops number = .called)
    (others : ∀ number, number ≠ bound →
      after.starts number = threads.starts number ∧ after.stops number = threads.stops number) :
    ∃ bound, ∀ number, bound ≤ number →
      after.starts number = .called ∧ after.stops number = .called := by
  refine ⟨bound + 1, fun number above => ?_⟩
  obtain ⟨starts, stops⟩ := others number (by omega)
  rw [starts, stops]
  exact fresh number (by omega)

theorem start (engines : Engines ε α) (serial : Serial threads session) :
    ∃ acts, Serial (Threads.run engines threads acts) session.start.1 := by
  obtain ⟨rfl, unlocked, bound, fresh⟩ := serial
  have called := (fresh bound (Nat.le_refl _)).1
  rw [start_eq]
  by_cases idle : threads.session.control.stage = .idle
  · refine ⟨[.start bound, .start bound], ?_, ?_, ?_⟩
    · simp [Threads.perform, Threads.startStep, called, claim, Control.claim, Control.move, idle,
        Threads.setStart, launch]
    · simp [idle, StartupPhase.holdsLock]
    · refine freshAbove fresh fun number other => ?_
      simp [Threads.perform, Threads.startStep, called, claim, Control.claim, Control.move, idle,
        Threads.setStart, other]
  · refine ⟨[.start bound], ?_, ?_, ?_⟩
    · simp [Threads.perform, Threads.startStep, called, claim, Control.claim, Control.move, idle,
        Threads.setStart]
    · simpa [idle] using unlocked
    · refine freshAbove fresh fun number other => ?_
      simp [Threads.perform, Threads.startStep, called, claim, Control.claim, Control.move, idle,
        Threads.setStart, other]

theorem stop (engines : Engines ε α) (serial : Serial threads session) :
    ∃ acts, Serial (Threads.run engines threads acts) session.stop := by
  obtain ⟨rfl, unlocked, bound, fresh⟩ := serial
  have called := (fresh bound (Nat.le_refl _)).2
  cases done : threads.session.control.stopLatch.isDone with
  | false =>
      refine ⟨List.replicate 4 (.stop bound), ?_, unlocked, ?_⟩
      · simp [List.replicate, Threads.perform, Threads.stopStep, called, Control.enterStop,
          Latch.pass, done, unlocked, Threads.setControl, Threads.setStop, Session.stop,
          Control.stop]
      · refine freshAbove fresh fun number other => ?_
        simp [List.replicate, Threads.perform, Threads.stopStep, called, Control.enterStop,
          Latch.pass, done, unlocked, Threads.setControl, Threads.setStop, other]
  | true =>
      refine ⟨[.stop bound], ?_, unlocked, ?_⟩
      · simp [Threads.perform, Threads.stopStep, called, Control.enterStop, Latch.pass, done,
          Threads.setControl, Threads.setStop, Session.stop, Control.stop]
      · refine freshAbove fresh fun number other => ?_
        simp [Threads.perform, Threads.stopStep, called, Control.enterStop, Latch.pass, done,
          Threads.setControl, Threads.setStop, other]

theorem turn (engines : Engines ε α) (serial : Serial threads session) (task : SessionTask α) :
    ∃ acts, Serial (Threads.run engines threads acts) (session.turn engines task) := by
  have once (other : task ≠ .startup) :
      ∃ acts, Serial (Threads.run engines threads acts) (session.step engines task) :=
    serial.steps task 1
      ((congrArg StartupPhase.holdsLock (session.step_frame engines other).1).trans serial.unlocked)
  cases task with
  | startup => exact serial.steps .startup stepsPerTurn (session.startupTurn_holdsLock engines)
  | scraping =>
      have other : (.scraping : SessionTask α) ≠ .startup := by simp
      rw [Session.turn, scrapingTurn]
      split
      · refine serial.steps .scraping 2 ?_
        refine (congrArg StartupPhase.holdsLock ?_).trans serial.unlocked
        exact ((session.scrapingStep engines).step_frame engines other).1.trans
          (session.step_frame engines other).1
      · exact once other
  | discovery => exact once (by simp)
  | logging => exact once (by simp)
  | engine task => exact once (by simp)

theorem perform (engines : Engines ε α) (serial : Serial threads session) (event : Event ε α) :
    ∃ acts, Serial (Threads.run engines threads acts) (perform engines session event) := by
  cases event with
  | start => exact serial.start engines
  | stop => exact serial.stop engines
  | turn task => exact serial.turn engines task
  | cancelHost =>
      exact ⟨[.cancelHost], congrArg Session.cancelHost serial.same, serial.unlocked, serial.fresh⟩
  | wait nanos =>
      refine ⟨[.wait nanos], ?_, serial.unlocked, serial.fresh⟩
      rw [← serial.same]
      rfl
  | outside change =>
      refine ⟨[.outside change], ?_, serial.unlocked, serial.fresh⟩
      rw [← serial.same]
      rfl

end Serial

/-- A history on one thread is one of the interleavings. -/
theorem run_interleaves (engines : Engines ε α) (receiver : Config.Receiver)
    (events : List (Event ε α)) :
    ∃ acts, (Threads.run engines (.new engines receiver) acts).session =
      run engines (new engines receiver) events := by
  have serial : ∃ acts, Serial (Threads.run engines (.new engines receiver) acts)
      (run engines (new engines receiver) events) := by
    induction events using List.reverseRecOn with
    | nil => exact ⟨[], .new engines receiver⟩
    | append_singleton events event ih =>
        obtain ⟨before, serial⟩ := ih
        obtain ⟨acts, after⟩ := serial.perform engines event
        refine ⟨before ++ acts, ?_⟩
        rw [Threads.run_append, run_append]
        exact after
  obtain ⟨acts, serial⟩ := serial
  exact ⟨acts, serial.same⟩

end Session

end ScrapeRelay.Lifecycle
