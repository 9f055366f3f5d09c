import Mathlib.Data.List.Chain
import ScrapeRelay.Config.Validation
import ScrapeRelay.Proofs.Lifecycle.Shutdown

/-!
# The order of stages

The stages of a receiver have an order, from idle to stopped. Starts, the startup and the end
of a stop keep to it. The beginning of a stop marks the receiver as stopping whatever its
stage was, and the one stage behind that is stopped, which a receiver has come to by itself if
its startup refused the job definitions. So the stage goes back if and only if a stop is let
through to such a receiver (`stages_ascend_iff`).
-/

namespace ScrapeRelay.Lifecycle

/-- Whether the startup has given the receiver up. -/
def StartupPhase.hasRefused : StartupPhase → Bool
  | .refused _ | .finished .failed => true
  | _ => false

namespace StartupPhase

theorem Leads.hasRefused {before after : StartupPhase} (leads : Leads before after)
    (refused : before.hasRefused = true) : after.hasRefused = true := by
  cases leads <;> simp_all [StartupPhase.hasRefused]

theorem Leads.of_hasRefused {before after : StartupPhase} (leads : Leads before after)
    (refused : after.hasRefused = true) :
    before.hasRefused = true ∨ ∃ failure, before = .revoked failure := by
  cases leads <;> simp_all [StartupPhase.hasRefused]

theorem Leads.of_completed {before after : StartupPhase} (leads : Leads before after)
    (completed : before = .finished .completed) : after = .finished .completed := by
  subst completed
  cases leads
  rfl

end StartupPhase

/-- A step of the startup changes the stage where it gives the receiver up or completes, and
only if no stop has marked the receiver by then. -/
theorem Session.startupStep_stages {ε α : Type} (engines : Engines ε α) (session : Session ε) :
    (session.startupStep engines).control.stage = session.control.stage ∧
        ((∃ failure, session.startup = .revoked failure) → session.control.stage ≠ .starting) ∨
      (∃ failure, session.startup = .revoked failure) ∧ session.control.stage = .starting ∧
        (session.startupStep engines).control.stage = .stopped ∨
      session.startup = .settled ∧ session.control.stage = .starting ∧
        (session.startupStep engines).control.stage = .running := by
  rw [startupStep_control]
  cases phase : session.startup with
  | entered stopCame => cases stopCame <;> simp [Control.deposit]
  | revoked failure =>
      by_cases starting : session.control.stage = .starting
      · simp [Control.refuse, Control.move, starting]
      · simp [Control.refuse, Control.move, starting]
  | settled =>
      by_cases starting : session.control.stage = .starting
      · simp [Control.confirm, Control.move, starting]
      · simp [Control.confirm, Control.move, starting]
  | rejected failure => simp [Control.cancel]
  | _ => simp

namespace Threads

variable {ε α : Type} {engines : Engines ε α} {threads after : Threads ε} {number : Nat}

/-- Each late stage was brought about by the startup or by a stop. -/
structure Staged (threads : Threads ε) : Prop where
  running : threads.session.control.stage = .running →
    threads.session.startup = .finished .completed
  stopping : threads.session.control.stage = .stopping →
    ∃ number, threads.stops number = .marked ∨ threads.stops number = .withdrawn
  stopped : threads.session.control.stage = .stopped →
    threads.session.startup.hasRefused = true ∨ ∃ number, threads.stops number = .returned true
  refused : threads.session.startup.hasRefused = true →
    threads.session.control.stage = .stopping ∨ threads.session.control.stage = .stopped

namespace Staged

theorem new (engines : Engines ε α) (receiver : Config.Receiver) :
    (new engines receiver).Staged := by
  constructor <;> simp [Threads.new, Session.new, Control.new, StartupPhase.hasRefused]

/-- Where neither the stage nor the startup changes, and no stop that has marked the
receiver. -/
theorem frame (staged : threads.Staged)
    (stage : after.session.control.stage = threads.session.control.stage)
    (startup : after.session.startup = threads.session.startup)
    (stops : ∀ number, threads.stops number = .marked ∨ threads.stops number = .withdrawn ∨
      threads.stops number = .returned true → after.stops number = threads.stops number) :
    after.Staged := by
  constructor
  · rw [stage, startup]
    exact staged.running
  · rw [stage]
    intro stopping
    obtain ⟨number, call⟩ := staged.stopping stopping
    have kept := stops number (call.imp_right .inl)
    exact ⟨number, by rw [kept]; exact call⟩
  · rw [stage, startup]
    intro stopped
    obtain refused | ⟨number, returned⟩ := staged.stopped stopped
    · exact .inl refused
    · have kept := stops number (.inr (.inr returned))
      exact .inr ⟨number, kept.trans returned⟩
  · rw [stage, startup]
    exact staged.refused

theorem start (staged : threads.Staged) (once : threads.StartsOnce)
    (move : StartMove threads number after) : after.Staged := by
  cases move with
  | claim called idle =>
      have absent := (once.idle idle).1
      constructor
      · simp [setStart, setControl]
      · simp [setStart, setControl]
      · simp [setStart, setControl]
      · intro refused
        simp [setStart, setControl, absent, StartupPhase.hasRefused] at refused
  | launch claimed =>
      have absent := once.claimed number claimed
      constructor
      · intro running
        have completed := staged.running running
        simp [absent] at completed
      · exact staged.stopping
      · intro stopped
        obtain refused | returned := staged.stopped stopped
        · simp [absent, StartupPhase.hasRefused] at refused
        · exact .inr returned
      · simp [setStart, Session.launch, StartupPhase.hasRefused]
  | finish same unclaimed => exact staged.frame rfl rfl fun _ _ => rfl
  | still => exact staged

/-- A stop that goes on from a call keeps all others where they are. -/
theorem stops_of_ne {call : StopCall} {other : Nat}
    (different : threads.stops other ≠ threads.stops number) :
    Function.update threads.stops number call other = threads.stops other := by
  apply Function.update_of_ne
  intro same
  exact different (congrArg threads.stops same)

theorem stop (staged : threads.Staged) (move : StopMove threads number after) :
    after.Staged := by
  have others {call : StopCall} (called : threads.stops number = .called) (other : Nat)
      (late : threads.stops other = .marked ∨ threads.stops other = .withdrawn ∨
        threads.stops other = .returned true) :
      Function.update threads.stops number call other = threads.stops other := by
    apply stops_of_ne
    rw [called]
    obtain same | same | same := late <;> simp [same]
  cases move with
  | pass called undone => exact staged.frame rfl rfl (others called)
  | refuse called => exact staged.frame rfl rfl (others called)
  | mark passed =>
      constructor
      · simp [setStop, setControl, Control.markStopping]
      · intro _
        exact ⟨number, .inl (by simp [setStop])⟩
      · simp [setStop, setControl, Control.markStopping]
      · intro _
        exact .inl rfl
  | withdraw marked unlocked =>
      have stage : ((threads.setControl threads.session.control.withdraw).setStop number
          .withdrawn).session.control.stage = threads.session.control.stage :=
        threads.session.control.withdraw_stage
      constructor
      · rw [stage]
        exact staged.running
      · intro _
        exact ⟨number, .inr (by simp [setStop])⟩
      · rw [stage]
        intro stopped
        obtain refused | ⟨other, returned⟩ := staged.stopped stopped
        · exact .inl refused
        · have kept : Function.update threads.stops number .withdrawn other =
              threads.stops other := stops_of_ne (by simp [returned, marked])
          exact .inr ⟨other, kept.trans returned⟩
      · rw [stage]
        exact staged.refused
  | finish withdrawn =>
      constructor
      · simp [setStop, setControl, Control.markStopped]
      · simp [setStop, setControl, Control.markStopped]
      · intro _
        exact .inr ⟨number, by simp [setStop]⟩
      · intro _
        exact .inr rfl
  | still => exact staged

theorem startup (engines : Engines ε α) (staged : threads.Staged) (once : threads.StartsOnce) :
    ({ threads with session := threads.session.startupStep engines } : Threads ε).Staged := by
  have leads := threads.session.startupStep_leads engines
  obtain ⟨stage, unstarted⟩ | ⟨⟨failure, revoked⟩, starting, stage⟩ | ⟨settled, starting, stage⟩ :=
    threads.session.startupStep_stages engines
  · constructor
    · simp only [stage]
      intro running
      exact leads.of_completed (staged.running running)
    · simp only [stage]
      exact staged.stopping
    · simp only [stage]
      intro stopped
      exact (staged.stopped stopped).imp_left leads.hasRefused
    · simp only [stage]
      intro refused
      obtain before | ⟨failure, revoked⟩ := leads.of_hasRefused refused
      · exact staged.refused before
      · -- A startup that is about to give up is neither unclaimed nor completed.
        have notStarting := unstarted ⟨failure, revoked⟩
        have notIdle : threads.session.control.stage ≠ .idle := by
          intro idle
          simp [(once.idle idle).1] at revoked
        have notRunning : threads.session.control.stage ≠ .running := by
          intro running
          simp [staged.running running] at revoked
        cases stage : threads.session.control.stage <;> simp_all
  · have refused : (threads.session.startupStep engines).startup.hasRefused = true := by
      rw [threads.session.startupStep_startup engines, revoked]
      rfl
    constructor
    · simp [stage]
    · simp [stage]
    · intro _
      exact .inl refused
    · intro _
      exact .inr stage
  · have completed : (threads.session.startupStep engines).startup = .finished .completed := by
      rw [threads.session.startupStep_startup engines, settled]
    constructor
    · intro _
      exact completed
    · simp [stage]
    · simp [stage]
    · simp [completed, StartupPhase.hasRefused]

theorem perform (engines : Engines ε α) (staged : threads.Staged) (once : threads.StartsOnce)
    (act : Act ε α) : (perform engines threads act).Staged := by
  cases act with
  | start number => exact staged.start once (threads.startStep_move number)
  | dropStart number => exact staged.start once (threads.dropStart_move number)
  | stop number => exact staged.stop (threads.stopStep_move number)
  | step task =>
      by_cases startup : task = .startup
      · subst startup
        exact staged.startup engines once
      · obtain ⟨same, control, _⟩ := threads.session.step_frame engines startup
        apply staged.frame
        · rw [Threads.perform, control]
        · exact same
        · exact fun _ _ => rfl
  | cancelHost => exact staged.frame rfl rfl fun _ _ => rfl
  | wait nanos => exact staged.frame rfl rfl fun _ _ => rfl
  | outside change => exact staged.frame rfl rfl fun _ _ => rfl

theorem run (engines : Engines ε α) (staged : threads.Staged) (once : threads.StartsOnce)
    (acts : List (Act ε α)) : (run engines threads acts).Staged := by
  induction acts generalizing threads with
  | nil => exact staged
  | cons act rest ih => exact ih (staged.perform engines once act) (once.perform engines act)

end Staged

def stage (threads : Threads ε) : Stage := threads.session.control.stage

/-- Whether an act marks a receiver as stopping that had given itself up. -/
def Reopens (threads : Threads ε) (act : Act ε α) : Prop :=
  threads.session.startup.hasRefused = true ∧
    ∃ number, act = .stop number ∧ threads.stops number = .passed

/-- Of the calls to stop that were let through there is only this one. -/
theorem StopsOnce.alone (once : threads.StopsOnce) (passed : threads.stops number = .passed)
    {other : Nat} (first : (threads.stops other).isFirst = true) :
    threads.stops other = .passed := by
  have same := once.sole other number first (by rw [passed]; rfl)
  rw [same]
  exact passed

theorem Reopens.stage (engines : Engines ε α) {act : Act ε α} (reopens : threads.Reopens act)
    (once : threads.StopsOnce) (staged : threads.Staged) :
    threads.stage = .stopped ∧ (perform engines threads act).stage = .stopping := by
  obtain ⟨refused, number, rfl, passed⟩ := reopens
  constructor
  · obtain stopping | stopped := staged.refused refused
    · obtain ⟨other, late⟩ := staged.stopping stopping
      have first : (threads.stops other).isFirst = true := by
        obtain call | call := late <;> rw [call] <;> rfl
      have alone := once.alone passed first
      simp [alone] at late
    · exact stopped
  · simp [perform, stopStep, passed, Threads.stage, setStop, setControl, Control.markStopping]

theorem StartMove.ascends (move : StartMove threads number after) :
    threads.stage.rank ≤ after.stage.rank := by
  cases move with
  | claim called idle =>
      rw [Threads.stage, idle]
      exact Nat.zero_le _
  | _ => exact Nat.le_refl _

theorem StopMove.ascends (move : StopMove threads number after) (once : threads.StopsOnce)
    (staged : threads.Staged)
    (goesOn : threads.stops number = .passed → threads.session.startup.hasRefused = false) :
    threads.stage.rank ≤ after.stage.rank := by
  cases move with
  | mark passed =>
      have notStopped : threads.session.control.stage ≠ .stopped := by
        intro stopped
        obtain refused | ⟨other, returned⟩ := staged.stopped stopped
        · simp [goesOn passed] at refused
        · have first : (threads.stops other).isFirst = true := by
            rw [returned]
            rfl
          have alone := once.alone passed first
          simp [alone] at returned
      change threads.session.control.stage.rank ≤ Stage.stopping.rank
      cases stage : threads.session.control.stage with
      | stopped => exact absurd stage notStopped
      | _ => decide
  | withdraw marked unlocked =>
      have same : ((threads.setControl threads.session.control.withdraw).setStop number
          .withdrawn).stage = threads.stage := threads.session.control.withdraw_stage
      exact Nat.le_of_eq (congrArg Stage.rank same.symm)
  | finish withdrawn =>
      have stopping := (once.withdrawn number withdrawn).1
      change threads.session.control.stage.rank ≤ Stage.stopped.rank
      rw [stopping]
      decide
  | _ => exact Nat.le_refl _

theorem startupStep_ascends (engines : Engines ε α) (session : Session ε) :
    session.control.stage.rank ≤ (session.startupStep engines).control.stage.rank := by
  obtain ⟨stage, _⟩ | ⟨_, starting, stage⟩ | ⟨_, starting, stage⟩ :=
    session.startupStep_stages engines
  · exact Nat.le_of_eq (congrArg Stage.rank stage.symm)
  · rw [starting, stage]
    decide
  · rw [starting, stage]
    decide

theorem perform_ascends (engines : Engines ε α) (once : threads.StopsOnce)
    (staged : threads.Staged) {act : Act ε α} (goesOn : ¬threads.Reopens act) :
    threads.stage.rank ≤ (perform engines threads act).stage.rank := by
  cases act with
  | start number => exact (threads.startStep_move number).ascends
  | dropStart number => exact (threads.dropStart_move number).ascends
  | stop number =>
      apply (threads.stopStep_move number).ascends once staged
      intro passed
      by_contra refused
      exact goesOn ⟨by simpa using refused, number, rfl, passed⟩
  | step task =>
      by_cases startup : task = .startup
      · subst startup
        exact startupStep_ascends engines threads.session
      · have same := (threads.session.step_frame engines startup).2.1
        exact Nat.le_of_eq (congrArg (·.stage.rank) same.symm)
  | cancelHost => exact Nat.le_refl _
  | wait nanos => exact Nat.le_refl _
  | outside change => exact Nat.le_refl _

/-- The stages that a run goes through, the first one included. -/
def stages (engines : Engines ε α) (threads : Threads ε) : List (Act ε α) → List Stage
  | [] => [threads.stage]
  | act :: rest => threads.stage :: stages engines (perform engines threads act) rest

theorem head?_stages (engines : Engines ε α) (threads : Threads ε) (acts : List (Act ε α)) :
    (stages engines threads acts).head? = some threads.stage := by
  cases acts <;> rfl

/-- A run ascends if each of its steps does. -/
theorem pairwise_stages_iff {acts : List (Act ε α)} :
    (stages engines threads acts).Pairwise (fun earlier later => earlier.rank ≤ later.rank) ↔
      ∀ before act after, acts = before ++ act :: after →
        (run engines threads before).stage.rank ≤
          (perform engines (run engines threads before) act).stage.rank := by
  have transitive : IsTrans Stage (fun earlier later => earlier.rank ≤ later.rank) :=
    ⟨fun _ _ _ => Nat.le_trans⟩
  rw [← List.isChain_iff_pairwise]
  induction acts generalizing threads with
  | nil => simp [stages]
  | cons act rest ih =>
      rw [stages, List.isChain_cons]
      constructor
      · intro chain before next after split
        cases before with
        | nil =>
            obtain ⟨rfl, rfl⟩ := List.cons.inj split
            exact chain.1 _ (head?_stages ..)
        | cons first others =>
            obtain ⟨rfl, same⟩ := List.cons.inj split
            exact ih.1 chain.2 others next after same
      · intro steps
        constructor
        · intro second head
          rw [head?_stages] at head
          obtain rfl := Option.some.inj head
          exact steps [] act rest rfl
        · apply ih.2
          intro before next after split
          exact steps (act :: before) next after (congrArg (act :: ·) split)

/-- However the steps of starts, stops and tasks interleave, and whatever the engines answer:
the stage of a receiver goes through the order from idle to stopped without ever going back,
unless a stop marks a receiver as stopping whose startup had refused its job definitions. Such
a receiver goes back from stopped to stopping. -/
theorem stages_ascend_iff (engines : Engines ε α) (receiver : Config.Receiver)
    (acts : List (Act ε α)) :
    let threads := new engines receiver
    ((stages engines threads acts).Pairwise (fun earlier later => earlier.rank ≤ later.rank) ↔
      ∀ before act after, acts = before ++ act :: after →
        ¬(run engines threads before).Reopens act) ∧
    ∀ before act after, acts = before ++ act :: after →
      (run engines threads before).Reopens act →
      (run engines threads before).stage = .stopped ∧
        (perform engines (run engines threads before) act).stage = .stopping := by
  intro threads
  have stops (before : List (Act ε α)) : (run engines threads before).StopsOnce :=
    (StopsOnce.new engines receiver).run engines before
  have staged (before : List (Act ε α)) : (run engines threads before).Staged :=
    (Staged.new engines receiver).run engines (StartsOnce.new engines receiver) before
  constructor
  · rw [pairwise_stages_iff]
    constructor
    · intro ascends before act after split reopens
      obtain ⟨stopped, stopping⟩ := reopens.stage engines (stops before) (staged before)
      have rise := ascends before act after split
      rw [stopped, stopping] at rise
      exact absurd rise (by decide)
    · intro goesOn before act after split
      exact perform_ascends engines (stops before) (staged before) (goesOn before act after split)
  · intro before act after _ reopens
    exact reopens.stage engines (stops before) (staged before)

/-- Engines without tasks, which refuse job definitions that break a rule. -/
def strictEngines : Engines Unit Empty :=
  { idleEngines with installJobs := fun config _ => ((), config.validate) }

/-- A receiver with a job without a name. -/
def namelessReceiver : Config.Receiver :=
  { Config.Receiver.named "receiver" with scrape := ⟨.default, [.named ""]⟩ }

/-- A receiver that has refused its job definitions is stopped, and is stopping again once
it is told to stop. -/
theorem stopped_goes_back :
    let refused : List (Act Unit Empty) :=
      [.start 0, .start 0, .step .startup, .step .startup, .step .startup, .step .startup,
        .step .startup, .step .startup, .step .startup]
    let stop : List (Act Unit Empty) := [.stop 1, .stop 1, .stop 1, .stop 1]
    (stages strictEngines (new strictEngines namelessReceiver) (refused ++ stop)).map Stage.rank =
        [0, 1, 1, 1, 1, 1, 1, 1, 4, 4, 4, 3, 3, 4] ∧
      ¬(stages strictEngines (new strictEngines namelessReceiver) (refused ++ stop)).Pairwise
        (fun earlier later => earlier.rank ≤ later.rank) := by
  decide +kernel

end Threads

end ScrapeRelay.Lifecycle
