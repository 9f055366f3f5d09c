import ScrapeRelay.Proofs.Lifecycle.Threads

/-!
# One startup, one stop

Of all calls to start one at most launches the startup, and of all calls to stop one at
most is let through, in whatever order they take their steps. `StartsOnce` and
`StopsOnce` say so, with what each step needs to keep it true.
-/

namespace ScrapeRelay.Lifecycle

namespace Threads

variable {ε α : Type} {engines : Engines ε α} {threads after : Threads ε} {number : Nat}

/-- No more than one of several calls is the first. -/
def Sole {β : Type} (isFirst : β → Bool) (calls : Nat → β) : Prop :=
  ∀ left right, isFirst (calls left) = true → isFirst (calls right) = true → left = right

theorem Sole.update {β : Type} {isFirst : β → Bool} {calls : Nat → β} {call : β}
    (sole : Sole isFirst calls)
    (earned : isFirst call = true →
      isFirst (calls number) = true ∨ ∀ other, isFirst (calls other) = false) :
    Sole isFirst (Function.update calls number call) := by
  intro left right leftFirst rightFirst
  simp only [Function.update_apply] at leftFirst rightFirst
  have alone {other : Nat} (first : isFirst call = true)
      (otherFirst : isFirst (calls other) = true) : number = other := by
    obtain held | none := earned first
    · exact sole number other held otherFirst
    · simp [none other] at otherFirst
  split at leftFirst <;> split at rightFirst
  · rename_i leftSame rightSame
    exact leftSame.trans rightSame.symm
  · rename_i leftSame _
    exact leftSame.trans (alone leftFirst rightFirst)
  · rename_i rightSame
    exact (rightSame.trans (alone rightFirst leftFirst)).symm
  · exact sole left right leftFirst rightFirst

/-- No more than one call launches the startup, and it does so as long as there is none. -/
structure StartsOnce (threads : Threads ε) : Prop where
  sole : Sole StartCall.isFirst threads.starts
  idle : threads.session.control.stage = .idle →
    threads.session.startup = .absent ∧ ∀ number, (threads.starts number).isFirst = false
  claimed : ∀ number, threads.starts number = .claimed → threads.session.startup = .absent
  launches : threads.session.startup = .absent ∧ threads.launches = 0 ∨
    threads.session.startup ≠ .absent ∧ threads.launches = 1

namespace StartsOnce

theorem new (engines : Engines ε α) (receiver : Config.Receiver) :
    (new engines receiver).StartsOnce where
  sole _ _ first := by simp [Threads.new, StartCall.isFirst] at first
  idle _ := ⟨rfl, fun _ => rfl⟩
  claimed _ _ := rfl
  launches := .inl ⟨rfl, rfl⟩

theorem notIdle (once : threads.StartsOnce) (first : (threads.starts number).isFirst = true) :
    threads.session.control.stage ≠ .idle := by
  intro idle
  simp [(once.idle idle).2 number] at first

theorem start (once : threads.StartsOnce) (move : StartMove threads number after) :
    after.StartsOnce := by
  cases move with
  | claim called idle =>
      obtain ⟨absent, none⟩ := once.idle idle
      exact ⟨once.sole.update fun _ => .inr none,
        fun again => by simp [setStart, setControl] at again, fun _ _ => absent, once.launches⟩
  | launch claimed =>
      have first : (threads.starts number).isFirst = true := by rw [claimed]; rfl
      have absent := once.claimed number claimed
      have launches : threads.launches = 0 := by
        obtain ⟨_, none⟩ | ⟨present, _⟩ := once.launches
        · exact none
        · exact absurd absent present
      refine ⟨once.sole.update fun _ => .inl first,
        fun idle => absurd idle (once.notIdle first), ?_,
        .inr ⟨by simp [setStart, Session.launch], by simp [setStart, launches]⟩⟩
      intro other otherClaimed
      simp only [setStart, Function.update_apply] at otherClaimed
      split at otherClaimed
      · simp at otherClaimed
      · rename_i different
        have otherFirst : (threads.starts other).isFirst = true := by rw [otherClaimed]; rfl
        exact absurd (once.sole other number otherFirst first) different
  | @finish call same unclaimed =>
      have earned : (StartCall.returned call.isFirst).isFirst = true →
          (threads.starts number).isFirst = true := by
        rw [same]
        cases call.isFirst <;> simp [StartCall.isFirst]
      refine ⟨once.sole.update fun first => .inl (earned first), fun idle => ?_, ?_, once.launches⟩
      · obtain ⟨absent, none⟩ := once.idle idle
        refine ⟨absent, fun other => ?_⟩
        simp only [setStart, Function.update_apply]
        split
        · by_contra first
          exact once.notIdle (earned (by simpa using first)) idle
        · exact none other
      · intro other otherClaimed
        simp only [setStart, Function.update_apply] at otherClaimed
        split at otherClaimed
        · simp at otherClaimed
        · exact once.claimed other otherClaimed
  | still => exact once

theorem frame (once : threads.StartsOnce) (starts : after.starts = threads.starts)
    (launches : after.launches = threads.launches)
    (startup : after.session.startup = .absent ↔ threads.session.startup = .absent)
    (stage : after.session.control.stage = .idle → threads.session.control.stage = .idle) :
    after.StartsOnce := by
  refine ⟨?_, ?_, ?_, ?_⟩
  · rw [starts]
    exact once.sole
  · rw [starts, startup]
    exact fun idle => once.idle (stage idle)
  · rw [starts, startup]
    exact once.claimed
  · rw [launches, ne_eq, startup]
    exact once.launches

theorem stop (once : threads.StartsOnce) (move : StopMove threads number after) :
    after.StartsOnce := by
  cases move with
  | pass called undone => exact once.frame rfl rfl Iff.rfl id
  | refuse called => exact once.frame rfl rfl Iff.rfl id
  | mark passed =>
      exact once.frame rfl rfl Iff.rfl (by simp [setStop, setControl, Control.markStopping])
  | withdraw marked unlocked =>
      refine once.frame rfl rfl Iff.rfl fun idle => ?_
      simp only [setStop, setControl, Control.withdraw] at idle
      split at idle <;> exact idle
  | finish withdrawn =>
      exact once.frame rfl rfl Iff.rfl (by simp [setStop, setControl, Control.markStopped])
  | still => exact once

theorem perform (engines : Engines ε α) (once : threads.StartsOnce) (act : Act ε α) :
    (perform engines threads act).StartsOnce := by
  cases act with
  | start number => exact once.start (threads.startStep_move number)
  | dropStart number => exact once.start (threads.dropStart_move number)
  | stop number => exact once.stop (threads.stopStep_move number)
  | step task =>
      by_cases startup : task = .startup
      · subst startup
        refine once.frame rfl rfl (threads.session.startupStep_absent_iff engines) fun idle => ?_
        obtain same | ⟨_, notIdle⟩ := threads.session.startupStep_stage engines
        · exact same.symm.trans idle
        · exact absurd idle notIdle
      · obtain ⟨same, control, _⟩ := threads.session.step_frame engines startup
        refine once.frame rfl rfl ?_ ?_
        · rw [Threads.perform, same]
        · rw [Threads.perform, control]
          exact id
  | cancelHost => exact once.frame rfl rfl Iff.rfl id
  | wait nanos => exact once.frame rfl rfl Iff.rfl id
  | outside change => exact once.frame rfl rfl Iff.rfl id

theorem run (engines : Engines ε α) (once : threads.StartsOnce) (acts : List (Act ε α)) :
    (run engines threads acts).StartsOnce :=
  run_keeps (fun _ act once => once.perform engines act) acts once

end StartsOnce

/-- The token was taken away, and the startup is not about to leave it. -/
def Withdrawn (session : Session ε) : Prop :=
  session.control.holdsToken = false ∧ session.startup ≠ .entered false

/-- No more than one stop is let through. Before it returns, it takes away what token the
startup has left, and from then on the startup does not leave one. -/
structure StopsOnce (threads : Threads ε) : Prop where
  sole : Sole StopCall.isFirst threads.stops
  passes : threads.passes = threads.session.control.stopLatch.isDone.toNat
  undone : threads.session.control.stopLatch.isDone = false →
    ∀ number, (threads.stops number).isFirst = false
  marked : ∀ number, threads.stops number = .marked → threads.session.control.stage = .stopping
  withdrawn : ∀ number, threads.stops number = .withdrawn →
    threads.session.control.stage = .stopping ∧ Withdrawn threads.session
  returned : ∀ number, threads.stops number = .returned true →
    threads.session.control.stage = .stopped ∧ Withdrawn threads.session
  barred : threads.session.startup = .entered true →
    threads.session.control.stopLatch.isDone = true
  token : threads.session.startup.isOutside = false → threads.session.startup = .entered false ∨
    threads.session.control.holdsToken = true ∨ threads.session.control.isCancelled = true

namespace StopsOnce

theorem new (engines : Engines ε α) (receiver : Config.Receiver) :
    (new engines receiver).StopsOnce where
  sole _ _ first := by simp [Threads.new, StopCall.isFirst] at first
  passes := rfl
  undone _ _ := rfl
  marked _ call := by simp [Threads.new] at call
  withdrawn _ call := by simp [Threads.new] at call
  returned _ call := by simp [Threads.new] at call
  barred entered := by simp [Threads.new, Session.new] at entered
  token inside := by simp [Threads.new, Session.new, StartupPhase.isOutside] at inside

theorem isDone (once : threads.StopsOnce)
    (first : (threads.stops number).isFirst = true) :
    threads.session.control.stopLatch.isDone = true := by
  by_contra undone
  simp [once.undone (by simpa using undone) number] at first

/-- What leaves the calls to stop alone, and does not move stages set by a stop. -/
theorem frame (once : threads.StopsOnce)
    (stops : after.stops = threads.stops) (passes : after.passes = threads.passes)
    (latch : after.session.control.stopLatch = threads.session.control.stopLatch)
    (stage : after.session.control.stage = threads.session.control.stage ∨
      threads.session.control.stage = .idle ∨ threads.session.control.stage = .starting)
    (withdrawn : threads.session.control.stopLatch.isDone = true → Withdrawn threads.session →
      Withdrawn after.session)
    (barred : after.session.startup = .entered true →
      threads.session.control.stopLatch.isDone = true)
    (token : after.session.startup.isOutside = false → after.session.startup = .entered false ∨
      after.session.control.holdsToken = true ∨ after.session.control.isCancelled = true) :
    after.StopsOnce := by
  have kept {value : Stage} (held : threads.session.control.stage = value)
      (notIdle : value ≠ .idle) (notStarting : value ≠ .starting) :
      after.session.control.stage = value := by
    obtain same | idle | starting := stage
    · exact same.trans held
    · exact absurd (held.symm.trans idle) notIdle
    · exact absurd (held.symm.trans starting) notStarting
  refine ⟨?_, ?_, ?_, ?_, ?_, ?_, ?_, token⟩
  · rw [stops]
    exact once.sole
  · rw [passes, latch]
    exact once.passes
  · rw [stops, latch]
    exact once.undone
  · rw [stops]
    exact fun number call => kept (once.marked number call) (by simp) (by simp)
  · rw [stops]
    intro number call
    obtain ⟨stopping, held⟩ := once.withdrawn number call
    exact ⟨kept stopping (by simp) (by simp), withdrawn (once.isDone (by rw [call]; rfl)) held⟩
  · rw [stops]
    intro number call
    obtain ⟨stopped, held⟩ := once.returned number call
    exact ⟨kept stopped (by simp) (by simp), withdrawn (once.isDone (by rw [call]; rfl)) held⟩
  · rw [latch]
    exact barred

theorem start (once : threads.StopsOnce) (move : StartMove threads number after) :
    after.StopsOnce := by
  cases move with
  | claim called idle =>
      exact once.frame rfl rfl rfl (.inr (.inl idle)) (fun _ => id) once.barred once.token
  | launch claimed =>
      exact once.frame rfl rfl rfl (.inl rfl)
        (fun _ held => ⟨held.1, by simp [setStart, Session.launch]⟩)
        (by simp [setStart, Session.launch])
        (by simp [setStart, Session.launch, StartupPhase.isOutside])
  | finish same unclaimed =>
      exact once.frame rfl rfl rfl (.inl rfl) (fun _ => id) once.barred once.token
  | still => exact once

theorem startup (engines : Engines ε α) (once : threads.StopsOnce) :
    ({ threads with session := threads.session.startupStep engines } : Threads ε).StopsOnce := by
  obtain ⟨latch, holds, keeps, cancelled⟩ := threads.session.startupStep_token engines
  have stage := threads.session.startupStep_stage engines
  have goesOn := threads.session.startupStep_startup engines
  refine once.frame rfl rfl latch (stage.imp id fun left => .inr left.1) ?_ ?_ ?_
  · intro done ⟨gone, notEntered⟩
    refine ⟨?_, ?_⟩
    · by_contra held
      obtain held | entered := holds (by simpa using held)
      · simp [gone] at held
      · exact notEntered entered
    · intro entered
      have missed := (Session.startupStep_entered engines entered).2
      simp [Control.stopCame, done] at missed
  · exact fun entered => (Session.startupStep_entered engines entered).2
  · intro inside
    have forward (held : threads.session.control.holdsToken = true ∨
        threads.session.control.isCancelled = true) :
        (threads.session.startupStep engines).control.holdsToken = true ∨
          (threads.session.startupStep engines).control.isCancelled = true :=
      held.imp keeps cancelled
    cases phase : threads.session.startup with
    | absent => simp [goesOn, phase, StartupPhase.isOutside] at inside
    | launched =>
        simp only [goesOn, phase] at inside ⊢
        cases came : threads.session.control.stopCame with
        | true => simp [came, StartupPhase.isOutside] at inside
        | false => exact .inl rfl
    | entered stopCame =>
        right
        rw [threads.session.startupStep_control engines, phase]
        cases stopCame <;> simp [Control.deposit]
    | _ =>
        have held := once.token (by rw [phase]; rfl)
        simp only [phase, reduceCtorEq, false_or] at held
        exact .inr (forward held)

theorem turnAway (once : threads.StopsOnce) (number : Nat) :
    (threads.setStop number (.returned false)).StopsOnce := by
  have kept {value : StopCall} {other : Nat} (first : value.isFirst = true)
      (held : Function.update threads.stops number (.returned false) other = value) :
      threads.stops other = value := by
    rw [Function.update_apply] at held
    split at held
    · simp [← held, StopCall.isFirst] at first
    · exact held
  refine ⟨once.sole.update (by simp [StopCall.isFirst]), once.passes, ?_, ?_, ?_, ?_, once.barred,
    once.token⟩
  · intro undone other
    simp only [setStop, Function.update_apply]
    split
    · rfl
    · exact once.undone undone other
  · exact fun other held => once.marked other (kept rfl held)
  · exact fun other held => once.withdrawn other (kept rfl held)
  · exact fun other held => once.returned other (kept rfl held)

theorem advance (once : threads.StopsOnce) {passes : Nat} {call : StopCall}
    {control : Control} (alone : ∀ other, other ≠ number → (threads.stops other).isFirst = false)
    (done : control.stopLatch.isDone = true) (counted : passes = 1)
    (marked : call = .marked → control.stage = .stopping)
    (withdrawn : call = .withdrawn → control.stage = .stopping ∧
      control.holdsToken = false ∧ threads.session.startup ≠ .entered false)
    (returned : call = .returned true → control.stage = .stopped ∧
      control.holdsToken = false ∧ threads.session.startup ≠ .entered false)
    (token : threads.session.control.holdsToken = true ∨
      threads.session.control.isCancelled = true →
      control.holdsToken = true ∨ control.isCancelled = true) :
    ({ threads.setControl control with passes := passes }.setStop number call).StopsOnce := by
  have sole : Sole StopCall.isFirst (Function.update threads.stops number call) := by
    intro left right leftFirst rightFirst
    have owner {other : Nat}
        (first : (Function.update threads.stops number call other).isFirst = true) :
        other = number := by
      by_contra different
      rw [Function.update_of_ne different, alone other different] at first
      simp at first
    exact (owner leftFirst).trans (owner rightFirst).symm
  have owned {value : StopCall} {other : Nat} (first : value.isFirst = true)
      (held : Function.update threads.stops number call other = value) : call = value := by
    by_cases same : other = number
    · rw [same, Function.update_self] at held
      exact held
    · rw [Function.update_of_ne same] at held
      simp [← held, alone other same] at first
  refine ⟨sole, ?_, ?_, ?_, ?_, ?_, fun _ => done, ?_⟩
  · simp [setStop, setControl, done, counted]
  · simp [setStop, setControl, done]
  · exact fun other held => marked (owned rfl held)
  · exact fun other held => withdrawn (owned rfl held)
  · exact fun other held => returned (owned rfl held)
  · intro inside
    exact (once.token inside).imp id token

theorem stop (once : threads.StopsOnce) (move : StopMove threads number after) :
    after.StopsOnce := by
  have others (first : (threads.stops number).isFirst = true) :
      ∀ other, other ≠ number → (threads.stops other).isFirst = false := by
    intro other different
    by_contra otherFirst
    exact different (once.sole other number (by simpa using otherFirst) first)
  have counted (first : (threads.stops number).isFirst = true) : threads.passes = 1 := by
    rw [once.passes, once.isDone first]
    rfl
  cases move with
  | pass called undone =>
      refine once.advance (fun other _ => once.undone undone other) rfl ?_ (by simp) (by simp)
        (by simp) id
      simp [once.passes, undone]
  | refuse called => exact once.turnAway number
  | mark passed =>
      have first : (threads.stops number).isFirst = true := by rw [passed]; rfl
      exact once.advance (others first) (once.isDone first) (counted first) (fun _ => rfl)
        (by simp) (by simp) id
  | withdraw marked unlocked =>
      have first : (threads.stops number).isFirst = true := by rw [marked]; rfl
      refine once.advance (others first) (by simpa using once.isDone first) (counted first)
        (by simp) (fun _ => ⟨by simpa using once.marked number marked, by simp, ?_⟩) (by simp)
        (by simp)
      intro entered
      simp [entered, StartupPhase.holdsLock] at unlocked
  | finish withdrawn =>
      have first : (threads.stops number).isFirst = true := by rw [withdrawn]; rfl
      exact once.advance (others first) (once.isDone first) (counted first) (by simp) (by simp)
        (fun _ => ⟨rfl, (once.withdrawn number withdrawn).2⟩) id
  | still => exact once

theorem perform (engines : Engines ε α) (once : threads.StopsOnce) (act : Act ε α) :
    (perform engines threads act).StopsOnce := by
  cases act with
  | start number => exact once.start (threads.startStep_move number)
  | dropStart number => exact once.start (threads.dropStart_move number)
  | stop number => exact once.stop (threads.stopStep_move number)
  | step task =>
      by_cases startup : task = .startup
      · subst startup
        exact once.startup engines
      · obtain ⟨same, control, _⟩ := threads.session.step_frame engines startup
        refine once.frame rfl rfl ?_ (.inl ?_) ?_ ?_ ?_ <;>
          simp only [Threads.perform, Withdrawn, same, control]
        · exact fun _ => id
        · exact once.barred
        · exact once.token
  | cancelHost => exact once.frame rfl rfl rfl (.inl rfl) (fun _ => id) once.barred once.token
  | wait nanos => exact once.frame rfl rfl rfl (.inl rfl) (fun _ => id) once.barred once.token
  | outside change => exact once.frame rfl rfl rfl (.inl rfl) (fun _ => id) once.barred once.token

theorem run (engines : Engines ε α) (once : threads.StopsOnce) (acts : List (Act ε α)) :
    (run engines threads acts).StopsOnce :=
  run_keeps (fun _ act once => once.perform engines act) acts once

end StopsOnce

/-- How a session changes while calls and tasks go on. A call changes the control only,
but for the call that launches the startup. -/
inductive Move (engines : Engines ε α) (session : Session ε) : Session ε → Prop where
  | control (control : Control) : Move engines session { session with control := control }
  | launch (absent : session.startup = .absent) : Move engines session session.launch
  | step (task : SessionTask α) : Move engines session (session.step engines task)
  | cancelHost : Move engines session session.cancelHost
  | wait (nanos : Nat) : Move engines session { session with now := session.now + nanos }
  | outside (change : ε → ε) :
      Move engines session { session with engines := change session.engines }

theorem StartMove.session (engines : Engines ε α) (move : StartMove threads number after)
    (once : threads.StartsOnce) : Move engines threads.session after.session := by
  cases move with
  | launch claimed => exact .launch (once.claimed number claimed)
  | _ => exact .control _

theorem StopMove.session (engines : Engines ε α) (move : StopMove threads number after) :
    Move engines threads.session after.session := by
  cases move <;> exact .control _

theorem perform_move (engines : Engines ε α) (once : threads.StartsOnce) (act : Act ε α) :
    Move engines threads.session (perform engines threads act).session := by
  cases act with
  | start number => exact (threads.startStep_move number).session engines once
  | dropStart number => exact (threads.dropStart_move number).session engines once
  | stop number => exact (threads.stopStep_move number).session engines
  | step task => exact .step task
  | cancelHost => exact .cancelHost
  | wait nanos => exact .wait nanos
  | outside change => exact .outside change

/-- What every move of a session keeps is kept by runs. -/
theorem run_keeps_session (engines : Engines ε α) (holds : Session ε → Prop)
    (once : threads.StartsOnce) (acts : List (Act ε α))
    (kept : ∀ session after, holds session → Move engines session after → holds after)
    (first : holds threads.session) : holds (run engines threads acts).session := by
  induction acts generalizing threads with
  | nil => exact first
  | cons act rest ih =>
      exact ih (once.perform engines act) (kept _ _ first (perform_move engines once act))

/-- The startup goes on by its own steps alone. -/
theorem Move.startup {session next : Session ε} (move : Move engines session next) :
    next.startup = session.startup ∨
      session.startup = .absent ∧ next.startup = .launched ∨
      next.startup = (session.startupStep engines).startup := by
  cases move with
  | launch absent => exact .inr (.inl ⟨absent, rfl⟩)
  | step task =>
      by_cases startup : task = .startup
      · subst startup
        exact .inr (.inr rfl)
      · exact .inl (session.step_frame engines startup).1
  | _ => exact .inl rfl

theorem Move.leads {session next : Session ε} (move : Move engines session next) :
    session.startup.Leads next.startup := by
  obtain same | ⟨absent, launched⟩ | stepped := move.startup
  · rw [same]
    exact .stay _
  · rw [absent, launched]
    exact .launch
  · rw [stepped]
    exact session.startupStep_leads engines

end Threads

end ScrapeRelay.Lifecycle
