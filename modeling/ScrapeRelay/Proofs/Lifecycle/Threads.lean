import Mathlib.Logic.Function.Basic
import ScrapeRelay.Proofs.Lifecycle.Session

/-!
# Calls and tasks side by side

Any number of calls to start and to stop a receiver run beside the tasks of its
session. Each goes on in single steps, which take turns in any order; a run is any
sequence of such steps. The calls to start may be dropped wherever they wait, time
passes, the host may cancel everything, and the engines may change from outside.

A step of a call has few effects (`StartMove`, `StopMove`), and fewer on the session
(`Move`).
-/

namespace ScrapeRelay.Lifecycle

inductive StartCall where
  | called
  /-- Was the first, and has yet to launch the startup. -/
  | claimed
  /-- Waits for the startup that it launched. -/
  | waiting
  /-- Has returned, or was dropped by its caller. -/
  | returned (isFirst : Bool)
deriving DecidableEq

inductive StopCall where
  | called
  /-- Was let through. -/
  | passed
  /-- Has marked the receiver as stopping. -/
  | marked
  | withdrawn
  /-- Has returned. -/
  | returned (isFirst : Bool)
deriving DecidableEq

/-- Whether a call was the first to start the receiver. -/
def StartCall.isFirst : StartCall → Bool
  | .claimed | .waiting | .returned true => true
  | _ => false

/-- Whether a call was let through to stop the receiver. -/
def StopCall.isFirst : StopCall → Bool
  | .passed | .marked | .withdrawn | .returned true => true
  | _ => false

/-- A session with all calls, by their numbers. -/
structure Threads (ε : Type) where
  session : Session ε
  starts : Nat → StartCall
  stops : Nat → StopCall
  launches : Nat
  passes : Nat

inductive Act (ε α : Type) where
  | start (number : Nat)
  | dropStart (number : Nat)
  | stop (number : Nat)
  | step (task : SessionTask α)
  | cancelHost
  | wait (nanos : Nat)
  | outside (change : ε → ε)

namespace Threads

variable {ε α : Type} {engines : Engines ε α} {threads : Threads ε}

def new (engines : Engines ε α) (receiver : Config.Receiver) : Threads ε :=
  ⟨.new engines receiver, fun _ => .called, fun _ => .called, 0, 0⟩

def setStart (number : Nat) (call : StartCall) (threads : Threads ε) : Threads ε :=
  { threads with starts := Function.update threads.starts number call }

def setStop (number : Nat) (call : StopCall) (threads : Threads ε) : Threads ε :=
  { threads with stops := Function.update threads.stops number call }

def setControl (control : Control) (threads : Threads ε) : Threads ε :=
  { threads with session := { threads.session with control := control } }

def startStep (number : Nat) (threads : Threads ε) : Threads ε :=
  match threads.starts number with
  | .called =>
      match threads.session.claim with
      | (session, true) => { threads with session := session }.setStart number .claimed
      | (session, false) => { threads with session := session }.setStart number (.returned false)
  | .claimed =>
      { threads with session := threads.session.launch, launches := threads.launches + 1 }.setStart
        number .waiting
  | .waiting =>
      if threads.session.isStarted then threads.setStart number (.returned true) else threads
  | .returned _ => threads

/-- A call to start is dropped where it waits. -/
def dropStart (number : Nat) (threads : Threads ε) : Threads ε :=
  match threads.starts number with
  | .called => threads.setStart number (.returned false)
  | .waiting => threads.setStart number (.returned true)
  | _ => threads

/-- A step of a call to stop. The token cannot be withdrawn while its place is locked. -/
def stopStep (number : Nat) (threads : Threads ε) : Threads ε :=
  match threads.stops number with
  | .called =>
      match threads.session.control.enterStop with
      | (control, true) =>
          { threads.setControl control with passes := threads.passes + 1 }.setStop number .passed
      | (control, false) => (threads.setControl control).setStop number (.returned false)
  | .passed => (threads.setControl threads.session.control.markStopping).setStop number .marked
  | .marked =>
      if threads.session.startup.holdsLock then threads
      else (threads.setControl threads.session.control.withdraw).setStop number .withdrawn
  | .withdrawn =>
      (threads.setControl threads.session.control.markStopped).setStop number (.returned true)
  | .returned _ => threads

def perform (engines : Engines ε α) (threads : Threads ε) : Act ε α → Threads ε
  | .start number => threads.startStep number
  | .dropStart number => threads.dropStart number
  | .stop number => threads.stopStep number
  | .step task => { threads with session := threads.session.step engines task }
  | .cancelHost => { threads with session := threads.session.cancelHost }
  | .wait nanos =>
      { threads with session := { threads.session with now := threads.session.now + nanos } }
  | .outside change =>
      { threads with
        session := { threads.session with engines := change threads.session.engines } }

def run (engines : Engines ε α) (threads : Threads ε) (acts : List (Act ε α)) : Threads ε :=
  acts.foldl (perform engines) threads

@[simp] theorem run_nil : run engines threads [] = threads := rfl

@[simp] theorem run_cons (act : Act ε α) (acts : List (Act ε α)) :
    run engines threads (act :: acts) = run engines (perform engines threads act) acts := rfl

theorem run_append (before after : List (Act ε α)) :
    run engines threads (before ++ after) = run engines (run engines threads before) after :=
  List.foldl_append

theorem run_keeps {holds : Threads ε → Prop}
    (kept : ∀ threads act, holds threads → holds (perform engines threads act))
    (acts : List (Act ε α)) (first : holds threads) : holds (run engines threads acts) := by
  induction acts generalizing threads with
  | nil => exact first
  | cons act rest ih => exact ih (kept threads act first)

inductive StartMove (threads : Threads ε) (number : Nat) : Threads ε → Prop where
  | claim (called : threads.starts number = .called)
      (idle : threads.session.control.stage = .idle) :
      StartMove threads number
        ((threads.setControl { threads.session.control with stage := .starting }).setStart number
          .claimed)
  | launch (claimed : threads.starts number = .claimed) :
      StartMove threads number
        ({ threads with
            session := threads.session.launch
            launches := threads.launches + 1 }.setStart number .waiting)
  /-- A call returns or is dropped. -/
  | finish {call : StartCall} (same : threads.starts number = call) (unclaimed : call ≠ .claimed) :
      StartMove threads number (threads.setStart number (.returned call.isFirst))
  | still : StartMove threads number threads

theorem startStep_move (number : Nat) (threads : Threads ε) :
    StartMove threads number (threads.startStep number) := by
  unfold startStep
  cases call : threads.starts number with
  | called =>
      by_cases idle : threads.session.control.stage = .idle
      · simp only [Session.claim, Control.claim, Control.move, if_pos idle]
        exact .claim call idle
      · simp only [Session.claim, Control.claim, Control.move, if_neg idle]
        exact .finish call (by simp)
  | claimed => exact .launch call
  | waiting =>
      dsimp only
      split
      · exact .finish call (by simp)
      · exact .still
  | returned first => exact .still

theorem dropStart_move (number : Nat) (threads : Threads ε) :
    StartMove threads number (threads.dropStart number) := by
  unfold dropStart
  cases call : threads.starts number with
  | called => exact .finish call (by simp)
  | waiting => exact .finish call (by simp)
  | claimed => exact .still
  | returned first => exact .still

inductive StopMove (threads : Threads ε) (number : Nat) : Threads ε → Prop where
  | pass (called : threads.stops number = .called)
      (undone : threads.session.control.stopLatch.isDone = false) :
      StopMove threads number
        ({ threads.setControl { threads.session.control with stopLatch := ⟨true⟩ } with
            passes := threads.passes + 1 }.setStop number .passed)
  | refuse (called : threads.stops number = .called) :
      StopMove threads number (threads.setStop number (.returned false))
  | mark (passed : threads.stops number = .passed) :
      StopMove threads number
        ((threads.setControl threads.session.control.markStopping).setStop number .marked)
  | withdraw (marked : threads.stops number = .marked)
      (unlocked : threads.session.startup.holdsLock = false) :
      StopMove threads number
        ((threads.setControl threads.session.control.withdraw).setStop number .withdrawn)
  | finish (withdrawn : threads.stops number = .withdrawn) :
      StopMove threads number
        ((threads.setControl threads.session.control.markStopped).setStop number (.returned true))
  | still : StopMove threads number threads

theorem stopStep_move (number : Nat) (threads : Threads ε) :
    StopMove threads number (threads.stopStep number) := by
  unfold stopStep
  cases call : threads.stops number with
  | called =>
      simp only [Control.enterStop, Latch.pass]
      cases done : threads.session.control.stopLatch.isDone with
      | true =>
          have unchanged : { threads.session.control with stopLatch := ⟨true⟩ } =
              threads.session.control := by
            rw [← done]
          rw [unchanged]
          exact .refuse call
      | false => exact .pass call done
  | passed => exact .mark call
  | marked =>
      dsimp only
      split
      · exact .still
      · rename_i unlocked
        exact .withdraw call (by simpa using unlocked)
  | withdrawn => exact .finish call
  | returned first => exact .still

end Threads

end ScrapeRelay.Lifecycle
