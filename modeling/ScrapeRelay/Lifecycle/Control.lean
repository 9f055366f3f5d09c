import ScrapeRelay.Latch

/-!
# Lifecycle control

The stage of a receiver and the token that cancels its engines. A start, the
startup it launches and a stop may run side by side; each definition here is one
indivisible step of one of them.
-/

namespace ScrapeRelay.Lifecycle

inductive Stage where
  | idle
  | starting
  | running
  | stopping
  | stopped
deriving DecidableEq

def Stage.rank : Stage → Nat
  | .idle => 0
  | .starting => 1
  | .running => 2
  | .stopping => 3
  | .stopped => 4

structure Control where
  stage : Stage
  /-- Lets one stop through. -/
  stopLatch : Latch
  /-- Whether the token lies where a stop finds it. -/
  holdsToken : Bool
  isCancelled : Bool
deriving DecidableEq

namespace Control

def new : Control := ⟨.idle, .new, false, false⟩

/-- Go from one stage to another, if the control is at the first. -/
def move (source target : Stage) (control : Control) : Control × Bool :=
  if control.stage = source then ({ control with stage := target }, true) else (control, false)

/-- Only the first start goes on. -/
def claim (control : Control) : Control × Bool := control.move .idle .starting

def stopCame (control : Control) : Bool := control.stopLatch.isDone

/-- Leave the token where a stop finds it. If a stop was seen to have come first, the
token is cancelled instead and the startup must not go on. -/
def deposit (stopCame : Bool) (control : Control) : Control :=
  if stopCame then { control with isCancelled := true } else { control with holdsToken := true }

def cancel (control : Control) : Control := { control with isCancelled := true }

def refuse (control : Control) : Control := (control.move .starting .stopped).1

/-- Complete the startup. -/
def confirm (control : Control) : Control := (control.move .starting .running).1

/-- Only the first stop goes on. -/
def enterStop (control : Control) : Control × Bool :=
  let (latch, first) := control.stopLatch.pass
  ({ control with stopLatch := latch }, first)

def markStopping (control : Control) : Control := { control with stage := .stopping }

/-- Take the token away and cancel it, if it is there. -/
def withdraw (control : Control) : Control :=
  if control.holdsToken then { control with holdsToken := false, isCancelled := true } else control

@[simp] theorem withdraw_holdsToken (control : Control) : control.withdraw.holdsToken = false := by
  unfold withdraw
  split
  · rfl
  · rename_i absent
    simpa using absent

@[simp] theorem withdraw_stage (control : Control) : control.withdraw.stage = control.stage := by
  unfold withdraw
  split <;> rfl

@[simp] theorem withdraw_stopLatch (control : Control) :
    control.withdraw.stopLatch = control.stopLatch := by
  unfold withdraw
  split <;> rfl

/-- A token that lies ready is cancelled. -/
@[simp] theorem withdraw_isCancelled (control : Control) :
    control.withdraw.isCancelled = (control.holdsToken || control.isCancelled) := by
  unfold withdraw
  split
  · rename_i present
    simp [present]
  · rename_i absent
    simp [absent]

def markStopped (control : Control) : Control := { control with stage := .stopped }

/-- A whole stop with nothing in between. -/
def stop (control : Control) : Control :=
  match control.enterStop with
  | (control, true) => control.markStopping.withdraw.markStopped
  | (control, false) => control

end Control

end ScrapeRelay.Lifecycle
