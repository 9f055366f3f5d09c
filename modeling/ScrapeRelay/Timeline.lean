/-!
# Timelines

Tasks that take turns on a clock. At any instant the tasks that have something to
do take turns until none is left; only then the clock moves, and it moves to the
next instant at which time alone gives a task something to do.
-/

namespace ScrapeRelay

/-- A system of tasks `α` with states `ω`. Instants are nanoseconds. -/
structure Timeline (ω α : Type) where
  now : ω → Nat
  wait : Nat → ω → ω
  /-- The tasks that have something to do now. -/
  ready : ω → List α
  turn : α → ω → ω
  /-- The instants at which time alone gives a task something to do. -/
  dues : ω → List Nat

namespace Timeline

variable {ω α : Type}

def earliestAfter (now : Nat) : List Nat → Option Nat
  | [] => none
  | time :: rest =>
      match earliestAfter now rest with
      | none => if now < time then some time else none
      | some other => if now < time ∧ time < other then some time else some other

/-- What happens next before an instant, if anything does: the turn of a ready task,
or else the clock moving. -/
def next? (timeline : Timeline ω α) (limit : Option Nat) (state : ω) : Option ω :=
  match timeline.ready state with
  | task :: _ => some (timeline.turn task state)
  | [] =>
      match earliestAfter (timeline.now state) (timeline.dues state) with
      | none => none
      | some time =>
          match limit with
          | none => some (timeline.wait time state)
          | some limit => if time ≤ limit then some (timeline.wait time state) else none

/-- Let things happen until a condition holds or nothing more happens, at most a
number of times. -/
def runUntil (timeline : Timeline ω α) (limit : Option Nat) (stop : ω → Bool) :
    Nat → ω → ω
  | 0, state => state
  | fuel + 1, state =>
      if stop state then state
      else
        match timeline.next? limit state with
        | none => state
        | some state => runUntil timeline limit stop fuel state

def turnLimit : Nat := 10000000

def settle (timeline : Timeline ω α) (state : ω) : ω :=
  timeline.runUntil (some (timeline.now state)) (fun _ => false) turnLimit state

def advanceTo (timeline : Timeline ω α) (limit : Nat) (state : ω) : ω :=
  let state := timeline.runUntil (some limit) (fun _ => false) turnLimit state
  timeline.settle (timeline.wait limit state)

def runUntilDone (timeline : Timeline ω α) (done : ω → Bool) (state : ω) : ω :=
  timeline.runUntil none done turnLimit state

/-- Let time pass until a condition holds or an instant has come, which leaves the
work of that instant undone. -/
def runUntilDoneBefore (timeline : Timeline ω α) (limit : Nat) (done : ω → Bool) (state : ω) :
    ω :=
  let ended := timeline.runUntil (some limit)
    (fun state => done state || limit ≤ timeline.now state) turnLimit state
  if done ended then ended else timeline.wait limit ended

end Timeline

end ScrapeRelay
