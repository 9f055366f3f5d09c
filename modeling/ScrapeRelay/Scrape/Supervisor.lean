import ScrapeRelay.Board
import ScrapeRelay.Config.Validation
import ScrapeRelay.Scrape.Loop

/-!
# Supervising scrape loops

The supervisor holds the installed job definitions and keeps one loop for each
target on the board whose job is installed. It reacts to a new value on the board
and to newly installed definitions by stopping the loops that are no longer wanted
and starting those that are missing. A loop is wanted as long as its target is on
the board and its definition is the installed one.

The supervisor is a system of tasks that take turns: the managing task and the
loops. Whether the supervisor itself is cancelled is given from outside.
-/

namespace ScrapeRelay.Scrape

/-- A target that is scraped, with the number of its loop. -/
structure Slot where
  target : Target
  edition : Nat
  number : Nat
deriving DecidableEq

inductive Managing where
  | idle
  /-- Has reacted to the board up to a version, and to the value it saw then. -/
  | active (seen : Nat) (sets : TargetSets)
  | ended
deriving DecidableEq

structure Supervisor (π : Type) where
  edition : Nat
  installed : SortedMap Installed
  /-- Whether definitions were installed since the last reaction. -/
  hasNewDefinitions : Bool
  managing : Managing
  slots : List Slot
  loops : List (ScrapeLoop π)

namespace Supervisor

variable {κ σ τ π : Type}

def new : Supervisor π := ⟨0, .empty, false, .idle, [], []⟩

def activeTargets (supervisor : Supervisor π) : List Target :=
  supervisor.slots.map Slot.target

def jobNames (supervisor : Supervisor π) : List String := supervisor.installed.keys

def definitions (edition : Nat) (config : Config.Scrape) : SortedMap Installed :=
  .ofList (config.jobs.map (fun job => (job.name, .ofJob edition config.global job)))

def install (config : Config.Scrape) (supervisor : Supervisor π) :
    Supervisor π × Except Failure Unit :=
  match config.validate with
  | .error failure => (supervisor, .error failure)
  | .ok _ =>
      let edition := supervisor.edition + 1
      ({ supervisor with
          edition := edition
          installed := definitions edition config
          hasNewDefinitions := true }, .ok ())

def wantedOf (installed : SortedMap Installed) (job : String × List TargetGroup) :
    List (Target × Installed) :=
  match installed.get? job.1 with
  | some definition => (Target.ofGroups job.1 job.2).map (fun target => (target, definition))
  | none => []

def wanted (supervisor : Supervisor π) (sets : TargetSets) : List (Target × Installed) :=
  sets.entries.flatMap (wantedOf supervisor.installed)

def isWanted (wanted : List (Target × Installed)) (slot : Slot) : Bool :=
  wanted.any (fun entry => entry.1 = slot.target && entry.2.edition = slot.edition)

def cancelLoops (dropped : List Slot) (loops : List (ScrapeLoop π)) : List (ScrapeLoop π) :=
  loops.map (fun loop =>
    if dropped.any (fun slot => slot.number = loop.number) then { loop with isCancelled := true }
    else loop)

def launch (supervisor : Supervisor π) (entry : Target × Installed) : Supervisor π :=
  if supervisor.slots.any (fun slot => slot.target = entry.1) then supervisor
  else
    let number := supervisor.loops.length
    { supervisor with
      slots := supervisor.slots ++ [⟨entry.1, entry.2.edition, number⟩]
      loops := supervisor.loops ++ [⟨number, entry.1, entry.2, false, .launched⟩] }

def keepOnly (keep : Slot → Bool) (supervisor : Supervisor π) : Supervisor π :=
  { supervisor with
    slots := supervisor.slots.filter keep
    loops := cancelLoops (supervisor.slots.filter (fun slot => !keep slot)) supervisor.loops }

def align (sets : TargetSets) (supervisor : Supervisor π) : Supervisor π :=
  let wanted := supervisor.wanted sets
  wanted.foldl launch (supervisor.keepOnly (isWanted wanted))

def releaseAll (supervisor : Supervisor π) : Supervisor π := supervisor.keepOnly (fun _ => false)

def enter (board : Board TargetSets) (supervisor : Supervisor π) :
    Except Failure (Supervisor π) :=
  match supervisor.managing with
  | .idle =>
      .ok (align board.value
        { supervisor with managing := .active board.version board.value })
  | _ => .error (.alreadyRunning .scrape)

def finish (supervisor : Supervisor π) : Supervisor π :=
  { supervisor.releaseAll with managing := .ended }

/-- A turn of the managing task, with its result once it has ended. A cancellation
comes first, then a new value on the board, then the end of the board, then newly
installed definitions. -/
def manageStep (cancelled : Bool) (board : Board TargetSets) (supervisor : Supervisor π) :
    Supervisor π × Option (Except Failure Unit) :=
  match supervisor.managing with
  | .active seen sets =>
      if cancelled then (supervisor.finish, some (.ok ()))
      else if board.version ≠ seen then
        (align board.value
          { supervisor with managing := .active board.version board.value }, none)
      else if board.isClosed then (supervisor.finish, some (.error .notificationsClosed))
      else if supervisor.hasNewDefinitions then
        (align sets { supervisor with hasNewDefinitions := false }, none)
      else (supervisor, none)
  | _ => (supervisor, none)

def mustManage (cancelled : Bool) (board : Board TargetSets) (supervisor : Supervisor π) : Bool :=
  match supervisor.managing with
  | .active seen _ =>
      cancelled || board.version ≠ seen || board.isClosed || supervisor.hasNewDefinitions
  | _ => false

def loopStep (equipment : Equipment κ σ τ π) (cancelled : Bool) (now : Nat)
    (shared : Shared κ σ) (supervisor : Supervisor π) (place : Nat) :
    Supervisor π × Shared κ σ × List Notice :=
  match supervisor.loops[place]? with
  | none => (supervisor, shared, [])
  | some loop =>
      let turn := loop.step equipment cancelled now shared
      ({ supervisor with loops := supervisor.loops.set place { loop with phase := turn.phase } },
        turn.shared, turn.notices)

def readyLoops (equipment : Equipment κ σ τ π) (cancelled : Bool) (now : Nat)
    (shared : Shared κ σ) (supervisor : Supervisor π) : List Nat :=
  (List.range supervisor.loops.length).filter (fun place =>
    supervisor.loops[place]?.any (fun loop => loop.isReady equipment cancelled now shared))

/-- The instants at which time alone gives a loop something to do. -/
def dues (equipment : Equipment κ σ τ π) (shared : Shared κ σ) (supervisor : Supervisor π) :
    List Nat :=
  supervisor.loops.filterMap (fun loop => loop.due equipment shared)

end Supervisor

end ScrapeRelay.Scrape
