import ScrapeRelay.Rehearsal.Hub
import ScrapeRelay.Scrape.Supervisor

/-!
# Rehearsing scraping

A scrape supervisor on a virtual clock, in front of a board that the rehearsal
writes. Managing may be requested several times.
-/

namespace ScrapeRelay.Rehearsal

open ScrapeRelay.Scrape (Equipment Shared Supervisor)

structure SupervisorRehearsal (κ σ π : Type) where
  supervisor : Supervisor π
  shared : Shared κ σ
  board : Board TargetSets
  cancelled : Bool
  now : Nat
  runs : List RunState
  log : Log

inductive SupervisorTask where
  | run (place : Nat)
  | loop (place : Nat)

namespace SupervisorRehearsal

variable {κ σ τ π : Type}

def new (shared : Shared κ σ) (sets : TargetSets) : SupervisorRehearsal κ σ π :=
  ⟨.new, shared, .new sets, false, 0, [], []⟩

def install (rehearsal : SupervisorRehearsal κ σ π) (config : Config.Scrape) :
    SupervisorRehearsal κ σ π × Except Failure Unit :=
  let (supervisor, result) := rehearsal.supervisor.install config
  ({ rehearsal with supervisor := supervisor }, result)

def launch (rehearsal : SupervisorRehearsal κ σ π) : SupervisorRehearsal κ σ π :=
  { rehearsal with runs := rehearsal.runs ++ [.launched] }

def post (rehearsal : SupervisorRehearsal κ σ π) (values : List TargetSets) :
    SupervisorRehearsal κ σ π :=
  { rehearsal with board := values.foldl Board.post rehearsal.board }

def setRun (rehearsal : SupervisorRehearsal κ σ π) (place : Nat) (run : RunState) :
    SupervisorRehearsal κ σ π :=
  { rehearsal with runs := rehearsal.runs.set place run }

def runTurn (rehearsal : SupervisorRehearsal κ σ π) (place : Nat) :
    SupervisorRehearsal κ σ π :=
  match rehearsal.runs[place]? with
  | some .launched =>
      match rehearsal.supervisor.enter rehearsal.board with
      | .ok supervisor => { rehearsal.setRun place .running with supervisor := supervisor }
      | .error failure => rehearsal.setRun place (.ended (.error failure))
  | some .running =>
      let (supervisor, result) :=
        rehearsal.supervisor.manageStep rehearsal.cancelled rehearsal.board
      let managed := { rehearsal with supervisor := supervisor }
      match result with
      | some result => managed.setRun place (.ended result)
      | none => managed
  | _ => rehearsal

def turn (equipment : Equipment κ σ τ π) (task : SupervisorTask)
    (rehearsal : SupervisorRehearsal κ σ π) : SupervisorRehearsal κ σ π :=
  match task with
  | .run place => rehearsal.runTurn place
  | .loop place =>
      let (supervisor, shared, notices) := rehearsal.supervisor.loopStep equipment
        rehearsal.cancelled rehearsal.now rehearsal.shared place
      { rehearsal with
        supervisor := supervisor
        shared := shared
        log := rehearsal.log.add rehearsal.now notices }

def runIsReady (rehearsal : SupervisorRehearsal κ σ π) : RunState → Bool
  | .launched => true
  | .running => rehearsal.supervisor.mustManage rehearsal.cancelled rehearsal.board
  | .ended _ => false

def ready (equipment : Equipment κ σ τ π) (rehearsal : SupervisorRehearsal κ σ π) :
    List SupervisorTask :=
  ((List.range rehearsal.runs.length).filter (fun place =>
      rehearsal.runs[place]?.any rehearsal.runIsReady)).map SupervisorTask.run ++
    (rehearsal.supervisor.readyLoops equipment rehearsal.cancelled rehearsal.now
      rehearsal.shared).map SupervisorTask.loop

def timeline (equipment : Equipment κ σ τ π) :
    Timeline (SupervisorRehearsal κ σ π) SupervisorTask where
  now := SupervisorRehearsal.now
  wait time rehearsal := { rehearsal with now := time }
  ready := ready equipment
  turn := turn equipment
  dues rehearsal := rehearsal.supervisor.dues equipment rehearsal.shared

end SupervisorRehearsal

end ScrapeRelay.Rehearsal
