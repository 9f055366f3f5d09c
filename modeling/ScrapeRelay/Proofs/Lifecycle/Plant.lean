import ScrapeRelay.Lifecycle.Plant
import ScrapeRelay.Proofs.Lifecycle.Session
import ScrapeRelay.Proofs.Scrape.Loop

/-!
# What a plant shows

A plant acts on the world through its scraper and its sink, and shows target sets on its
board (`output`). Only the merging task and the loops do anything of this, and neither
does once it is cancelled.
-/

namespace ScrapeRelay

namespace Discovery.Hub

theorem send_board (hub : Hub) (update : Update) : (hub.send update).1.board = hub.board := by
  unfold send
  split <;> rfl

theorem apply_board (factory : Factory) (configs : List (String × Config.Discovery))
    (hub : Hub) : (hub.apply factory configs).1.board = hub.board :=
  send_board hub _

theorem enter_board {hub entered : Hub} (done : hub.enter = .ok entered) :
    entered.board = hub.board := by
  unfold enter at done
  split at done
  · cases done
    rfl
  · simp at done

theorem mergeStep_board (hub : Hub) : (hub.mergeStep true).board = hub.board := by
  unfold mergeStep
  split <;> rfl

theorem providerStep_board (hub : Hub) (place : Nat) :
    (hub.providerStep place).1.board = hub.board := by
  unfold providerStep
  split
  · rfl
  · rename_i task _
    split
    · cases task.discoverer.opening with
      | none => cases task.discoverer.failure <;> rfl
      | some groups => cases task.discoverer.failure <;> exact send_board hub _
    · rfl

end Discovery.Hub

namespace Lifecycle

open ScrapeRelay.Discovery (Hub Registry)
open ScrapeRelay.Scrape (Equipment Shared Supervisor)

namespace Plant

variable {κ σ τ π : Type}

/-- The states of scraper and sink, and the board. -/
def output (plant : Plant κ σ π) : Shared κ σ × Board TargetSets := (plant.shared, plant.hub.board)

/-- A plant that shows the same, and has no loops if there were none. -/
structure Quiet (before after : Plant κ σ π) : Prop where
  output : after.output = before.output
  loops : before.supervisor.loops = [] → after.supervisor.loops = []

namespace Quiet

variable {before after last : Plant κ σ π}

theorem refl (plant : Plant κ σ π) : Quiet plant plant := ⟨rfl, id⟩

theorem ofEq (same : after = before) : Quiet before after := by
  rw [same]
  exact refl before

theorem trans (first : Quiet before after) (second : Quiet after last) : Quiet before last :=
  ⟨second.output.trans first.output, fun none => second.loops (first.loops none)⟩

theorem ofHub {plant : Plant κ σ π} {hub : Hub} (board : hub.board = plant.hub.board) :
    Quiet plant { plant with hub := hub } :=
  ⟨congrArg (Prod.mk plant.shared) board, id⟩

end Quiet

variable (registry : Registry) (equipment : Equipment κ σ τ π) (shared : Shared κ σ)

theorem quiet_installJobs (config : Config.Scrape) (plant : Plant κ σ π) :
    Quiet plant ((engines registry equipment shared).installJobs config plant).1 := by
  refine ⟨rfl, fun none => ?_⟩
  simp only [engines, Supervisor.install]
  split <;> exact none

theorem quiet_applyDiscovery (configs : SortedMap Config.Discovery) (plant : Plant κ σ π) :
    Quiet plant ((engines registry equipment shared).applyDiscovery configs plant).1 :=
  .ofHub (Hub.apply_board registry.build configs.entries plant.hub)

theorem quiet_beginDiscovery (plant : Plant κ σ π) :
    Quiet plant ((engines registry equipment shared).beginDiscovery plant).1 := by
  simp only [engines]
  split
  · rename_i entered
    exact .ofHub (Hub.enter_board entered)
  · exact .refl plant

/-- The merging task does not show anything once it is cancelled. -/
theorem quiet_discoveryTurn (plant : Plant κ σ π) :
    Quiet plant ((engines registry equipment shared).discoveryTurn true plant).engines :=
  .ofHub (Hub.mergeStep_board plant.hub)

theorem output_beginScraping (plant : Plant κ σ π) :
    ((engines registry equipment shared).beginScraping plant).1.output = plant.output := by
  simp only [engines]
  split <;> rfl

/-- The loops do not do anything once they are cancelled, or as long as there are none. -/
theorem quiet_turn {cancelled : Bool} {plant : Plant κ σ π}
    (still : cancelled = true ∨ plant.supervisor.loops = []) (now : Nat) (task : PlantTask) :
    Quiet plant ((engines registry equipment shared).turn cancelled now task plant).1 := by
  cases task with
  | provider place => exact .ofHub (Hub.providerStep_board plant.hub place)
  | loop place =>
      simp only [engines, Supervisor.loopStep]
      cases held : plant.supervisor.loops[place]? with
      | none => exact .refl plant
      | some loop =>
          obtain rfl | none := still
          · have stopped : loop.step equipment true now plant.shared =
                ⟨.finished, plant.shared, []⟩ := Scrape.ScrapeLoop.step_of_cancelled rfl
            refine ⟨?_, fun none => by simp [none] at held⟩
            dsimp only
            rw [stopped]
            rfl
          · simp [none] at held

end Plant

end Lifecycle

end ScrapeRelay
