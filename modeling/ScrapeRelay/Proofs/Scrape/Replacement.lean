import ScrapeRelay.Proofs.Scrape.Workshop

/-!
# Replaced loops

When a target is dropped or its definition is replaced, the loop is only told to stop. It may be
anywhere in its cycle then, and its successor starts while it is still there. From then on it does
nothing but end (`replaced_loops_fall_silent`).
-/

namespace ScrapeRelay.Scrape

variable {κ σ τ π : Type} {equipment : Equipment κ σ τ π} {place : Nat} {loop : ScrapeLoop π}
  {sets : TargetSets}

namespace Workshop

variable {workshop : Workshop κ σ π} {incident : Incident κ σ}

/-- A turn of the loop at a place does nothing but end it. -/
structure IsSilent (equipment : Equipment κ σ τ π) (workshop : Workshop κ σ π) (place : Nat) :
    Prop where
  scrapes : (workshop.deeds equipment place).scrapes = []
  sink : (workshop.deeds equipment place).sink = []
  shared : (workshop.turn equipment place).1.shared = workshop.shared
  notices : (workshop.turn equipment place).2 = []
  ends : ∃ ended, (workshop.turn equipment place).1.supervisor.loops[place]? = some ended ∧
    ended.phase = .finished

/-- A loop that is told to stop has something to do wherever it waits. -/
theorem isReady_of_stopped (equipment : Equipment κ σ τ π)
    (stopped : workshop.stops loop = true) (unfinished : loop.phase ≠ .finished) :
    loop.isReady equipment workshop.isCancelled workshop.now workshop.shared = true := by
  rw [stops] at stopped
  cases phase : loop.phase with
  | finished => exact absurd phase unfinished
  | _ => simp [ScrapeLoop.isReady, phase, stopped]

theorem turn_of_stopped (equipment : Equipment κ σ τ π)
    (found : workshop.supervisor.loops[place]? = some loop)
    (stopped : workshop.stops loop = true) :
    ∃ supervisor : Supervisor π,
      workshop.turn equipment place = ({ workshop with supervisor := supervisor }, []) ∧
      supervisor.loops[place]? = some { loop with phase := .finished } := by
  cases phase : loop.phase with
  | finished =>
      have idle : ∀ other, workshop.supervisor.loops[place]? = some other →
          other.isReady equipment workshop.isCancelled workshop.now workshop.shared = false := by
        intro other foundOther
        obtain rfl := Option.some.inj (found.symm.trans foundOther)
        simp [ScrapeLoop.isReady, phase]
      have same : ({ loop with phase := .finished } : ScrapeLoop π) = loop := by rw [← phase]
      rw [same]
      exact ⟨workshop.supervisor, turn_of_not_ready idle, found⟩
  | _ =>
      have ready := isReady_of_stopped equipment stopped (by simp [phase])
      have step : loop.step equipment workshop.isCancelled workshop.now workshop.shared =
          ⟨.finished, workshop.shared, []⟩ := ScrapeLoop.step_of_cancelled stopped
      have turned := turn_loop found ready
      rw [perform, turn_of_ready found ready, step] at turned
      rw [turn_of_ready found ready, step]
      exact ⟨_, rfl, turned⟩

theorem isSilent_of_stopped (equipment : Equipment κ σ τ π)
    (found : workshop.supervisor.loops[place]? = some loop)
    (stopped : workshop.stops loop = true) : workshop.IsSilent equipment place := by
  obtain ⟨supervisor, turn, ended⟩ := turn_of_stopped equipment found stopped
  have foundTraced : ({ workshop with shared := workshop.shared.untouched } :
      Workshop (Traced Target κ) (Traced SinkDeed σ) π).supervisor.loops[place]? = some loop :=
    found
  obtain ⟨_, traced, _⟩ := turn_of_stopped equipment.traced foundTraced stopped
  constructor
  · rw [deeds, traced]
    rfl
  · rw [deeds, traced]
    rfl
  · rw [turn]
  · rw [turn]
  · rw [turn]
    exact ⟨_, ended, rfl⟩

/-- Whether nothing that is wanted for target sets is the target of a loop with the definition that
the loop has. The target was dropped then, or the definition was replaced. -/
def IsReplaced (workshop : Workshop κ σ π) (sets : TargetSets) (loop : ScrapeLoop π) : Prop :=
  ∀ definition, (loop.target, definition) ∈ workshop.supervisor.wanted sets →
    definition.edition ≠ loop.installed.edition

/-- Bringing the loops in line cancels one that is replaced. -/
theorem cancelled_of_replaced (equipment : Equipment κ σ τ π) (orderly : workshop.Orderly)
    (reaction : workshop.reaction? incident = some sets)
    (found : workshop.supervisor.loops[place]? = some loop)
    (replaced : workshop.IsReplaced sets loop) :
    ∃ stopped, (perform equipment workshop incident).supervisor.loops[place]? = some stopped ∧
      stopped.isCancelled = true := by
  obtain ⟨new, performed⟩ := perform_of_reaction equipment reaction
  have coherent := (orderly.perform equipment incident).coherent
  obtain ⟨stopped, foundStopped, assignment, _⟩ := perform_follows equipment incident found
  have inLine : (perform equipment workshop incident).supervisor.afresh.IsInLine sets := by
    rw [performed, Supervisor.afresh_align]
    exact Supervisor.align_isInLine _ sets
  cases cancelled : stopped.isCancelled with
  | true => exact ⟨stopped, foundStopped, cancelled⟩
  | false =>
      have wanted := Supervisor.wanted_of_active coherent inLine
        (Supervisor.getElem?_afresh foundStopped) cancelled
      have installed : (perform equipment workshop incident).supervisor.afresh.installed =
          workshop.supervisor.installed := by
        rw [performed]
        exact (Supervisor.align_frame _ sets).2.1
      rw [Supervisor.wanted_congr installed] at wanted
      obtain ⟨target, definition⟩ := Prod.mk.inj assignment
      have wanted : (loop.target, loop.installed) ∈ workshop.supervisor.wanted sets := by
        rw [← target, ← definition]
        exact wanted
      exact absurd rfl (replaced loop.installed wanted)

theorem perform_ended (equipment : Equipment κ σ τ π)
    (ended : workshop.supervisor.managing = .ended) (incident : Incident κ σ) :
    (perform equipment workshop incident).supervisor.managing = .ended := by
  have move := perform_move equipment workshop incident
  suffices ∀ after : Supervisor π, Move equipment workshop incident after →
      after.managing = .ended from this _ move
  intro after move
  cases move with
  | install config => exact (Supervisor.install_frame config workshop.supervisor).1.trans ended
  | align incident sets new reaction =>
      cases incident <;> simp [reaction?, ended] at reaction
  | finish incident result returned => rfl
  | turn place loop found ready => exact ended
  | still incident => exact ended

theorem run_ended (equipment : Equipment κ σ τ π)
    (ended : workshop.supervisor.managing = .ended) (incidents : List (Incident κ σ)) :
    (run equipment workshop incidents).supervisor.managing = .ended := by
  induction incidents generalizing workshop with
  | nil => exact ended
  | cons incident rest ih => exact ih (perform_ended equipment ended incident)

theorem Orderly.all_cancelled (orderly : workshop.Orderly)
    (ended : workshop.supervisor.managing = .ended) :
    ∀ loop ∈ workshop.supervisor.loops, loop.isCancelled = true := by
  intro loop member
  obtain ⟨place, found⟩ := List.mem_iff_getElem?.mp member
  cases cancelled : loop.isCancelled with
  | true => rfl
  | false =>
      obtain ⟨slot, held, _⟩ := orderly.slot_of_loop found cancelled
      rw [orderly.ended ended] at held
      cases held

/-- Whatever happens to a workshop in whatever order. From the reaction that drops the target of a
loop or replaces its definition, a turn of the loop neither asks the scraper nor has the sink do
anything, wherever the loop was. Each loop that is not told to stop is the one that its target has
a slot for, so no target has two, and no slot has a loop that is told to stop as long as the
supervisor is not cancelled itself. Once the managing task has returned there are no slots, and
every loop is cancelled. -/
theorem replaced_loops_fall_silent (equipment : Equipment κ σ τ π) (shared : Shared κ σ)
    (initial : TargetSets) (now : Nat) (incidents : List (Incident κ σ)) :
    let start : Workshop κ σ π := new shared initial now
    let workshop := run equipment start incidents
    (∀ reaction sets (place : Nat) loop, workshop.reaction? reaction = some sets →
      workshop.supervisor.loops[place]? = some loop → workshop.IsReplaced sets loop →
      ∀ later, (run equipment (perform equipment workshop reaction) later).IsSilent
        equipment place) ∧
    (∀ (place : Nat) loop, workshop.supervisor.loops[place]? = some loop →
      workshop.stops loop = false → ∃ slot ∈ workshop.supervisor.slots,
        slot.number = place ∧ slot.target = loop.target ∧ slot.edition = loop.installed.edition) ∧
    (workshop.supervisor.slots.map Slot.target).Nodup ∧
    (∀ (left right : Nat) leftLoop rightLoop,
      workshop.supervisor.loops[left]? = some leftLoop → workshop.stops leftLoop = false →
      workshop.supervisor.loops[right]? = some rightLoop → workshop.stops rightLoop = false →
      leftLoop.target = rightLoop.target → left = right) ∧
    (workshop.isCancelled = false → ∀ slot ∈ workshop.supervisor.slots,
      ∃ loop, workshop.supervisor.loops[slot.number]? = some loop ∧
        loop.target = slot.target ∧ workshop.stops loop = false) ∧
    ∀ before incident after result, incidents = before ++ incident :: after →
      (run equipment start before).returned? incident = some result →
      (result = .ok () ∨ result = .error .notificationsClosed) ∧
        workshop.supervisor.slots = [] ∧
        ∀ loop ∈ workshop.supervisor.loops, workshop.stops loop = true := by
  intro start workshop
  have orderly : workshop.Orderly := (Orderly.new shared initial now).run equipment incidents
  have active {loop : ScrapeLoop π} (goesOn : workshop.stops loop = false) :
      loop.isCancelled = false := (Bool.or_eq_false_iff.mp goesOn).2
  refine ⟨?_, ?_, orderly.coherent.distinct, ?_, ?_, ?_⟩
  · intro reaction sets place loop reacts found replaced later
    obtain ⟨stopped, foundStopped, cancelled⟩ :=
      cancelled_of_replaced equipment orderly reacts found replaced
    obtain ⟨last, foundLast, _, remains⟩ := run_follows equipment later foundStopped
    apply isSilent_of_stopped equipment foundLast
    rw [stops, remains cancelled, Bool.or_true]
  · intro place loop found goesOn
    exact orderly.slot_of_loop found (active goesOn)
  · intro left right leftLoop rightLoop leftFound leftOn rightFound rightOn same
    exact orderly.place_unique leftFound rightFound (active leftOn) (active rightOn) same
  · intro uncancelled slot member
    obtain ⟨loop, found, target, own⟩ := orderly.loop_of_slot member
    exact ⟨loop, found, target, by rw [stops, uncancelled, own]; rfl⟩
  · intro before incident after result split returned
    obtain ⟨results, performed⟩ := perform_of_returned equipment returned
    have ended : workshop.supervisor.managing = .ended := by
      have finished : (perform equipment (run equipment start before) incident).supervisor.managing
          = .ended := by
        rw [performed]
        rfl
      have remains := run_ended equipment finished after
      rw [← run_concat, ← run_append, List.append_assoc] at remains
      rw [← remains]
      exact congrArg (fun all => (run equipment start all).supervisor.managing) split
    have cancelled := orderly.all_cancelled ended
    exact ⟨results, orderly.ended ended, fun loop member => by
      rw [stops, cancelled loop member, Bool.or_true]⟩

end Workshop

end ScrapeRelay.Scrape
