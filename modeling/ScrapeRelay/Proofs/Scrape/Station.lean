import Mathlib.Data.List.Induction
import ScrapeRelay.Proofs.Scrape.Alignment

/-!
# A supervisor at its board

A station is a supervisor in front of its board, and a run is any sequence of events
at a station: target sets are put on the board, definitions are installed, and the
managing task and the loops take turns in any order. The supervisor is not cancelled
and the board stays open.

Two facts carry over from event to event: what the board and the definitions have come
to (`run_history`), and that the managing task still has to react whenever its loops
may be out of line (`Attentive`).
-/

namespace ScrapeRelay.Scrape

structure Station (κ σ π : Type) where
  supervisor : Supervisor π
  board : Board TargetSets
  shared : Shared κ σ

inductive Event where
  | post (sets : TargetSets)
  | install (config : Config.Scrape)
  | enter
  | manage
  | loop (now place : Nat)

namespace Event

def installs : Event → Bool
  | .install config => config.validate.isOk
  | _ => false

def setsAfter (sets : TargetSets) : Event → TargetSets
  | .post newer => newer
  | _ => sets

def configAfter (held : Option Config.Scrape) : Event → Option Config.Scrape
  | .install config => if installs (.install config) then some config else held
  | _ => held

end Event

def latestSets (initial : TargetSets) (events : List Event) : TargetSets :=
  events.foldl Event.setsAfter initial

def latestConfig (events : List Event) : Option Config.Scrape :=
  events.foldl Event.configAfter none

def acceptances (events : List Event) : Nat := events.countP Event.installs

namespace Managing

def isActive : Managing → Bool
  | .active _ _ => true
  | _ => false

end Managing

namespace Station

variable {κ σ τ π : Type} {equipment : Equipment κ σ τ π} {shared : Shared κ σ}
  {initial : TargetSets} {station : Station κ σ π}

def new (shared : Shared κ σ) (initial : TargetSets) : Station κ σ π :=
  ⟨.new, .new initial, shared⟩

def perform (equipment : Equipment κ σ τ π) (station : Station κ σ π) : Event → Station κ σ π
  | .post sets => { station with board := station.board.post sets }
  | .install config => { station with supervisor := (station.supervisor.install config).1 }
  | .enter =>
      match station.supervisor.enter station.board with
      | .ok supervisor => { station with supervisor := supervisor }
      | .error _ => station
  | .manage =>
      { station with supervisor := (station.supervisor.manageStep false station.board).1 }
  | .loop now place =>
      let (supervisor, shared, _) :=
        station.supervisor.loopStep equipment false now station.shared place
      { station with supervisor := supervisor, shared := shared }

def run (equipment : Equipment κ σ τ π) (station : Station κ σ π) (events : List Event) :
    Station κ σ π :=
  events.foldl (perform equipment) station

@[simp] theorem run_nil : run equipment station [] = station := rfl

@[simp] theorem run_cons (event : Event) (events : List Event) :
    run equipment station (event :: events) =
      run equipment (perform equipment station event) events := rfl

theorem run_append (before after : List Event) :
    run equipment station (before ++ after) =
      run equipment (run equipment station before) after :=
  List.foldl_append

theorem run_concat (events : List Event) (event : Event) :
    run equipment station (events ++ [event]) =
      perform equipment (run equipment station events) event := by
  rw [run_append, run_cons, run_nil]

/-- Whether the managing task runs and has nothing to react to. -/
def isAtRest (station : Station κ σ π) : Bool :=
  station.supervisor.managing.isActive && !station.supervisor.mustManage false station.board

/-- The target sets with which an event brings the loops in line, if it does. -/
def observed? (station : Station κ σ π) : Event → Option TargetSets
  | .enter =>
      match station.supervisor.managing with
      | .idle => some station.board.value
      | _ => none
  | .manage =>
      match station.supervisor.managing with
      | .active seen sets =>
          if station.board.version ≠ seen then some station.board.value
          else if station.board.isClosed then none
          else if station.supervisor.hasNewDefinitions then some sets
          else none
      | _ => none
  | _ => none

/-- An event that brings the loops in line does so with the definitions as they are. -/
theorem perform_observed (equipment : Equipment κ σ τ π) {event : Event} {sets : TargetSets}
    (observed : station.observed? event = some sets) :
    ∃ new, perform equipment station event =
      { station with supervisor := Supervisor.align sets { station.supervisor with
        hasNewDefinitions := new
        managing := .active station.board.version sets } } := by
  cases event with
  | enter =>
      cases managing : station.supervisor.managing with
      | idle =>
          simp only [observed?, managing, Option.some.injEq] at observed
          subst observed
          exact ⟨station.supervisor.hasNewDefinitions, by
            simp only [perform, Supervisor.enter, managing]⟩
      | active seen held => simp [observed?, managing] at observed
      | ended => simp [observed?, managing] at observed
  | manage =>
      cases managing : station.supervisor.managing with
      | active seen held =>
          simp only [observed?, managing] at observed
          split at observed
          · rename_i newer
            obtain rfl := Option.some.inj observed
            exact ⟨station.supervisor.hasNewDefinitions, by
              simp [perform, Supervisor.manageStep, managing, newer]⟩
          · rename_i current
            split at observed
            · simp at observed
            · rename_i isOpen
              split at observed
              · rename_i changed
                obtain rfl := Option.some.inj observed
                have current : station.board.version = seen := by simpa using current
                refine ⟨false, ?_⟩
                simp [perform, Supervisor.manageStep, managing, current, isOpen, changed]
              · simp at observed
      | idle => simp [observed?, managing] at observed
      | ended => simp [observed?, managing] at observed
  | post sets => simp [observed?] at observed
  | install config => simp [observed?] at observed
  | loop now place => simp [observed?] at observed

/-- A start or a turn of the managing task that does not bring the loops in line does
nothing. -/
theorem perform_unobserved {event : Event} (isOpen : station.board.isClosed = false)
    (managing : event = .enter ∨ event = .manage) (observed : station.observed? event = none) :
    perform equipment station event = station := by
  obtain rfl | rfl := managing
  · cases managing : station.supervisor.managing with
    | idle => simp [observed?, managing] at observed
    | active seen held => simp [perform, Supervisor.enter, managing]
    | ended => simp [perform, Supervisor.enter, managing]
  · cases managing : station.supervisor.managing with
    | active seen held =>
        simp only [observed?, managing, isOpen] at observed
        split at observed
        · simp at observed
        · rename_i current
          split at observed
          · contradiction
          · split at observed
            · simp at observed
            · rename_i unchanged
              simp only [Supervisor.manageStep, perform, managing, if_neg current, isOpen,
                if_neg unchanged, Bool.false_eq_true, if_false]
    | idle => simp [perform, Supervisor.manageStep, managing]
    | ended => simp [perform, Supervisor.manageStep, managing]

theorem perform_install {config : Config.Scrape} (valid : config.validate = .ok ()) :
    perform equipment station (.install config) =
      { station with supervisor := { station.supervisor with
        edition := station.supervisor.edition + 1
        installed := Supervisor.definitions (station.supervisor.edition + 1) config
        hasNewDefinitions := true } } := by
  simp [perform, Supervisor.install, valid]

theorem perform_install_invalid {config : Config.Scrape} {failure : Failure}
    (invalid : config.validate = .error failure) :
    perform equipment station (.install config) = station := by
  simp [perform, Supervisor.install, invalid]

theorem perform_loop (equipment : Equipment κ σ τ π) (station : Station κ σ π) (now place : Nat) :
    ∃ loops shared, perform equipment station (.loop now place) =
      { station with
        supervisor := { station.supervisor with loops := loops }
        shared := shared } := by
  obtain ⟨loops, turned⟩ := Supervisor.loopStep_frame equipment false now place station.shared
    station.supervisor
  exact ⟨loops, _, by rw [← turned]; rfl⟩

theorem perform_managing (equipment : Equipment κ σ τ π) {event : Event}
    (isOpen : station.board.isClosed = false)
    (managing : event = .enter ∨ event = .manage) :
    (perform equipment station event).board = station.board ∧
      (perform equipment station event).supervisor.edition = station.supervisor.edition ∧
      (perform equipment station event).supervisor.installed = station.supervisor.installed := by
  cases observed : station.observed? event with
  | none =>
      rw [perform_unobserved isOpen managing observed]
      exact ⟨rfl, rfl, rfl⟩
  | some sets =>
      obtain ⟨new, performed⟩ := perform_observed equipment observed
      rw [performed]
      obtain ⟨edition, installed, _⟩ := Supervisor.align_frame { station.supervisor with
        hasNewDefinitions := new
        managing := .active station.board.version sets } sets
      exact ⟨rfl, edition, installed⟩

/-- The managing task goes on once it has been started. -/
theorem perform_isActive (equipment : Equipment κ σ τ π) {event : Event}
    (isOpen : station.board.isClosed = false)
    (managing : event = .enter ∧ station.supervisor.managing = .idle ∨
      event = .manage ∧ station.supervisor.managing.isActive = true) :
    (perform equipment station event).supervisor.managing.isActive = true := by
  cases observed : station.observed? event with
  | some sets =>
      obtain ⟨new, performed⟩ := perform_observed equipment observed
      rw [performed, (Supervisor.align_frame { station.supervisor with
        hasNewDefinitions := new
        managing := .active station.board.version sets } sets).2.2.2]
      rfl
  | none =>
      obtain ⟨rfl, idle⟩ | ⟨rfl, active⟩ := managing
      · simp [observed?, idle] at observed
      · rw [perform_unobserved isOpen (.inr rfl) observed]
        exact active

/-- The board shows what was posted last, and what is installed was accepted last. -/
structure Recalls (initial : TargetSets) (events : List Event) (station : Station κ σ π) :
    Prop where
  isOpen : station.board.isClosed = false
  value : station.board.value = latestSets initial events
  edition : station.supervisor.edition = acceptances events
  valid : ∀ config, latestConfig events = some config → config.validate = .ok ()
  installed : station.supervisor.installed =
    ((latestConfig events).map (Supervisor.definitions (acceptances events))).getD .empty

theorem latestSets_concat (events : List Event) (event : Event) :
    latestSets initial (events ++ [event]) = event.setsAfter (latestSets initial events) := by
  simp [latestSets]

theorem latestConfig_concat (events : List Event) (event : Event) :
    latestConfig (events ++ [event]) = event.configAfter (latestConfig events) := by
  simp [latestConfig]

theorem acceptances_concat (events : List Event) (event : Event) :
    acceptances (events ++ [event]) = acceptances events + if event.installs then 1 else 0 := by
  simp [acceptances, List.countP_append, List.countP_cons]

theorem Recalls.perform {events : List Event} (recalls : station.Recalls initial events)
    (event : Event) : (perform equipment station event).Recalls initial (events ++ [event]) := by
  have unaffected {after : Station κ σ π} (sets : ∀ held, event.setsAfter held = held)
      (config : ∀ held, event.configAfter held = held) (rejected : event.installs = false)
      (board : after.board = station.board)
      (edition : after.supervisor.edition = station.supervisor.edition)
      (installed : after.supervisor.installed = station.supervisor.installed) :
      after.Recalls initial (events ++ [event]) := by
    refine ⟨?_, ?_, ?_, ?_, ?_⟩ <;>
      simp only [latestSets_concat, latestConfig_concat, acceptances_concat, sets, config,
        rejected, board, edition, installed]
    · exact recalls.isOpen
    · exact recalls.value
    · exact recalls.edition
    · exact recalls.valid
    · exact recalls.installed
  cases event with
  | post sets =>
      have posted : station.board.post sets =
          { station.board with value := sets, version := station.board.version + 1 } := by
        simp [Board.post, recalls.isOpen]
      refine ⟨?_, ?_, ?_, ?_, ?_⟩
      · simp [Station.perform, posted, recalls.isOpen]
      · simp [Station.perform, posted, latestSets_concat, Event.setsAfter]
      · simpa [Station.perform, acceptances_concat, Event.installs] using recalls.edition
      · simpa [latestConfig_concat, Event.configAfter] using recalls.valid
      · simpa [Station.perform, latestConfig_concat, acceptances_concat, Event.configAfter,
          Event.installs] using recalls.installed
  | install config =>
      cases validated : config.validate with
      | error failure =>
          have rejected : (Event.install config).installs = false := by
            simp [Event.installs, validated, Except.isOk, Except.toBool]
          rw [perform_install_invalid validated]
          exact unaffected (fun _ => rfl) (fun _ => by simp [Event.configAfter, rejected])
            rejected rfl rfl rfl
      | ok _ =>
          have accepted : (Event.install config).installs = true := by
            simp [Event.installs, validated, Except.isOk, Except.toBool]
          rw [perform_install validated]
          refine ⟨recalls.isOpen, ?_, ?_, ?_, ?_⟩ <;>
            simp only [latestSets_concat, latestConfig_concat, acceptances_concat,
              Event.setsAfter, Event.configAfter, accepted, if_true]
          · exact recalls.value
          · rw [recalls.edition]
          · rintro _ ⟨⟩
            exact validated
          · rw [recalls.edition]
            rfl
  | enter =>
      obtain ⟨board, edition, installed⟩ :=
        perform_managing equipment recalls.isOpen (.inl rfl)
      exact unaffected (fun _ => rfl) (fun _ => rfl) rfl board edition installed
  | manage =>
      obtain ⟨board, edition, installed⟩ :=
        perform_managing equipment recalls.isOpen (.inr rfl)
      exact unaffected (fun _ => rfl) (fun _ => rfl) rfl board edition installed
  | loop now place =>
      obtain ⟨loops, shared, turned⟩ := perform_loop equipment station now place
      rw [turned]
      exact unaffected (fun _ => rfl) (fun _ => rfl) rfl rfl rfl rfl

theorem run_recalls (equipment : Equipment κ σ τ π) (shared : Shared κ σ) (initial : TargetSets)
    (events : List Event) : (run equipment (new shared initial) events).Recalls initial events := by
  induction events using List.reverseRecOn with
  | nil => exact ⟨rfl, rfl, rfl, by simp [latestConfig], rfl⟩
  | append_singleton events event ih =>
      rw [run_concat]
      exact ih.perform event

/-- The managing task has seen the board as it is, or as it was, and its loops are in
line with what it saw unless definitions were installed since then. -/
structure Attentive (station : Station κ σ π) : Prop where
  isOpen : station.board.isClosed = false
  coherent : station.supervisor.Coherent
  seen : ∀ seen sets, station.supervisor.managing = .active seen sets →
    seen ≤ station.board.version ∧ (seen = station.board.version → sets = station.board.value)
  inLine : ∀ seen sets, station.supervisor.managing = .active seen sets →
    station.supervisor.hasNewDefinitions = false → station.supervisor.IsInLine sets

theorem attentive_new (shared : Shared κ σ) (initial : TargetSets) :
    (new shared initial : Station κ σ π).Attentive := by
  refine ⟨rfl, Supervisor.coherent_new, ?_, ?_⟩ <;> simp [new, Supervisor.new]

namespace Attentive

theorem observed_value (attentive : station.Attentive) {event : Event} {sets : TargetSets}
    (observed : station.observed? event = some sets) : sets = station.board.value := by
  cases event with
  | enter =>
      simp only [observed?] at observed
      split at observed
      · exact (Option.some.inj observed).symm
      · simp at observed
  | manage =>
      simp only [observed?, attentive.isOpen] at observed
      split at observed
      · rename_i seen held managing
        split at observed
        · exact (Option.some.inj observed).symm
        · rename_i current
          have current : station.board.version = seen := by simpa using current
          split at observed
          · contradiction
          · split at observed
            · obtain rfl := Option.some.inj observed
              exact (attentive.seen seen held managing).2 current.symm
            · simp at observed
      · simp at observed
  | post sets => simp [observed?] at observed
  | install config => simp [observed?] at observed
  | loop now place => simp [observed?] at observed

theorem perform_managing (equipment : Equipment κ σ τ π) (attentive : station.Attentive)
    {event : Event}
    (managing : event = .enter ∨ event = .manage) :
    (perform equipment station event).Attentive := by
  cases observed : station.observed? event with
  | none =>
      rw [perform_unobserved attentive.isOpen managing observed]
      exact attentive
  | some sets =>
      obtain ⟨new, performed⟩ := perform_observed equipment observed
      have active := (Supervisor.align_frame { station.supervisor with
        hasNewDefinitions := new
        managing := .active station.board.version sets } sets).2.2.2
      rw [performed]
      refine ⟨attentive.isOpen, Supervisor.align_coherent (attentive.coherent.managed _ _) sets,
        ?_, ?_⟩
      · intro seen held current
        obtain ⟨rfl, rfl⟩ := Managing.active.inj (active.symm.trans current)
        exact ⟨Nat.le_refl _, fun _ => attentive.observed_value observed⟩
      · intro seen held current _
        obtain ⟨rfl, rfl⟩ := Managing.active.inj (active.symm.trans current)
        exact Supervisor.align_isInLine _ sets

theorem perform (equipment : Equipment κ σ τ π) (attentive : station.Attentive) (event : Event) :
    (perform equipment station event).Attentive := by
  cases event with
  | post sets =>
      have posted : station.board.post sets =
          { station.board with value := sets, version := station.board.version + 1 } := by
        simp [Board.post, attentive.isOpen]
      rw [Station.perform, posted]
      refine ⟨attentive.isOpen, attentive.coherent, ?_, attentive.inLine⟩
      intro seen held active
      have older := (attentive.seen seen held active).1
      exact ⟨by simp only; omega, fun same => by simp only at same; omega⟩
  | install config =>
      refine ⟨attentive.isOpen, Supervisor.install_coherent attentive.coherent, ?_, ?_⟩
      · cases validated : config.validate with
        | error failure =>
            rw [perform_install_invalid validated]
            exact attentive.seen
        | ok _ =>
            rw [perform_install validated]
            exact attentive.seen
      · cases validated : config.validate with
        | error failure =>
            rw [perform_install_invalid validated]
            exact attentive.inLine
        | ok _ =>
            rw [perform_install validated]
            simp
  | enter => exact attentive.perform_managing equipment (.inl rfl)
  | manage => exact attentive.perform_managing equipment (.inr rfl)
  | loop now place =>
      have coherent := Supervisor.loopStep_coherent equipment now place station.shared
        attentive.coherent
      obtain ⟨loops, shared, turned⟩ := perform_loop equipment station now place
      refine ⟨attentive.isOpen, coherent, ?_, ?_⟩ <;> rw [turned]
      · exact attentive.seen
      · exact attentive.inLine

theorem run (equipment : Equipment κ σ τ π) (attentive : station.Attentive)
    (events : List Event) : (run equipment station events).Attentive := by
  induction events generalizing station with
  | nil => exact attentive
  | cons event rest ih => exact ih (attentive.perform equipment event)

end Attentive

theorem run_attentive (equipment : Equipment κ σ τ π) (shared : Shared κ σ)
    (initial : TargetSets) (events : List Event) :
    (run equipment (new shared initial) events).Attentive :=
  (attentive_new shared initial).run equipment events

theorem Attentive.rest (attentive : station.Attentive) (rest : station.isAtRest = true) :
    station.supervisor.IsInLine station.board.value := by
  simp only [isAtRest, Bool.and_eq_true, Bool.not_eq_true', Supervisor.mustManage] at rest
  cases managing : station.supervisor.managing with
  | active seen sets =>
      simp only [managing, Bool.false_or, Bool.or_eq_false_iff] at rest
      obtain ⟨_, ⟨current, _⟩, unchanged⟩ := rest
      have current : station.board.version = seen := by simpa using current
      rw [← (attentive.seen seen sets managing).2 current.symm]
      exact attentive.inLine seen sets managing unchanged
  | idle => simp [managing, Managing.isActive] at rest
  | ended => simp [managing, Managing.isActive] at rest

end Station

end ScrapeRelay.Scrape
