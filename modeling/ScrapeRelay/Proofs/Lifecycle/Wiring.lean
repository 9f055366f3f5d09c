import ScrapeRelay.Proofs.Discovery.Providers
import ScrapeRelay.Proofs.Lifecycle.Uninterrupted
import ScrapeRelay.Proofs.Scrape.Station

/-!
# Hub and supervisor in a receiver

In a receiver that is left alone the hub and the supervisor are as far as the tasks that run
them: the supervisor has the definitions that were installed and attends to the hub's
board, and the hub has the providers of the settings that were applied (`Wired`). Every
step of a task keeps this.
-/

namespace ScrapeRelay.Lifecycle

open ScrapeRelay.Discovery (Hub Registry Update)
open ScrapeRelay.Scrape (Equipment Shared Station Supervisor)

namespace Plant

variable {κ σ τ π : Type} {plant changed : Plant κ σ π}

def station (plant : Plant κ σ π) : Station κ σ π :=
  ⟨plant.supervisor, plant.hub.board, plant.shared⟩

/-- A supervisor attends to its board whatever is put there. -/
theorem attentive_of_board (equipment : Equipment κ σ τ π) (attentive : plant.station.Attentive)
    (supervisor : changed.supervisor = plant.supervisor)
    (board : changed.hub.board = plant.hub.board ∨
      ∃ sets, changed.hub.board = plant.hub.board.post sets) : changed.station.Attentive := by
  obtain same | ⟨sets, posted⟩ := board
  · constructor <;> simp only [station, supervisor, same]
    · exact attentive.isOpen
    · exact attentive.coherent
    · exact attentive.seen
    · exact attentive.inLine
  · obtain ⟨isOpen, coherent, seen, inLine⟩ := attentive.perform equipment (.post sets)
    constructor <;> simp only [station, supervisor, posted]
    · exact isOpen
    · exact coherent
    · exact seen
    · exact inLine

/-- Job definitions that keep the rules are accepted. -/
theorem installJobs_ok (registry : Registry) (equipment : Equipment κ σ τ π)
    (shared : Shared κ σ) {config : Config.Scrape} (valid : config.validate = .ok ())
    (plant : Plant κ σ π) :
    ((engines registry equipment shared).installJobs config plant).2 = .ok () := by
  simp [engines, Supervisor.install, valid]

end Plant

/-- What a task that runs an engine has made of it. -/
def RunPhase.Shows (idle active : Prop) : RunPhase → Prop
  | .active => active
  | .ended => False
  | _ => idle

theorem RunPhase.Shows.of_waiting {phase : RunPhase} {idle active : Prop}
    (waits : phase.hasBegun = false) (holds : idle) : phase.Shows idle active := by
  cases phase with
  | active => simp [hasBegun] at waits
  | ended => simp [hasBegun] at waits
  | _ => exact holds

theorem RunPhase.Shows.idle {phase : RunPhase} {idle active : Prop}
    (shows : phase.Shows idle active) (waits : phase.hasBegun = false) : idle := by
  cases phase with
  | active => simp [hasBegun] at waits
  | ended => exact shows.elim
  | _ => exact shows

theorem RunPhase.Shows.active {phase : RunPhase} {idle active : Prop}
    (shows : phase.Shows idle active) (begun : phase.hasBegun = true) :
    phase = .active ∧ active := by
  cases phase with
  | active => exact ⟨rfl, shows⟩
  | ended => exact shows.elim
  | _ => simp [hasBegun] at begun

namespace Session

variable {κ σ τ π : Type} {registry : Registry} {receiver : Config.Receiver}
  {config : Config.Scrape}
  {session after : Session (Plant κ σ π)} {sent later : List Update}

/-- The hub and the supervisor of a receiver that is left alone, and what its providers have
sent. -/
structure Wired (registry : Registry) (config : Config.Scrape) (sent : List Update)
    (session : Session (Plant κ σ π)) : Prop where
  hub : session.engines.hub.Supplied registry config.discoveries session.startup.hasApplied sent
  attentive : session.engines.station.Attentive
  installed : session.startup.hasInstalled = true →
    ∃ edition, session.engines.supervisor.installed = Supervisor.definitions edition config
  discovery : session.discovery.Shows (session.engines.hub.merging = .idle)
    (∃ merge, session.engines.hub.merging = .active merge)
  scraping : session.scraping.Shows (session.engines.supervisor.managing = .idle)
    (session.engines.supervisor.managing.isActive = true)

namespace Wired

theorem new (registry : Registry) (equipment : Equipment κ σ τ π) (shared : Shared κ σ)
    (config : Config.Scrape) (receiver : Config.Receiver) :
    (new (Plant.engines registry equipment shared) receiver).Wired registry config [] :=
  ⟨.new, Station.attentive_new shared .empty, by simp [Session.new, StartupPhase.hasInstalled,
    StartupPhase.hasEngines], rfl, rfl⟩

/-- Where the engines are left alone. -/
theorem relabel (wired : session.Wired registry config sent)
    (engines : after.engines = session.engines)
    (applied : after.startup.hasApplied = session.startup.hasApplied)
    (installed : after.startup.hasInstalled = session.startup.hasInstalled)
    (discovery : after.discovery = session.discovery ∨
      after.discovery.hasBegun = false ∧ session.discovery.hasBegun = false)
    (scraping : after.scraping = session.scraping ∨
      after.scraping.hasBegun = false ∧ session.scraping.hasBegun = false) :
    after.Wired registry config sent := by
  constructor <;> rw [engines]
  · rw [applied]
    exact wired.hub
  · exact wired.attentive
  · rw [installed]
    exact wired.installed
  · obtain same | ⟨still, waits⟩ := discovery
    · rw [same]
      exact wired.discovery
    · exact .of_waiting still (wired.discovery.idle waits)
  · obtain same | ⟨still, waits⟩ := scraping
    · rw [same]
      exact wired.scraping
    · exact .of_waiting still (wired.scraping.idle waits)

/-- Where only the hub is changed. -/
theorem supply (equipment : Equipment κ σ τ π) (wired : session.Wired registry config sent)
    (hub : after.engines.hub.Supplied registry config.discoveries after.startup.hasApplied later)
    (supervisor : after.engines.supervisor = session.engines.supervisor)
    (board : after.engines.hub.board = session.engines.hub.board ∨
      ∃ sets, after.engines.hub.board = session.engines.hub.board.post sets)
    (installed : after.startup.hasInstalled = true → session.startup.hasInstalled = true)
    (discovery : after.discovery.Shows (after.engines.hub.merging = .idle)
      (∃ merge, after.engines.hub.merging = .active merge))
    (scraping : after.scraping = session.scraping) :
    after.Wired registry config later := by
  refine ⟨hub, Plant.attentive_of_board equipment wired.attentive supervisor board, ?_, discovery,
    ?_⟩
  · rw [supervisor]
    exact fun late => wired.installed (installed late)
  · rw [scraping, supervisor]
    exact wired.scraping

/-- Where only the supervisor takes a step. -/
theorem supervise (equipment : Equipment κ σ τ π) (event : Scrape.Event)
    (wired : session.Wired registry config sent)
    (hub : after.engines.hub = session.engines.hub)
    (supervisor : after.engines.supervisor =
      (session.engines.station.perform equipment event).supervisor)
    (board : (session.engines.station.perform equipment event).board = session.engines.hub.board)
    (applied : after.startup.hasApplied = session.startup.hasApplied)
    (installed : after.startup.hasInstalled = true →
      ∃ edition, after.engines.supervisor.installed = Supervisor.definitions edition config)
    (discovery : after.discovery = session.discovery)
    (scraping : after.scraping.Shows (after.engines.supervisor.managing = .idle)
      (after.engines.supervisor.managing.isActive = true)) :
    after.Wired registry config sent := by
  refine ⟨?_, ?_, installed, ?_, scraping⟩
  · rw [hub, applied]
    exact wired.hub
  · obtain ⟨isOpen, coherent, seen, inLine⟩ := wired.attentive.perform equipment event
    rw [board] at isOpen seen
    constructor <;> simp only [Plant.station, supervisor, hub]
    · exact isOpen
    · exact coherent
    · exact seen
    · exact inLine
  · rw [hub, discovery]
    exact wired.discovery

theorem discoveryTurn (equipment : Equipment κ σ τ π) (shared : Shared κ σ)
    (wired : session.Wired registry config sent)
    (uncancelled : session.isCancelled = false) :
    (session.discoveryTurn (Plant.engines registry equipment shared)).Wired registry config
      sent := by
  have shows := wired.discovery
  cases phase : session.discovery with
  | awake =>
      rw [phase] at shows
      have idle : session.engines.hub.merging = .idle := shows
      have turned : session.discoveryTurn (Plant.engines registry equipment shared) =
          { session with
            discovery := .active
            engines := { session.engines with
              hub := { session.engines.hub with merging := .active .new } }
            calls := session.calls ++ [(session.now, .runDiscovery)] } := by
        simp [Session.discoveryTurn, phase, beginDiscovery, record, Plant.engines, Hub.enter, idle,
          endDiscovery]
      rw [turned]
      exact wired.supply equipment (wired.hub.enter idle) rfl (.inl rfl) id ⟨_, rfl⟩ rfl
  | active =>
      rw [phase] at shows
      obtain ⟨merge, active⟩ := shows
      obtain ⟨_, newer, _, board, stepped⟩ := Hub.mergeStep_active active
      have turned : session.discoveryTurn (Plant.engines registry equipment shared) =
          { session with
            engines := { session.engines with hub := session.engines.hub.mergeStep false }
            log := session.log.add session.now [] } := by
        simp [Session.discoveryTurn, phase, resumeDiscovery, Plant.engines, uncancelled, report,
          endDiscovery]
      rw [turned]
      refine wired.supply equipment wired.hub.mergeStep rfl ?_ id ?_ rfl
      · dsimp only
        rw [stepped]
        exact board
      · dsimp only
        rw [phase, stepped]
        exact ⟨newer, rfl⟩
  | _ =>
      rw [Session.discoveryTurn, phase]
      exact wired

theorem scrapingStep (equipment : Equipment κ σ τ π) (shared : Shared κ σ)
    (wired : session.Wired registry config sent)
    (uncancelled : session.isCancelled = false) :
    (session.scrapingStep (Plant.engines registry equipment shared)).Wired registry config
      sent := by
  have shows := wired.scraping
  have isOpen := wired.attentive.isOpen
  cases phase : session.scraping with
  | sleeping wake =>
      rw [Session.scrapingStep, phase]
      dsimp only
      split
      · exact wired.relabel rfl rfl rfl (.inl rfl) (.inr ⟨rfl, by rw [phase]; rfl⟩)
      · exact wired
  | awake =>
      rw [phase] at shows
      have idle : session.engines.supervisor.managing = .idle := shows
      obtain ⟨board, _, installed⟩ := Station.perform_managing equipment isOpen (.inl rfl)
      have active := Station.perform_isActive equipment isOpen (.inl ⟨rfl, idle⟩)
      have turned : session.scrapingStep (Plant.engines registry equipment shared) =
          { session with
            scraping := .active
            engines := { session.engines with
              supervisor := (session.engines.station.perform equipment .enter).supervisor }
            calls := session.calls ++ [(session.now, .runScraping)] } := by
        simp [Session.scrapingStep, phase, beginScraping, record, Plant.engines, Supervisor.enter,
          idle, endScraping, Station.perform, Plant.station]
      rw [turned]
      refine wired.supervise equipment .enter rfl rfl board rfl ?_ rfl active
      dsimp only
      rw [installed]
      exact wired.installed
  | active =>
      rw [phase] at shows
      have running : session.engines.supervisor.managing.isActive = true := shows
      obtain ⟨board, _, installed⟩ := Station.perform_managing equipment isOpen (.inr rfl)
      have active := Station.perform_isActive equipment isOpen (.inr ⟨rfl, running⟩)
      have turned : session.scrapingStep (Plant.engines registry equipment shared) =
          { session with
            engines := { session.engines with
              supervisor := (session.engines.station.perform equipment .manage).supervisor }
            log := session.log.add session.now [] } := by
        have goesOn : (session.engines.supervisor.manageStep false
            session.engines.hub.board).2 = none := by
          have stays : session.engines.hub.board.isClosed = false := isOpen
          unfold Supervisor.manageStep
          split
          · simp only [Bool.false_eq_true, if_false, stays]
            split <;> first | rfl | (split <;> rfl)
          · rfl
        simp [Session.scrapingStep, phase, resumeScraping, Plant.engines, uncancelled, report,
          goesOn, endScraping, Station.perform, Plant.station]
      rw [turned]
      refine wired.supervise equipment .manage rfl rfl board rfl ?_ rfl ?_
      · dsimp only
        rw [installed]
        exact wired.installed
      · dsimp only
        rw [phase]
        exact active
  | _ =>
      rw [Session.scrapingStep, phase]
      exact wired

/-- A provider takes its turn, and what it sends is queued. -/
theorem providerTurn (equipment : Equipment κ σ τ π) (shared : Shared κ σ)
    (wired : session.Wired registry config sent) (place : Nat) :
    (session.engineTurn (Plant.engines registry equipment shared) (.provider place)).Wired registry
      config (sent ++ session.engines.hub.queues (.provider place)) := by
  refine wired.supply equipment (wired.hub.providerStep place) rfl
    (.inl (Hub.providerStep_board session.engines.hub place)) id ?_ rfl
  obtain ⟨_, _, stepped⟩ := session.engines.hub.providerStep_eq place
  have merging : (session.engines.hub.providerStep place).1.merging =
      session.engines.hub.merging := by
    rw [stepped]
  exact merging ▸ wired.discovery

theorem loopTurn (equipment : Equipment κ σ τ π) (shared : Shared κ σ)
    (wired : session.Wired registry config sent)
    (uncancelled : session.isCancelled = false) (place : Nat) :
    (session.engineTurn (Plant.engines registry equipment shared) (.loop place)).Wired registry
      config sent := by
  obtain ⟨loops, shared', turned⟩ :=
    Station.perform_loop equipment session.engines.station session.now place
  have supervisor : (session.engineTurn (Plant.engines registry equipment shared)
      (.loop place)).engines.supervisor =
      (session.engines.station.perform equipment (.loop session.now place)).supervisor := by
    rw [engineTurn, uncancelled]
    rfl
  have changed := supervisor
  rw [turned] at changed
  refine wired.supervise equipment (.loop session.now place) rfl supervisor (by rw [turned]; rfl) rfl
    ?_ rfl ?_
  · rw [changed]
    exact wired.installed
  · rw [changed]
    exact wired.scraping

theorem startupStep (equipment : Equipment κ σ τ π) (shared : Shared κ σ)
    (valid : receiver.scrape.validate = .ok ())
    (undisturbed : session.Undisturbed receiver) (accountable : session.Accountable)
    (wired : session.Wired registry receiver.scrape sent) :
    (session.startupStep (Plant.engines registry equipment shared)).Wired registry receiver.scrape
      sent := by
  obtain ⟨rfl, _, _, goesWell⟩ := undisturbed
  have startup := session.startupStep_startup (Plant.engines registry equipment shared)
  have engines := session.startupStep_engines (Plant.engines registry equipment shared)
  obtain ⟨discovery, scraping⟩ :=
    session.startupStep_runs (Plant.engines registry equipment shared)
  cases phase : session.startup with
  | equipped =>
      simp only [phase] at startup engines discovery scraping
      have install : session.engines.station.perform equipment (.install session.receiver.scrape) =
          _ := Station.perform_install valid
      rw [Plant.installJobs_ok registry equipment shared valid] at startup
      refine wired.supervise equipment (.install session.receiver.scrape) (by rw [engines]; rfl)
        (by rw [engines]; rfl) (by rw [install]; rfl) (by rw [startup, phase]; rfl)
        (fun _ => ⟨session.engines.supervisor.edition + 1, ?_⟩) discovery ?_
      · rw [engines]
        exact congrArg (fun station => station.supervisor.installed) install
      · have managing : (session.startupStep
            (Plant.engines registry equipment shared)).engines.supervisor.managing =
            session.engines.supervisor.managing := by
          rw [engines]
          exact congrArg (fun station => station.supervisor.managing) install
        rw [managing, scraping]
        exact wired.scraping
  | gated =>
      simp only [phase] at startup engines discovery scraping
      by_cases isOpen : session.gateIsOpen = true
      · rw [if_pos isOpen] at startup engines
        have supplied := wired.hub
        rw [phase] at supplied
        refine wired.supply equipment ?_ (by rw [engines]; rfl) (.inl ?_) (fun _ => ?_) ?_ scraping
        · rw [engines, startup]
          exact supplied.apply
        · rw [engines]
          exact Hub.apply_board registry.build _ session.engines.hub
        · rw [phase]
          rfl
        · have merging : (session.engines.hub.apply registry.build
              session.receiver.scrape.discoveries.entries).1.merging =
              session.engines.hub.merging := by rw [Hub.apply_eq]
          rw [engines, discovery]
          exact merging ▸ wired.discovery
      · rw [if_neg isOpen] at startup engines
        exact wired.relabel engines (by rw [startup, phase]) (by rw [startup, phase])
          (.inl discovery) (.inl scraping)
  | accepted =>
      simp only [phase] at startup engines discovery scraping
      have unlaunched := accountable.discovery
      rw [phase] at unlaunched
      exact wired.relabel engines (by rw [startup, phase]; rfl) (by rw [startup, phase]; rfl)
        (.inr ⟨by rw [discovery]; rfl, RunPhase.hasBegun_of_not_hasWoken unlaunched⟩)
        (.inl scraping)
  | discovering =>
      simp only [phase] at startup engines discovery scraping
      have unlaunched := accountable.scraping
      rw [phase] at unlaunched
      exact wired.relabel engines (by rw [startup, phase]; rfl) (by rw [startup, phase]; rfl)
        (.inl discovery) (.inr ⟨by rw [scraping]; rfl, by rw [RunPhase.eq_absent unlaunched]; rfl⟩)
  | entered stopCame =>
      cases stopCame with
      | true => simp [phase, StartupPhase.goesWell] at goesWell
      | false =>
          simp only [phase] at startup engines discovery scraping
          exact wired.relabel engines (by rw [startup, phase]; rfl) (by rw [startup, phase]; rfl)
            (.inl discovery) (.inl scraping)
  | rejected failure => simp [phase, StartupPhase.goesWell] at goesWell
  | revoked failure => simp [phase, StartupPhase.goesWell] at goesWell
  | refused failure => simp [phase, StartupPhase.goesWell] at goesWell
  | _ =>
      simp only [phase] at startup engines discovery scraping
      exact wired.relabel engines
        (by simp only [startup, phase, StartupPhase.hasApplied])
        (by simp only [startup, phase, StartupPhase.hasInstalled, StartupPhase.hasEngines])
        (.inl discovery) (.inl scraping)

theorem turn (equipment : Equipment κ σ τ π) (shared : Shared κ σ)
    (valid : receiver.scrape.validate = .ok ()) (ongoing : session.Ongoing receiver)
    (wired : session.Wired registry receiver.scrape sent) (task : SessionTask PlantTask)
    (main : ∀ place, task ≠ .engine place) :
    (session.turn (Plant.engines registry equipment shared) task).Wired registry receiver.scrape
      sent := by
  refine (turn_keeps (Plant.engines registry equipment shared) task (fun after =>
    after.Accountable ∧ after.Undisturbed receiver ∧ after.Wired registry receiver.scrape sent)
    ?_ ⟨ongoing.reached.accountable, ongoing.undisturbed, wired⟩).2.2
  rintro after ⟨accountable, undisturbed, wired⟩
  refine ⟨accountable.step _ task, undisturbed.step
    (Plant.installJobs_ok registry equipment shared valid) task, ?_⟩
  cases task with
  | startup => exact wired.startupStep equipment shared valid undisturbed accountable
  | discovery => exact wired.discoveryTurn equipment shared undisturbed.uncancelled
  | scraping => exact wired.scrapingStep equipment shared undisturbed.uncancelled
  | logging =>
      obtain ⟨_, _, stepped⟩ := after.loggingTurn_frame
      rw [step, stepped]
      exact wired.relabel rfl rfl rfl (.inl rfl) (.inl rfl)
  | engine place => exact absurd rfl (main place)

end Wired

end Session

end ScrapeRelay.Lifecycle
