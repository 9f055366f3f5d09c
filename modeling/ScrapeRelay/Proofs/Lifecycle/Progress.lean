import ScrapeRelay.Proofs.Lifecycle.Handshake

/-!
# The startup gets through

Along an endless run in which the startup and the two tasks that run the engines take
their turns again and again, a startup that is not stopped and whose job definitions are
accepted makes all calls of the engines once the grace period is over.
-/

namespace ScrapeRelay.Lifecycle

def SessionTask.isMain {α : Type} : SessionTask α → Bool
  | .startup | .discovery | .scraping => true
  | _ => false

namespace Session

variable {ε α : Type} {engines : Engines ε α} {session : Session ε}

theorem startup_mem_ready : .startup ∈ session.ready engines ↔ session.startupIsReady = true := by
  simp [ready]

theorem discovery_mem_ready :
    .discovery ∈ session.ready engines ↔
      runIsReady session.now (engines.discoveryIsReady session.isCancelled session.engines)
        session.discovery = true := by
  simp [ready]

theorem scraping_mem_ready :
    .scraping ∈ session.ready engines ↔
      runIsReady session.now (engines.scrapingIsReady session.isCancelled session.engines)
        session.scraping = true := by
  simp [ready]

end Session

namespace Threads

variable {ε α : Type} {engines : Engines ε α} {session next : Session ε}

theorem Move.count (move : Move engines session next) (call : Call) :
    session.count call ≤ next.count call := by
  obtain ⟨added, calls, _⟩ := move.calls
  rw [Session.count_append calls]
  exact Nat.le_add_right _ _

theorem Move.gate (move : Move engines session next) (isOpen : session.gateIsOpen = true) :
    next.gateIsOpen = true := by
  obtain ⟨_, same⟩ | ⟨_, _, same⟩ | rfl := move.scraping
  · exact same.trans isOpen
  · exact same.trans isOpen
  · obtain ⟨same, _⟩ | ⟨_, _, _, opened⟩ | ⟨_, _, gate, _⟩ := session.scrapingStep_calls engines
    · rw [same]
      exact isOpen
    · rw [opened]
    · exact gate.trans isOpen

/-- The scrape task sleeps until it opens the gate. -/
theorem Move.asleep (accountable : session.Accountable) (move : Move engines session next)
    {wake : Nat} (asleep : session.scraping = .sleeping wake) :
    next.scraping = .sleeping wake ∨ next.gateIsOpen = true := by
  obtain ⟨same, _⟩ | ⟨discovering, _⟩ | rfl := move.scraping
  · exact .inl (same.trans asleep)
  · have launched := accountable.scraping
    simp [discovering, asleep, RunPhase.isLaunched, StartupPhase.hasLaunchedScraping] at launched
  · obtain ⟨same, _⟩ | ⟨_, _, _, opened⟩ | ⟨woken, _⟩ := session.scrapingStep_calls engines
    · rw [same]
      exact .inl asleep
    · rw [opened]
      exact .inr rfl
    · simp [asleep, RunPhase.hasWoken] at woken

/-- An endless run. None of the main tasks is passed over for good while it has something
to do. -/
structure Endless (engines : Engines ε α) (sessions : Nat → Session ε) : Prop where
  moves : ∀ time, Move engines (sessions time) (sessions (time + 1))
  accountable : ∀ time, (sessions time).Accountable
  fair : ∀ task, task.isMain = true → ∀ time, ∃ later, time ≤ later ∧
    (task ∈ (sessions later).ready engines →
      sessions (later + 1) = (sessions later).step engines task)

namespace Endless

variable {sessions : Nat → Session ε} {time : Nat}

theorem stays (holds : Session ε → Prop) {later : Nat}
    (kept : ∀ time, holds (sessions time) → holds (sessions (time + 1)))
    (first : holds (sessions time)) (after : time ≤ later) : holds (sessions later) := by
  induction after with
  | refl => exact first
  | step _ ih => exact kept _ ih

/-- A condition that nothing ends but a goal, and under which a task is ready to reach the
goal, leads to the goal. -/
theorem reaches (endless : Endless engines sessions) (task : SessionTask α)
    (main : task.isMain = true) (holds goal : Session ε → Prop)
    (kept : ∀ time, holds (sessions time) →
      holds (sessions (time + 1)) ∨ goal (sessions (time + 1)))
    (helpful : ∀ time, holds (sessions time) →
      task ∈ (sessions time).ready engines ∧ goal ((sessions time).step engines task))
    (first : holds (sessions time)) : ∃ later, time ≤ later ∧ goal (sessions later) := by
  by_contra never
  have missed (later : Nat) (after : time ≤ later) : ¬ goal (sessions later) :=
    fun reached => never ⟨later, after, reached⟩
  have holdsOn (later : Nat) (after : time ≤ later) : holds (sessions later) := by
    induction after with
    | refl => exact first
    | step after ih =>
        obtain still | reached := kept _ ih
        · exact still
        · exact absurd reached (missed _ (Nat.le_succ_of_le after))
  obtain ⟨later, after, stepped⟩ := endless.fair task main time
  obtain ⟨ready, reached⟩ := helpful later (holdsOn later after)
  refine missed (later + 1) (Nat.le_succ_of_le after) ?_
  rw [stepped ready]
  exact reached

/-- The startup leaves a phase for where its steps take it. -/
theorem startup_leaves (endless : Endless engines sessions) (phase : StartupPhase)
    (goal : StartupPhase → Prop)
    (ready : ∀ session : Session ε, session.startup = phase → session.startupIsReady = true)
    (forward : ∀ time, (sessions time).startup = phase →
      goal ((sessions time).startupStep engines).startup)
    (first : (sessions time).startup = phase) :
    ∃ later, goal (sessions later).startup := by
  have kept (time : Nat) (present : (sessions time).startup = phase) :
      (sessions (time + 1)).startup = phase ∨ goal (sessions (time + 1)).startup := by
    obtain same | ⟨absent, _⟩ | stepped := (endless.moves time).startup
    · exact .inl (same.trans present)
    · have launched := ready _ present
      simp [Session.startupIsReady, absent] at launched
    · rw [stepped]
      exact .inr (forward time present)
  obtain ⟨later, _, reached⟩ := endless.reaches .startup rfl
    (fun session => session.startup = phase) (fun session => goal session.startup) kept (fun time present =>
      ⟨Session.startup_mem_ready.mpr (ready _ present), forward time present⟩) first
  exact ⟨later, reached⟩

end Endless

/-- What a startup needs to get through. -/
structure Admitted (sessions : Nat → Session ε) : Prop where
  launched : ∃ time, (sessions time).startup = .launched
  unstopped : ∀ time, (sessions time).control.stopLatch.isDone = false
  accepted : ∀ time failure, (sessions time).startup ≠ .rejected failure
  elapses : ∀ time wake, (sessions time).scraping = .sleeping wake →
    ∃ later, time ≤ later ∧ wake ≤ (sessions later).now

namespace Endless

variable {sessions : Nat → Session ε} {time : Nat}

theorem gated (endless : Endless engines sessions) (admitted : Admitted sessions) :
    ∃ time, (sessions time).startup = .gated := by
  obtain ⟨_, launched⟩ := admitted.launched
  obtain ⟨_, entered⟩ := endless.startup_leaves .launched (· = .entered false)
    (fun _ phase => by simp [Session.startupIsReady, phase])
    (fun time phase => by
      simp [Session.startupStep_startup, phase, Control.stopCame, admitted.unstopped]) launched
  obtain ⟨_, left⟩ := endless.startup_leaves (.entered false) (· = .admitted)
    (fun _ phase => by simp [Session.startupIsReady, phase])
    (fun _ phase => by simp [Session.startupStep_startup, phase]) entered
  obtain ⟨_, built⟩ := endless.startup_leaves .admitted (· = .equipped)
    (fun _ phase => by simp [Session.startupIsReady, phase])
    (fun _ phase => by simp [Session.startupStep_startup, phase]) left
  obtain ⟨decided, accepted | ⟨failure, rejected⟩⟩ := endless.startup_leaves .equipped
    (fun phase => phase = .accepted ∨ ∃ failure, phase = .rejected failure)
    (fun _ phase => by simp [Session.startupIsReady, phase])
    (fun _ phase => by
      rw [Session.startupStep_startup, phase]
      dsimp only
      split
      · exact .inr ⟨_, rfl⟩
      · exact .inl rfl) built
  · obtain ⟨_, discovering⟩ := endless.startup_leaves .accepted (· = .discovering)
      (fun _ phase => by simp [Session.startupIsReady, phase])
      (fun _ phase => by simp [Session.startupStep_startup, phase]) accepted
    exact endless.startup_leaves .discovering (· = .gated)
      (fun _ phase => by simp [Session.startupIsReady, phase])
      (fun _ phase => by simp [Session.startupStep_startup, phase]) discovering
  · exact absurd rejected (admitted.accepted decided failure)

theorem gate_opens (endless : Endless engines sessions) (admitted : Admitted sessions)
    (launched : (sessions time).startup.hasLaunchedScraping = true) :
    ∃ later, time ≤ later ∧ (sessions later).gateIsOpen = true := by
  have accountable := endless.accountable time
  cases scraping : (sessions time).scraping with
  | absent =>
      have absent := accountable.scraping
      simp [scraping, launched, RunPhase.isLaunched] at absent
  | sleeping wake =>
      obtain ⟨woken, after, due⟩ := admitted.elapses time wake scraping
      have either : (sessions woken).scraping = .sleeping wake ∨
          (sessions woken).gateIsOpen = true := by
        refine stays (fun session => session.scraping = .sleeping wake ∨
          session.gateIsOpen = true) ?_ (.inl scraping) after
        rintro time (asleep | isOpen)
        · exact (endless.moves time).asleep (endless.accountable time) asleep
        · exact .inr ((endless.moves time).gate isOpen)
      obtain asleep | isOpen := either
      · have kept (time : Nat) (asleep : (sessions time).scraping = .sleeping wake ∧
            wake ≤ (sessions time).now) :
            ((sessions (time + 1)).scraping = .sleeping wake ∧ wake ≤ (sessions (time + 1)).now) ∨
              (sessions (time + 1)).gateIsOpen = true :=
          ((endless.moves time).asleep (endless.accountable time) asleep.1).imp
            (fun still => ⟨still, Nat.le_trans asleep.2 (endless.moves time).now⟩) id
        obtain ⟨later, further, isOpen⟩ := endless.reaches .scraping rfl
          (fun session => session.scraping = .sleeping wake ∧ wake ≤ session.now)
          (fun session => session.gateIsOpen = true) kept
          (fun time waits => ⟨Session.scraping_mem_ready.mpr (by
              simpa [waits.1, Session.runIsReady] using waits.2),
            by simp [Session.step, Session.scrapingStep, waits]⟩) ⟨asleep, due⟩
        exact ⟨later, Nat.le_trans after further, isOpen⟩
      · exact ⟨woken, after, isOpen⟩
  | _ =>
      refine ⟨time, Nat.le_refl _, ?_⟩
      rw [accountable.gate, scraping]
      rfl

theorem begins (endless : Endless engines sessions) (task : SessionTask α)
    (main : task.isMain = true) (phase : Session ε → RunPhase)
    (kept : ∀ time, (phase (sessions time)).hasWoken = true →
      (phase (sessions (time + 1))).hasWoken = true)
    (ready : ∀ session, phase session = .awake → task ∈ session.ready engines)
    (called : ∀ session, phase session = .awake →
      (phase (session.step engines task)).hasBegun = true)
    (woken : (phase (sessions time)).hasWoken = true) :
    ∃ later, (phase (sessions later)).hasBegun = true := by
  by_cases begun : (phase (sessions time)).hasBegun = true
  · exact ⟨time, begun⟩
  · have waits (time : Nat) (awake : phase (sessions time) = .awake) :
        phase (sessions (time + 1)) = .awake ∨ (phase (sessions (time + 1))).hasBegun = true := by
      have woken := kept time (by rw [awake]; rfl)
      by_cases begun : (phase (sessions (time + 1))).hasBegun = true
      · exact .inr begun
      · exact .inl (RunPhase.eq_awake woken (by simpa using begun))
    obtain ⟨later, _, begun⟩ := endless.reaches task main (fun session => phase session = .awake)
      (fun session => (phase session).hasBegun = true) waits
      (fun time awake => ⟨ready _ awake, called _ awake⟩)
      (RunPhase.eq_awake woken (by simpa using begun))
    exact ⟨later, begun⟩

theorem discovery_begins (endless : Endless engines sessions)
    (launched : (sessions time).startup.hasLaunchedDiscovery = true) :
    ∃ later, (sessions later).discovery.hasBegun = true := by
  refine endless.begins .discovery rfl Session.discovery (fun time woken => ?_)
    (fun session awake => ?_) (fun session awake => ?_)
    ((endless.accountable time).discovery.trans launched)
  · rw [(endless.accountable (time + 1)).discovery]
    exact (endless.moves time).leads.hasLaunchedDiscovery ((endless.accountable time).discovery ▸ woken)
  · rw [Session.discovery_mem_ready, awake]
    rfl
  · obtain ⟨_, notAwake⟩ | ⟨_, begun, _⟩ := session.discoveryTurn_calls engines
    · exact absurd awake notAwake
    · exact begun

theorem scraping_begins (endless : Endless engines sessions)
    (isOpen : (sessions time).gateIsOpen = true) :
    ∃ later, (sessions later).scraping.hasBegun = true := by
  refine endless.begins .scraping rfl Session.scraping (fun time woken => ?_)
    (fun session awake => ?_) (fun session awake => ?_)
    ((endless.accountable time).gate.symm.trans isOpen)
  · rw [← (endless.accountable (time + 1)).gate]
    exact (endless.moves time).gate ((endless.accountable time).gate.trans woken)
  · rw [Session.scraping_mem_ready, awake]
    rfl
  · obtain ⟨_, notAwake⟩ | ⟨_, asleep, _⟩ | ⟨_, begun, _⟩ := session.scrapingStep_calls engines
    · exact absurd awake notAwake
    · simp [awake] at asleep
    · exact begun

theorem applies (endless : Endless engines sessions)
    (launched : (sessions time).startup.hasLaunchedScraping = true)
    (isOpen : (sessions time).gateIsOpen = true) :
    ∃ later, (sessions later).startup.hasApplied = true := by
  cases phase : (sessions time).startup with
  | gated =>
      have kept (time : Nat)
          (waits : (sessions time).startup = .gated ∧ (sessions time).gateIsOpen = true) :
          ((sessions (time + 1)).startup = .gated ∧ (sessions (time + 1)).gateIsOpen = true) ∨
            (sessions (time + 1)).startup.hasApplied = true := by
        obtain same | ⟨absent, _⟩ | stepped := (endless.moves time).startup
        · exact .inl ⟨same.trans waits.1, (endless.moves time).gate waits.2⟩
        · simp [waits.1] at absent
        · right
          rw [stepped]
          simp [Session.startupStep_startup, waits, StartupPhase.hasApplied]
      obtain ⟨later, _, applied⟩ := endless.reaches .startup rfl
        (fun session => session.startup = .gated ∧ session.gateIsOpen = true)
        (fun session => session.startup.hasApplied = true) kept (fun time waits => by
          rw [Session.startup_mem_ready, Session.startupIsReady, Session.step,
            Session.startupStep_startup, waits.1]
          simp [waits.2, StartupPhase.hasApplied]) ⟨phase, isOpen⟩
      exact ⟨later, applied⟩
  | applied result => exact ⟨time, by rw [phase]; rfl⟩
  | settled => exact ⟨time, by rw [phase]; rfl⟩
  | finished ending =>
      refine ⟨time, ?_⟩
      cases ending <;> simp_all [StartupPhase.hasLaunchedScraping, StartupPhase.hasApplied]
  | _ => simp [phase, StartupPhase.hasLaunchedScraping] at launched

theorem count_stays (endless : Endless engines sessions) {call : Call} {later : Nat}
    (running : call ≠ .discoveryEnded ∧ call ≠ .scrapingEnded)
    (made : (sessions time).count call = 1) (after : time ≤ later) :
    (sessions later).count call = 1 := by
  have grown : 1 ≤ (sessions later).count call :=
    stays (fun session => 1 ≤ session.count call)
      (fun time grown => Nat.le_trans grown ((endless.moves time).count call))
      (Nat.le_of_eq made.symm) after
  exact Nat.le_antisymm ((endless.accountable later).count_le_one call running) grown

/-- A launched startup comes to wait for the gate, and the gate opens. -/
theorem passes_gate (endless : Endless engines sessions) (admitted : Admitted sessions) :
    ∃ opened, (sessions opened).startup.hasLaunchedDiscovery = true ∧
      (sessions opened).startup.hasLaunchedScraping = true ∧
      (sessions opened).gateIsOpen = true := by
  obtain ⟨waiting, gated⟩ := endless.gated admitted
  obtain ⟨opened, after, isOpen⟩ := endless.gate_opens admitted (by rw [gated]; rfl)
  refine ⟨opened, ?_, ?_, isOpen⟩
  · exact stays (fun session => session.startup.hasLaunchedDiscovery = true)
      (fun time launched => (endless.moves time).leads.hasLaunchedDiscovery launched)
      (by rw [gated]; rfl) after
  · exact stays (fun session => session.startup.hasLaunchedScraping = true)
      (fun time launched => (endless.moves time).leads.hasLaunchedScraping launched)
      (by rw [gated]; rfl) after

/-- A launched startup gets through, and the engines are called as they should be. -/
theorem calls_all (endless : Endless engines sessions) (admitted : Admitted sessions) :
    ∃ complete, ∀ later, complete ≤ later →
      (sessions later).count .installJobs = 1 ∧ (sessions later).count .runDiscovery = 1 ∧
        (sessions later).count .runScraping = 1 ∧ (sessions later).count .applyDiscovery = 1 := by
  obtain ⟨opened, launchedDiscovery, launchedScraping, isOpen⟩ := endless.passes_gate admitted
  obtain ⟨discovering, discovery⟩ := endless.discovery_begins launchedDiscovery
  obtain ⟨scraping, scrapes⟩ := endless.scraping_begins isOpen
  obtain ⟨applying, applied⟩ := endless.applies launchedScraping isOpen
  refine ⟨max applying (max discovering scraping), fun later after => ⟨?_, ?_, ?_, ?_⟩⟩
  · refine endless.count_stays (by simp) ?_ (show applying ≤ later by omega)
    rw [(endless.accountable applying).installs, StartupPhase.hasInstalled_of_hasApplied applied]
    rfl
  · refine endless.count_stays (by simp) ?_ (show discovering ≤ later by omega)
    rw [(endless.accountable discovering).discoveries, discovery]
    rfl
  · refine endless.count_stays (by simp) ?_ (show scraping ≤ later by omega)
    rw [(endless.accountable scraping).scrapes, scrapes]
    rfl
  · refine endless.count_stays (by simp) ?_ (show applying ≤ later by omega)
    rw [(endless.accountable applying).applies, applied]
    rfl

end Endless

end Threads

end ScrapeRelay.Lifecycle
