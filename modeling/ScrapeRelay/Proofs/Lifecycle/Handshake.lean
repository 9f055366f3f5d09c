import ScrapeRelay.Proofs.Lifecycle.Once

/-!
# The startup handshake

The calls of the engines tell how far the startup and the two tasks are
(`Accountable`). From this follows in which order the engines are called, and that
none of the calls is made twice.
-/

namespace ScrapeRelay.Lifecycle

namespace Session

variable {ε α : Type} {engines : Engines ε α} {session after : Session ε} {call : Call}
  {added : List (Nat × Call)}

theorem count_append (calls : after.calls = session.calls ++ added) (call : Call) :
    after.count call = session.count call + added.countP (fun entry => entry.2 = call) := by
  rw [count, calls, List.countP_append, count]

theorem countP_of_only {other : Call} (only : ∀ entry ∈ added, entry.2 = other)
    (different : other ≠ call) : added.countP (fun entry => entry.2 = call) = 0 := by
  refine List.countP_eq_zero.mpr fun entry member => ?_
  simpa [only entry member] using different

/-- The calls that were made tell how far everything is. -/
structure Accountable (session : Session ε) : Prop where
  installs : session.count .installJobs = session.startup.hasInstalled.toNat
  applies : session.count .applyDiscovery = session.startup.hasApplied.toNat
  discoveries : session.count .runDiscovery = session.discovery.hasBegun.toNat
  scrapes : session.count .runScraping = session.scraping.hasBegun.toNat
  discovery : session.discovery.hasWoken = session.startup.hasLaunchedDiscovery
  scraping : session.scraping.isLaunched = session.startup.hasLaunchedScraping
  gate : session.gateIsOpen = session.scraping.hasWoken
  /-- The job definitions come first. -/
  opening : session.calls.head?.map Prod.snd =
    if session.startup.hasInstalled then some .installJobs else none

namespace Accountable

theorem new (engines : Engines ε α) (receiver : Config.Receiver) :
    (new engines receiver).Accountable := by
  constructor <;> rfl

theorem progress (accountable : session.Accountable)
    (calls : after.calls = session.calls ++ added)
    (installs : session.startup.hasInstalled.toNat +
      added.countP (fun entry => entry.2 = Call.installJobs) = after.startup.hasInstalled.toNat)
    (applies : session.startup.hasApplied.toNat +
      added.countP (fun entry => entry.2 = Call.applyDiscovery) = after.startup.hasApplied.toNat)
    (discoveries : session.discovery.hasBegun.toNat +
      added.countP (fun entry => entry.2 = Call.runDiscovery) = after.discovery.hasBegun.toNat)
    (scrapes : session.scraping.hasBegun.toNat +
      added.countP (fun entry => entry.2 = Call.runScraping) = after.scraping.hasBegun.toNat)
    (discovery : after.discovery.hasWoken = after.startup.hasLaunchedDiscovery)
    (scraping : after.scraping.isLaunched = after.startup.hasLaunchedScraping)
    (gate : after.gateIsOpen = after.scraping.hasWoken)
    (opening : (if session.startup.hasInstalled then some .installJobs
        else added.head?.map Prod.snd) =
      if after.startup.hasInstalled then some .installJobs else none) : after.Accountable := by
  refine ⟨?_, ?_, ?_, ?_, discovery, scraping, gate, ?_⟩
  · rw [count_append calls, accountable.installs, installs]
  · rw [count_append calls, accountable.applies, applies]
  · rw [count_append calls, accountable.discoveries, discoveries]
  · rw [count_append calls, accountable.scrapes, scrapes]
  · have before := accountable.opening
    rw [← opening, calls]
    cases held : session.calls with
    | nil =>
        have uninstalled : session.startup.hasInstalled = false := by
          by_contra installed
          simp [held, installed] at before
        simp [uninstalled]
    | cons first rest =>
        have installed : session.startup.hasInstalled = true := by
          by_contra uninstalled
          simp [held, uninstalled] at before
        simpa [held, installed] using before

/-- What leaves the startup alone has no reason to call for it. -/
theorem aside (accountable : session.Accountable) (startup : after.startup = session.startup)
    (calls : after.calls = session.calls ++ added)
    (installed : session.startup.hasInstalled = true ∨ added = [])
    (unrelated : ∀ call, call = .installJobs ∨ call = .applyDiscovery →
      added.countP (fun entry => entry.2 = call) = 0)
    (discoveries : session.discovery.hasBegun.toNat +
      added.countP (fun entry => entry.2 = Call.runDiscovery) = after.discovery.hasBegun.toNat)
    (scrapes : session.scraping.hasBegun.toNat +
      added.countP (fun entry => entry.2 = Call.runScraping) = after.scraping.hasBegun.toNat)
    (discovery : after.discovery.hasWoken = session.discovery.hasWoken)
    (scraping : after.scraping.isLaunched = session.scraping.isLaunched)
    (gate : after.gateIsOpen = after.scraping.hasWoken) : after.Accountable := by
  refine accountable.progress calls ?_ ?_ discoveries scrapes ?_ ?_ gate ?_
  · rw [unrelated _ (.inl rfl), startup, Nat.add_zero]
  · rw [unrelated _ (.inr rfl), startup, Nat.add_zero]
  · rw [discovery, startup, accountable.discovery]
  · rw [scraping, startup, accountable.scraping]
  · rw [startup]
    obtain installed | rfl := installed
    · rw [if_pos installed, if_pos installed]
    · rfl

theorem relabel (accountable : session.Accountable) (calls : after.calls = session.calls)
    (discovery : after.discovery = session.discovery)
    (scraping : after.scraping = session.scraping)
    (gate : after.gateIsOpen = session.gateIsOpen)
    (startup : after.startup = session.startup) : after.Accountable :=
  accountable.aside startup (calls.trans (List.append_nil _).symm) (.inr rfl) (by simp)
    (by simp [discovery]) (by simp [scraping]) (by rw [discovery]) (by rw [scraping])
    (by rw [gate, scraping]; exact accountable.gate)

theorem discoveryTurn (engines : Engines ε α) (accountable : session.Accountable) :
    (session.discoveryTurn engines).Accountable := by
  obtain ⟨same, _⟩ | ⟨woken, begun, ended, only, calls⟩ := session.discoveryTurn_calls engines
  · rw [same]
    exact accountable
  · obtain ⟨_, _, _, _, _, stepped⟩ := session.discoveryTurn_frame engines
    have scraping : (session.discoveryTurn engines).scraping = session.scraping := by rw [stepped]
    refine accountable.aside (by rw [stepped]) calls (.inl ?_) ?_ ?_ ?_ ?_ ?_ ?_
    · exact StartupPhase.hasInstalled_of_hasLaunchedDiscovery
        (accountable.discovery.symm.trans woken)
    · rintro call (rfl | rfl) <;> rw [List.countP_append, countP_of_only only (by simp)] <;>
        split <;> simp
    · rw [begun, List.countP_append, countP_of_only only (by simp)]
      cases session.discovery.hasBegun <;> simp
    · rw [scraping, List.countP_append, countP_of_only only (by simp)]
      split <;> simp
    · rw [woken, RunPhase.hasWoken_of_hasBegun begun]
    · rw [scraping]
    · rw [scraping, stepped]
      exact accountable.gate

theorem scrapingStep (engines : Engines ε α) (accountable : session.Accountable) :
    (session.scrapingStep engines).Accountable := by
  obtain ⟨same, _⟩ | ⟨wake, asleep, _, opened⟩ | ⟨woken, begun, gate, ended, only, calls⟩ :=
    session.scrapingStep_calls engines
  · rw [same]
    exact accountable
  · rw [opened]
    refine accountable.aside rfl (List.append_nil _).symm (.inr rfl) (by simp) (by simp) ?_ rfl ?_
      rfl
    · simp [asleep, RunPhase.hasBegun]
    · rw [asleep]
      rfl
  · obtain ⟨_, _, _, _, _, _, stepped⟩ := session.scrapingStep_frame engines
    have discovery : (session.scrapingStep engines).discovery = session.discovery := by rw [stepped]
    have launched := RunPhase.isLaunched_of_hasWoken woken
    refine accountable.aside (by rw [stepped]) calls (.inl ?_) ?_ ?_ ?_ ?_ ?_ ?_
    · exact StartupPhase.hasInstalled_of_hasLaunchedScraping
        (accountable.scraping.symm.trans launched)
    · rintro call (rfl | rfl) <;> rw [List.countP_append, countP_of_only only (by simp)] <;>
        split <;> simp
    · rw [discovery, List.countP_append, countP_of_only only (by simp)]
      split <;> simp
    · rw [begun, List.countP_append, countP_of_only only (by simp)]
      cases session.scraping.hasBegun <;> simp
    · rw [discovery]
    · rw [launched, RunPhase.isLaunched_of_hasBegun begun]
    · rw [gate, accountable.gate, woken, RunPhase.hasWoken_of_hasBegun begun]

theorem startupStep (engines : Engines ε α) (accountable : session.Accountable) :
    (session.startupStep engines).Accountable := by
  have startup := session.startupStep_startup engines
  have calls := session.startupStep_calls engines
  obtain ⟨discovery, scraping⟩ := session.startupStep_runs engines
  have gate := (session.startupStep_frame engines).2.2.1
  have discoveryLaunched := accountable.discovery
  have scrapingLaunched := accountable.scraping
  have gateBefore := accountable.gate
  cases phase : session.startup with
  | entered stopCame =>
      simp only [phase] at startup calls discovery scraping discoveryLaunched scrapingLaunched
      cases stopCame <;> refine accountable.progress calls ?_ ?_ ?_ ?_ ?_ ?_ ?_ ?_ <;>
        simp only [phase, startup, discovery, scraping, discoveryLaunched, scrapingLaunched, gate,
          gateBefore] <;> rfl
  | equipped =>
      simp only [phase] at startup calls discovery scraping discoveryLaunched scrapingLaunched
      cases installed : (engines.installJobs session.receiver.scrape session.engines).2 <;>
        refine accountable.progress calls ?_ ?_ ?_ ?_ ?_ ?_ ?_ ?_ <;>
        simp only [phase, startup, installed, discovery, scraping, discoveryLaunched,
          scrapingLaunched, gate, gateBefore] <;> rfl
  | accepted =>
      rw [phase] at discoveryLaunched scrapingLaunched
      have waiting := RunPhase.hasBegun_of_not_hasWoken discoveryLaunched
      simp only [phase] at startup calls discovery scraping
      refine accountable.progress calls ?_ ?_ ?_ ?_ ?_ ?_ ?_ ?_ <;>
        simp only [phase, startup, discovery, waiting, scraping, scrapingLaunched, gate,
          gateBefore] <;> rfl
  | discovering =>
      rw [phase] at discoveryLaunched scrapingLaunched
      have absent := RunPhase.eq_absent scrapingLaunched
      simp only [phase] at startup calls discovery scraping
      refine accountable.progress calls ?_ ?_ ?_ ?_ ?_ ?_ ?_ ?_ <;>
        simp only [phase, startup, discovery, discoveryLaunched, scraping, absent, gate,
          gateBefore] <;> rfl
  | gated =>
      simp only [phase] at startup calls discovery scraping discoveryLaunched scrapingLaunched
      cases isOpen : session.gateIsOpen <;> rw [isOpen] at startup calls <;>
        refine accountable.progress calls ?_ ?_ ?_ ?_ ?_ ?_ ?_ ?_ <;>
        simp only [phase, startup, discovery, scraping, discoveryLaunched, scrapingLaunched, gate,
          gateBefore] <;> rfl
  | _ =>
      simp only [phase] at startup calls discovery scraping discoveryLaunched scrapingLaunched
      refine accountable.progress calls ?_ ?_ ?_ ?_ ?_ ?_ ?_ ?_ <;>
        simp only [phase, startup, discovery, scraping, discoveryLaunched, scrapingLaunched, gate,
          gateBefore] <;> rfl

theorem step (engines : Engines ε α) (accountable : session.Accountable)
    (task : SessionTask α) : (session.step engines task).Accountable := by
  cases task with
  | startup => exact accountable.startupStep engines
  | discovery => exact accountable.discoveryTurn engines
  | scraping => exact accountable.scrapingStep engines
  | logging =>
      obtain ⟨_, _, stepped⟩ := session.loggingTurn_frame
      rw [Session.step, stepped]
      exact accountable.relabel rfl rfl rfl rfl rfl
  | engine task => exact accountable.relabel rfl rfl rfl rfl rfl

theorem move (accountable : session.Accountable) (move : Threads.Move engines session after) :
    after.Accountable := by
  cases move with
  | launch absent =>
      have discovery := accountable.discovery
      have scraping := accountable.scraping
      rw [absent] at discovery scraping
      refine accountable.progress (List.append_nil _).symm ?_ ?_ rfl rfl discovery scraping
        accountable.gate ?_ <;> rw [absent] <;> rfl
  | step task => exact accountable.step engines task
  | _ => exact accountable.relabel rfl rfl rfl rfl rfl

theorem count_le_one (accountable : session.Accountable)
    (call : Call) (running : call ≠ .discoveryEnded ∧ call ≠ .scrapingEnded) :
    session.count call ≤ 1 := by
  cases call with
  | installJobs => exact Nat.le_trans (Nat.le_of_eq accountable.installs) (Bool.toNat_le _)
  | applyDiscovery => exact Nat.le_trans (Nat.le_of_eq accountable.applies) (Bool.toNat_le _)
  | runDiscovery => exact Nat.le_trans (Nat.le_of_eq accountable.discoveries) (Bool.toNat_le _)
  | runScraping => exact Nat.le_trans (Nat.le_of_eq accountable.scrapes) (Bool.toNat_le _)
  | discoveryEnded => exact absurd rfl running.1
  | scrapingEnded => exact absurd rfl running.2

theorem installed_first (accountable : session.Accountable) {place time : Nat}
    (made : session.calls[place]? = some (time, call)) (other : call ≠ .installJobs) :
    ∃ earlier start, earlier < place ∧
      session.calls[earlier]? = some (start, .installJobs) := by
  have opening := accountable.opening
  cases calls : session.calls with
  | nil => simp [calls] at made
  | cons first rest =>
      have installs : first.2 = .installJobs := by
        rw [calls] at opening
        split at opening
        · simpa using opening
        · simp at opening
      cases place with
      | zero =>
          rw [calls] at made
          obtain rfl := Option.some.inj made
          exact absurd installs other
      | succ place => exact ⟨0, first.1, by omega, by simp [← installs]⟩

/-- Job definitions that are rejected keep everything else from being done. -/
theorem nothing_else (accountable : session.Accountable)
    (rejected : session.startup.isRejected = true)
    (other : call = .applyDiscovery ∨ call = .runDiscovery ∨ call = .runScraping) :
    session.count call = 0 := by
  obtain ⟨applied, launchedDiscovery, launchedScraping⟩ :=
    StartupPhase.flags_of_isRejected rejected
  have discovery := RunPhase.hasBegun_of_not_hasWoken
    (accountable.discovery.trans launchedDiscovery)
  have scraping := RunPhase.eq_absent (accountable.scraping.trans launchedScraping)
  obtain rfl | rfl | rfl := other
  · rw [accountable.applies, applied]
    rfl
  · rw [accountable.discoveries, discovery]
    rfl
  · rw [accountable.scrapes, scraping]
    rfl

end Accountable

end Session

namespace Threads

variable {ε α : Type} {engines : Engines ε α} {session next : Session ε}

theorem Move.calls (move : Move engines session next) :
    ∃ added, next.calls = session.calls ++ added ∧
      ∀ time, (time, Call.applyDiscovery) ∈ added →
        time = session.now ∧ session.gateIsOpen = true := by
  cases move with
  | step task => exact session.step_calls engines task
  | _ => exact ⟨[], (List.append_nil _).symm, by simp⟩

theorem Move.gateIsOpen (move : Move engines session next)
    (applied : next.count .applyDiscovery ≠ session.count .applyDiscovery) :
    session.gateIsOpen = true := by
  obtain ⟨added, calls, waits⟩ := move.calls
  by_contra closed
  refine applied ?_
  rw [Session.count_append calls, Nat.add_eq_left, List.countP_eq_zero]
  rintro ⟨time, call⟩ member same
  obtain rfl : call = .applyDiscovery := by simpa using same
  exact closed (waits time member).2

/-- How a move changes the scrape task and the gate, if it does. -/
theorem Move.scraping (move : Move engines session next) :
    next.scraping = session.scraping ∧ next.gateIsOpen = session.gateIsOpen ∨
      session.startup = .discovering ∧
        next.scraping = .sleeping (session.now + session.receiver.startupGrace.nanos) ∧
        next.gateIsOpen = session.gateIsOpen ∨
      next = session.scrapingStep engines := by
  cases move with
  | step task =>
      cases task with
      | startup =>
          have scraping := (session.startupStep_runs engines).2
          have gate := (session.startupStep_frame engines).2.2.1
          rw [Session.step]
          cases phase : session.startup with
          | discovering => exact .inr (.inl ⟨rfl, by simpa [phase] using scraping, gate⟩)
          | _ => exact .inl ⟨by simpa [phase] using scraping, gate⟩
      | discovery =>
          obtain ⟨_, _, _, _, _, stepped⟩ := session.discoveryTurn_frame engines
          left
          rw [Session.step, stepped]
          exact ⟨rfl, rfl⟩
      | scraping => exact .inr (.inr rfl)
      | logging =>
          obtain ⟨_, _, stepped⟩ := session.loggingTurn_frame
          left
          rw [Session.step, stepped]
          exact ⟨rfl, rfl⟩
      | engine task => exact .inl ⟨rfl, rfl⟩
  | _ => exact .inl ⟨rfl, rfl⟩

theorem Move.now (move : Move engines session next) : session.now ≤ next.now := by
  cases move with
  | step task =>
      by_cases startup : task = .startup
      · subst startup
        exact Nat.le_of_eq (session.startupStep_frame engines).2.1.symm
      · exact Nat.le_of_eq (session.step_frame engines startup).2.2.2.1.symm
  | wait nanos => exact Nat.le_add_right _ _
  | _ => exact Nat.le_refl _

/-- The gate does not open, and the settings are not applied, before an instant. -/
structure NotBefore (instant : Nat) (session : Session ε) : Prop where
  launched : session.startup.hasLaunchedScraping = true
  asleep : ∀ wake, session.scraping = .sleeping wake → instant ≤ wake
  woken : session.scraping.hasWoken = true → instant ≤ session.now
  applied : ∀ time, (time, Call.applyDiscovery) ∈ session.calls → instant ≤ time

theorem NotBefore.move {instant : Nat} (notBefore : NotBefore instant session)
    (accountable : session.Accountable) (move : Move engines session next) :
    NotBefore instant next := by
  obtain ⟨added, calls, waits⟩ := move.calls
  have applied : ∀ time, (time, Call.applyDiscovery) ∈ next.calls → instant ≤ time := by
    intro time member
    rw [calls] at member
    obtain old | new := List.mem_append.mp member
    · exact notBefore.applied time old
    · obtain ⟨rfl, isOpen⟩ := waits time new
      exact notBefore.woken (accountable.gate.symm.trans isOpen)
  have launched := move.leads.hasLaunchedScraping notBefore.launched
  obtain ⟨scraping, _⟩ | ⟨discovering, _⟩ | rfl := move.scraping
  · refine ⟨launched, ?_, ?_, applied⟩
    · rw [scraping]
      exact notBefore.asleep
    · rw [scraping]
      exact fun woken => Nat.le_trans (notBefore.woken woken) move.now
  · have before := notBefore.launched
    simp [discovering, StartupPhase.hasLaunchedScraping] at before
  · obtain ⟨same, _⟩ | ⟨wake, asleep, due, opened⟩ | ⟨woken, begun, _⟩ :=
      session.scrapingStep_calls engines
    · rw [same]
      exact notBefore
    · refine ⟨launched, ?_, ?_, applied⟩ <;> rw [opened]
      · simp
      · exact fun _ => Nat.le_trans (notBefore.asleep wake asleep) due
    · refine ⟨launched, ?_, ?_, applied⟩
      · intro wake asleep
        simp [asleep, RunPhase.hasBegun] at begun
      · exact fun _ => Nat.le_trans (notBefore.woken woken) move.now

/-- From the launch of the scrape task on, its grace period has to pass first. -/
theorem notBefore_launch (engines : Engines ε α) (accountable : session.Accountable)
    (discovering : session.startup = .discovering) :
    NotBefore (session.now + session.receiver.startupGrace.nanos)
      (session.step engines .startup) := by
  have scraping := (session.startupStep_runs engines).2
  have startup := session.startupStep_startup engines
  have calls := session.startupStep_calls engines
  simp only [discovering, List.append_nil] at scraping startup calls
  refine ⟨?_, ?_, ?_, ?_⟩ <;> rw [Session.step]
  · rw [startup]
    rfl
  · rw [scraping]
    rintro wake ⟨⟩
    exact Nat.le_refl _
  · simp [scraping, RunPhase.hasWoken]
  · rw [calls]
    intro time member
    have none := accountable.applies
    rw [discovering] at none
    have absent := List.countP_eq_zero.mp none _ member
    simp at absent

end Threads

end ScrapeRelay.Lifecycle
