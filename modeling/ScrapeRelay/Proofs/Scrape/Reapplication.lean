import ScrapeRelay.Proofs.Scrape.Coverage

/-!
# Definitions that are installed again

Loops are told apart by the edition of their definition, and every accepted config is an edition
of its own. So the loops that ran before are outdated by any accepted config, the same one
included: the next time the loops are brought in line all of them are stopped, and the targets
that are still wanted get new ones (`accepted_config_restarts_all`). A loop whose definition says
what it said before is not spared.
-/

namespace ScrapeRelay.Scrape

/-- Two definitions that say the same, whenever they were installed. -/
def Installed.Agrees (left right : Installed) : Prop :=
  left.job = right.job ∧ left.interval = right.interval ∧ left.timeout = right.timeout

/-- The target of a loop with its definition, which a loop keeps to its end. -/
def ScrapeLoop.assignment {π : Type} (loop : ScrapeLoop π) : Target × Installed :=
  (loop.target, loop.installed)

namespace Supervisor

variable {κ σ τ π : Type} {supervisor : Supervisor π} {sets : TargetSets} {target : Target}
  {definition : Installed} {place : Nat} {loop : ScrapeLoop π}

theorem cancelLoops_assignments (dropped : List Slot) (loops : List (ScrapeLoop π)) :
    (cancelLoops dropped loops).map ScrapeLoop.assignment = loops.map ScrapeLoop.assignment := by
  rw [cancelLoops, List.map_map]
  refine List.map_congr_left fun loop _ => ?_
  simp only [Function.comp_apply]
  split <;> rfl

/-- Bringing loops in line reassigns none of them. -/
theorem align_assignments (supervisor : Supervisor π) (sets : TargetSets) :
    supervisor.loops.map ScrapeLoop.assignment <+:
      (supervisor.align sets).loops.map ScrapeLoop.assignment := by
  obtain ⟨_, added, _, loops, _, _⟩ := foldl_launch_extends
    (supervisor.keepOnly (isWanted (supervisor.wanted sets))) (supervisor.wanted sets)
  rw [align, loops, List.map_append]
  refine ⟨added.map ScrapeLoop.assignment, congrArg (· ++ _) ?_⟩
  exact (cancelLoops_assignments _ supervisor.loops).symm

theorem setPhase_assignments (phase : LoopPhase π) (found : supervisor.loops[place]? = some loop) :
    (supervisor.setPhase place loop phase).loops.map ScrapeLoop.assignment =
      supervisor.loops.map ScrapeLoop.assignment := by
  obtain ⟨bound, rfl⟩ := List.getElem?_eq_some_iff.mp found
  have inside : place < (supervisor.loops.map ScrapeLoop.assignment).length := by simpa using bound
  have unchanged : (supervisor.loops.map ScrapeLoop.assignment)[place] =
      supervisor.loops[place].assignment := List.getElem_map ..
  rw [setPhase, List.map_set]
  refine Eq.trans (congrArg (List.set _ place) ?_) (List.set_getElem_self inside)
  rw [unchanged]
  rfl

theorem edition_of_wanted (coherent : supervisor.Coherent)
    (wanted : (target, definition) ∈ supervisor.wanted sets) :
    definition.edition = supervisor.edition :=
  coherent.current target.job definition (installed_of_mem_wanted wanted)

/-- When the loops are in line, one that runs does what is wanted. -/
theorem wanted_of_active (coherent : supervisor.Coherent) (inLine : supervisor.IsInLine sets)
    (found : supervisor.loops[place]? = some loop) (active : loop.isCancelled = false) :
    (loop.target, loop.installed) ∈ supervisor.wanted sets := by
  obtain ⟨slot, member, rfl⟩ := coherent.held place loop found active
  obtain ⟨definition, wanted, same⟩ := inLine.1 slot member
  obtain ⟨backing, backed, own, edition, _⟩ := coherent.backed slot member
  obtain rfl := Option.some.inj (found.symm.trans backed)
  have authentic := (coherent.authentic loop (List.mem_of_getElem? found)).2
    (edition.trans (same.symm.trans (edition_of_wanted coherent wanted)))
  rw [own, installed_of_mem_wanted wanted] at authentic
  rw [own, ← Option.some.inj authentic]
  exact wanted

/-- When the loops are in line, no outdated one runs. -/
theorem cancelled_of_outdated (coherent : supervisor.Coherent) (inLine : supervisor.IsInLine sets)
    (found : supervisor.loops[place]? = some loop)
    (outdated : loop.installed.edition < supervisor.edition) : loop.isCancelled = true := by
  cases cancelled : loop.isCancelled with
  | true => rfl
  | false =>
      have current := edition_of_wanted coherent (wanted_of_active coherent inLine found cancelled)
      omega

/-- When the loops are in line, what is wanted is done by a loop with the current definition. -/
theorem loop_of_wanted (coherent : supervisor.Coherent) (inLine : supervisor.IsInLine sets)
    (wanted : (target, definition) ∈ supervisor.wanted sets) :
    ∃ (place : Nat) (loop : ScrapeLoop π), supervisor.loops[place]? = some loop ∧
      loop.target = target ∧ loop.installed = definition ∧ loop.isCancelled = false := by
  obtain ⟨slot, member, rfl, same⟩ := inLine.2 target definition wanted
  obtain ⟨loop, found, own, edition, active⟩ := coherent.backed slot member
  have current := edition_of_wanted coherent wanted
  have authentic := (coherent.authentic loop (List.mem_of_getElem? found)).2
    (edition.trans (same.trans current))
  rw [own, installed_of_mem_wanted wanted] at authentic
  exact ⟨slot.number, loop, found, own, (Option.some.inj authentic).symm, active⟩

/-- The definitions of the same config agree, whichever edition they are of. -/
theorem wanted_of_reapplied {other : Supervisor π} {edition renewed : Nat}
    {config : Config.Scrape} (valid : config.validate = .ok ())
    (installed : supervisor.installed = definitions edition config)
    (renewal : other.installed = definitions renewed config)
    (wanted : (target, definition) ∈ supervisor.wanted sets) :
    ∃ newer, (target, newer) ∈ other.wanted sets ∧ definition.Agrees newer := by
  obtain ⟨name, groups, listed, held, made⟩ := mem_wanted_iff.mp wanted
  rw [installed] at held
  obtain ⟨job, member, own, rfl⟩ := (get?_definitions_iff valid).mp held
  refine ⟨.ofJob renewed config.global job, mem_wanted_iff.mpr ⟨name, groups, listed, ?_, made⟩,
    rfl, rfl, rfl⟩
  rw [renewal]
  exact (get?_definitions_iff valid).mpr ⟨job, member, own, rfl⟩

/-- From one state to a later one only changed jobs are disturbed: a loop goes on if its target is
still wanted, with a definition that agrees with that of the loop. -/
def DisturbsOnlyChanged (sets : TargetSets) (before after : Supervisor π) : Prop :=
  ∀ (place : Nat) (loop : ScrapeLoop π) definition, before.loops[place]? = some loop →
    loop.isCancelled = false → (loop.target, definition) ∈ after.wanted sets →
    loop.installed.Agrees definition →
    ∃ kept, after.loops[place]? = some kept ∧ kept.isCancelled = false

end Supervisor

namespace Station

variable {κ σ τ π : Type} {equipment : Equipment κ σ τ π} {station : Station κ σ π}
  {shared : Shared κ σ} {initial : TargetSets}

/-- Loops are only added, and none is reassigned. -/
theorem perform_assignments (equipment : Equipment κ σ τ π) (attentive : station.Attentive)
    (event : Event) :
    station.supervisor.loops.map ScrapeLoop.assignment <+:
      (perform equipment station event).supervisor.loops.map ScrapeLoop.assignment := by
  have reacting (managing : event = .enter ∨ event = .manage) :
      station.supervisor.loops.map ScrapeLoop.assignment <+:
        (perform equipment station event).supervisor.loops.map ScrapeLoop.assignment := by
    cases observed : station.observed? event with
    | none =>
        rewrite [perform_unobserved attentive.isOpen managing observed]
        exact List.prefix_rfl
    | some sets =>
        obtain ⟨new, performed⟩ := perform_observed equipment observed
        rw [performed]
        exact Supervisor.align_assignments { station.supervisor with
          hasNewDefinitions := new
          managing := .active station.board.version sets } sets
  cases event with
  | post sets => exact List.prefix_rfl
  | install config =>
      cases validated : config.validate with
      | error failure =>
          rewrite [perform_install_invalid validated]
          exact List.prefix_rfl
      | ok _ =>
          rewrite [perform_install validated]
          exact List.prefix_rfl
  | enter => exact reacting (.inl rfl)
  | manage => exact reacting (.inr rfl)
  | loop now place =>
      obtain same | ⟨loop, found, turned⟩ := Supervisor.loopStep_cases equipment false now place
        station.shared station.supervisor
      · exact (congrArg (fun after => after.loops.map ScrapeLoop.assignment) same).symm ▸
          List.prefix_rfl
      · have kept := Supervisor.setPhase_assignments
          (loop.step equipment false now station.shared).phase found
        rw [← turned] at kept
        exact kept.symm ▸ List.prefix_rfl

theorem run_assignments (equipment : Equipment κ σ τ π) (attentive : station.Attentive)
    (events : List Event) :
    station.supervisor.loops.map ScrapeLoop.assignment <+:
      (run equipment station events).supervisor.loops.map ScrapeLoop.assignment := by
  induction events generalizing station with
  | nil => exact List.prefix_rfl
  | cons event rest ih =>
      exact (perform_assignments equipment attentive event).trans
        (ih (attentive.perform equipment event))

/-- A loop stays where it is, with its definition. -/
theorem run_installed (equipment : Equipment κ σ τ π) (attentive : station.Attentive)
    (events : List Event) {place : Nat} {loop : ScrapeLoop π}
    (found : station.supervisor.loops[place]? = some loop) :
    ∃ kept, (run equipment station events).supervisor.loops[place]? = some kept ∧
      kept.installed = loop.installed := by
  obtain ⟨inside, rfl⟩ := List.getElem?_eq_some_iff.mp found
  have later := List.prefix_iff_getElem?.mp (run_assignments equipment attentive events) place
    (by simpa using inside)
  rw [List.getElem?_map, List.getElem_map] at later
  obtain ⟨kept, foundLater, same⟩ := Option.map_eq_some_iff.mp later
  exact ⟨kept, foundLater, congrArg Prod.snd same⟩

theorem observed_inLine (equipment : Equipment κ σ τ π) {reaction : Event} {sets : TargetSets}
    (observed : station.observed? reaction = some sets) :
    (perform equipment station reaction).supervisor.IsInLine sets := by
  obtain ⟨new, performed⟩ := perform_observed equipment observed
  rw [performed]
  exact Supervisor.align_isInLine _ sets

section Accepted

variable {before between : List Event} {config : Config.Scrape} {reaction : Event}
  {sets : TargetSets}

theorem acceptances_lt (valid : config.validate = .ok ()) :
    acceptances before < acceptances (before ++ .install config :: between ++ [reaction]) := by
  have accepted : (Event.install config).installs = true := by
    simp [Event.installs, valid, Except.isOk, Except.toBool]
  simp only [acceptances, List.countP_append, List.countP_cons, accepted, if_true]
  omega

/-- A loop that ran before a config was accepted is stopped the next time the loops are brought in
line. -/
theorem run_stops (equipment : Equipment κ σ τ π) (shared : Shared κ σ) (initial : TargetSets)
    (valid : config.validate = .ok ())
    (observed : (run equipment (new shared initial)
      (before ++ .install config :: between)).observed? reaction = some sets)
    {place : Nat} {loop : ScrapeLoop π}
    (found : (run equipment (new shared initial) before).supervisor.loops[place]? = some loop) :
    ∃ stopped, (run equipment (new shared initial)
        (before ++ .install config :: between ++ [reaction])).supervisor.loops[place]? =
          some stopped ∧ stopped.isCancelled = true := by
  have attentive := run_attentive equipment shared initial before
  have later := run_attentive equipment shared initial
    (before ++ .install config :: between ++ [reaction])
  have inLine := observed_inLine equipment observed
  rw [← run_concat] at inLine
  obtain ⟨kept, foundLater, same⟩ := run_installed equipment attentive
    (.install config :: between ++ [reaction]) found
  rw [← run_append, ← List.append_assoc] at foundLater
  refine ⟨kept, foundLater, Supervisor.cancelled_of_outdated later.coherent inLine foundLater ?_⟩
  rw [same, (run_recalls equipment shared initial _).edition]
  have old := (attentive.coherent.authentic loop (List.mem_of_getElem? found)).1
  rw [(run_recalls equipment shared initial before).edition] at old
  exact Nat.lt_of_le_of_lt old (acceptances_lt valid)

/-- After a config was accepted, and whatever else happened, the next time the loops are brought in
line all that ran before are stopped, and what is wanted is done by loops that were started since.
So only changed jobs are disturbed exactly if there was no loop that an unchanged job had kept. -/
theorem accepted_config_restarts_all (equipment : Equipment κ σ τ π) (shared : Shared κ σ)
    (initial : TargetSets) (before between : List Event) (config : Config.Scrape)
    (valid : config.validate = .ok ()) (reaction : Event) (sets : TargetSets)
    (observed : (run equipment (new shared initial)
      (before ++ .install config :: between)).observed? reaction = some sets) :
    let earlier := (run equipment (new shared initial) before).supervisor
    let later := (run equipment (new shared initial)
      (before ++ .install config :: between ++ [reaction])).supervisor
    (∀ (place : Nat) loop, earlier.loops[place]? = some loop →
      ∃ stopped, later.loops[place]? = some stopped ∧ stopped.isCancelled = true) ∧
    (∀ target definition, (target, definition) ∈ later.wanted sets →
      ∃ place loop, earlier.loops.length ≤ place ∧ later.loops[place]? = some loop ∧
        loop.target = target ∧ loop.installed = definition ∧ loop.isCancelled = false) ∧
    (Supervisor.DisturbsOnlyChanged sets earlier later ↔
      ∀ (place : Nat) loop definition, earlier.loops[place]? = some loop →
        loop.isCancelled = false → (loop.target, definition) ∈ later.wanted sets →
        ¬loop.installed.Agrees definition) := by
  intro earlier later
  have stops (place : Nat) (loop : ScrapeLoop π) (found : earlier.loops[place]? = some loop) :
      ∃ stopped, later.loops[place]? = some stopped ∧ stopped.isCancelled = true :=
    run_stops equipment shared initial valid observed found
  have coherent : later.Coherent := (run_attentive equipment shared initial _).coherent
  have inLine : later.IsInLine sets := by
    have reacted := observed_inLine equipment observed
    rwa [← run_concat] at reacted
  refine ⟨stops, ?_, ?_⟩
  · intro target definition wanted
    obtain ⟨place, loop, found, own, same, active⟩ :=
      Supervisor.loop_of_wanted coherent inLine wanted
    refine ⟨place, loop, Nat.le_of_not_lt fun inside => ?_, found, own, same, active⟩
    obtain ⟨stopped, foundStopped, cancelled⟩ := stops place _ (List.getElem?_eq_getElem inside)
    obtain rfl := Option.some.inj (found.symm.trans foundStopped)
    cases active.symm.trans cancelled
  · constructor
    · intro spares place loop definition found active wanted agrees
      obtain ⟨kept, foundKept, goesOn⟩ := spares place loop definition found active wanted agrees
      obtain ⟨stopped, foundStopped, cancelled⟩ := stops place loop found
      obtain rfl := Option.some.inj (foundKept.symm.trans foundStopped)
      cases goesOn.symm.trans cancelled
    · intro nothing place loop definition found active wanted agrees
      exact absurd agrees (nothing place loop definition found active wanted)

/-- A station of a job with one address, whose config is accepted once more. -/
theorem accepted_config_restarts_all_web :
    let start := new ⟨(), ()⟩ (soleSets "web" "a:1")
    let before : List Event := [.install ⟨.default, [.named "web"]⟩, .enter, .loop 0 0]
    let later := (run idleEquipment start
      (before ++ .install ⟨.default, [.named "web"]⟩ :: [] ++ [.manage])).supervisor
    Config.Scrape.validate ⟨.default, [.named "web"]⟩ = .ok () ∧
      (run idleEquipment start
        (before ++ .install ⟨.default, [.named "web"]⟩ :: [])).observed? .manage =
          some (soleSets "web" "a:1") ∧
      ∃ stopped, later.loops[0]? = some stopped ∧ stopped.isCancelled = true := by
  intro start before later
  have valid : Config.Scrape.validate ⟨.default, [.named "web"]⟩ = .ok () := by decide +kernel
  have observed : (run idleEquipment start
      (before ++ .install ⟨.default, [.named "web"]⟩ :: [])).observed? .manage =
        some (soleSets "web" "a:1") := by decide +kernel
  have started : (run idleEquipment start before).supervisor.loops[0]?.isSome = true := by
    decide +kernel
  obtain ⟨loop, found⟩ := Option.isSome_iff_exists.mp started
  have stops := (accepted_config_restarts_all idleEquipment ⟨(), ()⟩ (soleSets "web" "a:1") before
    [] ⟨.default, [.named "web"]⟩ valid .manage _ observed).1
  exact ⟨valid, observed, stops 0 loop found⟩

end Accepted

/-- At rest, it takes newly installed definitions for the managing task to look at the targets
again, and it finds those it knows. -/
theorem observed_of_rest (equipment : Equipment κ σ τ π) {config : Config.Scrape}
    (attentive : station.Attentive)
    (rest : station.isAtRest = true) (valid : config.validate = .ok ()) :
    (perform equipment station (.install config)).observed? .manage =
      some station.board.value := by
  simp only [isAtRest, Bool.and_eq_true, Bool.not_eq_true', Supervisor.mustManage] at rest
  cases managing : station.supervisor.managing with
  | active seen sets =>
      simp only [managing, Bool.false_or, Bool.or_eq_false_iff] at rest
      obtain ⟨_, ⟨current, _⟩, _⟩ := rest
      have current : station.board.version = seen := by simpa using current
      have same := (attentive.seen seen sets managing).2 current.symm
      simp [perform_install valid, observed?, managing, current, attentive.isOpen, same]
  | idle => simp [managing, Managing.isActive] at rest
  | ended => simp [managing, Managing.isActive] at rest

theorem Recalls.installed_of_latest {events : List Event} {config : Config.Scrape}
    (recalls : station.Recalls initial events) (latest : latestConfig events = some config) :
    station.supervisor.installed = Supervisor.definitions (acceptances events) config := by
  rw [recalls.installed, latest]
  rfl

theorem latestConfig_renewed {events : List Event} {config : Config.Scrape}
    (valid : config.validate = .ok ()) :
    latestConfig (events ++ .install config :: [] ++ [.manage]) = some config := by
  rw [latestConfig_concat, latestConfig_concat]
  simp [Event.configAfter, Event.installs, valid, Except.isOk, Except.toBool]

/-- The same config, accepted again at a station at rest, disturbs every loop that runs, although no
job was changed. -/
theorem reapplied_disturbs (equipment : Equipment κ σ τ π) (shared : Shared κ σ)
    (initial : TargetSets) {events : List Event} {config : Config.Scrape}
    (latest : latestConfig events = some config)
    (rest : (run equipment (new shared initial) events).isAtRest = true)
    {place : Nat} {loop : ScrapeLoop π} (active : loop.isCancelled = false)
    (found : (run equipment (new shared initial) events).supervisor.loops[place]? = some loop) :
    ¬Supervisor.DisturbsOnlyChanged (latestSets initial events)
      (run equipment (new shared initial) events).supervisor
      (run equipment (new shared initial)
        (events ++ .install config :: [] ++ [.manage])).supervisor := by
  intro spares
  have recalls := run_recalls equipment shared initial events
  have attentive := run_attentive equipment shared initial events
  have valid := recalls.valid config latest
  have observed := observed_of_rest equipment attentive rest valid
  rw [← run_concat, recalls.value] at observed
  have inLine := attentive.rest rest
  rw [recalls.value] at inLine
  have renewed := (run_recalls equipment shared initial
    (events ++ .install config :: [] ++ [.manage])).installed_of_latest (latestConfig_renewed valid)
  obtain ⟨newer, wanted, agrees⟩ := Supervisor.wanted_of_reapplied valid
    (recalls.installed_of_latest latest) renewed
    (Supervisor.wanted_of_active attentive.coherent inLine found active)
  obtain ⟨kept, foundKept, goesOn⟩ := spares place loop newer found active wanted agrees
  obtain ⟨stopped, foundStopped, cancelled⟩ :=
    run_stops equipment shared initial valid observed found
  obtain rfl := Option.some.inj (foundKept.symm.trans foundStopped)
  cases goesOn.symm.trans cancelled

/-- The same config, accepted again, stops the loop of a target that is still there and whose
definition says what it said before. -/
theorem reapplied_disturbs_web :
    let start := new ⟨(), ()⟩ (soleSets "web" "a:1")
    let before : List Event := [.install ⟨.default, [.named "web"]⟩, .enter, .manage, .loop 0 0]
    let earlier := run idleEquipment start before
    let later := run idleEquipment start
      (before ++ .install ⟨.default, [.named "web"]⟩ :: [] ++ [.manage])
    earlier.isAtRest = true ∧ later.isAtRest = true ∧
      latestConfig before = some ⟨.default, [.named "web"]⟩ ∧
      ¬Supervisor.DisturbsOnlyChanged (soleSets "web" "a:1") earlier.supervisor
        later.supervisor := by
  intro start before earlier later
  have valid : Config.Scrape.validate ⟨.default, [.named "web"]⟩ = .ok () := by decide +kernel
  have latest : latestConfig before = some ⟨.default, [.named "web"]⟩ := by
    simp [before, latestConfig, Event.configAfter, Event.installs, valid, Except.isOk,
      Except.toBool]
  have rest : earlier.isAtRest = true := by decide +kernel
  have running : earlier.supervisor.loops[0]?.map ScrapeLoop.isCancelled = some false := by
    decide +kernel
  have again : later.isAtRest = true := by decide +kernel
  obtain ⟨loop, found, active⟩ := Option.map_eq_some_iff.mp running
  have disturbs := reapplied_disturbs idleEquipment ⟨(), ()⟩ (soleSets "web" "a:1") latest rest
    active found
  exact ⟨rest, again, latest, disturbs⟩

end Station

end ScrapeRelay.Scrape
