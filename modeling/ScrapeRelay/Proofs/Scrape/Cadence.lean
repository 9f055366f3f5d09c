import ScrapeRelay.Proofs.Scrape.Beats
import ScrapeRelay.Proofs.Scrape.Replacement

/-!
# The cadence of scrapes

A loop begins its first scrape when it takes its first turn. All later deadlines are a whole number
of intervals after that, and a scrape begins when a deadline has come and the one before is over,
its commit included. If commits never wait, then no scrape outlasts the interval, since no timeout
does, and a scrape begins at every deadline (`scrapes_keep_cadence`).
-/

namespace ScrapeRelay.Scrape

open Milestone (beginnings Alternate)

variable {κ σ τ π : Type}

/-- Every commit has its result as soon as it is begun. -/
def Sink.NeverBlocks (sink : Sink σ τ π) : Prop :=
  ∀ now state transaction,
    (sink.resume now (sink.commit now state transaction).1
      (sink.commit now state transaction).2).result ≠ none

namespace ScrapeLoop

variable {equipment : Equipment κ σ τ π} {now : Nat} {shared : Shared κ σ} {loop : ScrapeLoop π}

/-- A loop begins a scrape for its deadline as soon as that has come. -/
theorem step_of_free (equipment : Equipment κ σ τ π) {cancelled : Bool} (shared : Shared κ σ)
    (goesOn : (cancelled || loop.isCancelled) = false)
    (free : loop.phase = .launched ∨ ∃ deadline ≤ now, loop.phase = .waiting deadline) :
    loop.isReady equipment cancelled now shared = true ∧
      loop.step equipment cancelled now shared =
        loop.tick equipment now (loop.phase.deadline now) shared := by
  rw [step, goesOn, if_neg Bool.false_ne_true]
  obtain phase | ⟨deadline, reached, phase⟩ := free
  · simp [isReady, phase, LoopPhase.deadline]
  · simp [isReady, phase, LoopPhase.deadline, reached]

/-- A loop that is busy leaves the scraper alone, and is busy or waits afterwards. -/
theorem step_of_busy {cancelled : Bool} (goesOn : (cancelled || loop.isCancelled) = false)
    (ready : loop.isReady equipment cancelled now shared = true) {next : Nat}
    (busy : loop.phase.next? = some next) :
    (loop.step equipment cancelled now shared).shared.scraper = shared.scraper ∧
      ((loop.step equipment cancelled now shared).phase = .waiting next ∨
        ∃ rest, (loop.step equipment cancelled now shared).phase = .committing next rest) := by
  rw [step, goesOn, if_neg Bool.false_ne_true]
  cases phase : loop.phase with
  | scraping following started response =>
      simp only [phase, LoopPhase.next?, Option.some.injEq] at busy
      subst busy
      simp only [isReady, phase, goesOn, Bool.false_or] at ready
      obtain ⟨outcome, known⟩ := Option.isSome_iff_exists.mp ready
      simp only [known]
      exact conclude_cases equipment now following started outcome shared loop
  | committing following commit =>
      simp only [phase, LoopPhase.next?, Option.some.injEq] at busy
      subst busy
      exact resume_cases equipment now following commit shared loop
  | _ => simp [phase, LoopPhase.next?] at busy

theorem conclude_uncommitted (never : equipment.sink.NeverBlocks) (now next started : Nat)
    (outcome : Outcome) (shared : Shared κ σ) (loop : ScrapeLoop π) :
    (loop.conclude equipment now next started outcome shared).phase = .waiting next := by
  unfold conclude handOver
  dsimp only
  split
  · rename_i commit handed
    split at handed
    · cases handed
    · rename_i state transaction _
      obtain rfl := Option.some.inj handed
      have result := never now state transaction
      unfold resume
      dsimp only
      split
      · rfl
      · rename_i waits
        exact absurd waits result
  · rfl

/-- If commits never wait, then no loop waits for one. -/
theorem step_uncommitted (never : equipment.sink.NeverBlocks) {cancelled : Bool}
    (before : ∀ next commit, loop.phase ≠ .committing next commit) :
    ∀ next commit, (loop.step equipment cancelled now shared).phase ≠ .committing next commit := by
  intro next commit
  rw [step]
  split
  · simp
  cases phase : loop.phase with
  | scraping following started response =>
      dsimp only
      split
      · rw [conclude_uncommitted never]
        simp
      · simp
  | committing following pending => exact absurd phase (before following pending)
  | _ => simp [tick]

end ScrapeLoop

namespace Workshop

variable {equipment : Equipment κ σ τ π} {workshop : Workshop κ σ π} {incident : Incident κ σ}
  {place : Nat} {loop : ScrapeLoop π}

/-! ## The milestones of a loop -/

/-- What a turn of the loop at a place brings about. A scrape begins when the scraper is asked. -/
def milestone? (equipment : Equipment κ σ τ π) (workshop : Workshop κ σ π) (place : Nat) :
    Option Milestone :=
  match workshop.supervisor.loops[place]?,
    (workshop.turn equipment place).1.supervisor.loops[place]? with
  | some before, some after =>
      if !(workshop.deeds equipment place).scrapes.isEmpty then
        some (.begins ⟨before.phase.deadline workshop.now, workshop.now⟩)
      else if before.phase.isBusy && !after.phase.isBusy then some .settles
      else none
  | _, _ => none

def milestoneOf? (equipment : Equipment κ σ τ π) (place : Nat) (workshop : Workshop κ σ π) :
    Incident κ σ → Option Milestone
  | .turn turned => if turned = place then workshop.milestone? equipment place else none
  | _ => none

/-- The milestones of the loop at a place in a run. -/
def milestones (equipment : Equipment κ σ τ π) (place : Nat) (workshop : Workshop κ σ π) :
    List (Incident κ σ) → List Milestone
  | [] => []
  | incident :: rest =>
      (milestoneOf? equipment place workshop incident).toList ++
        milestones equipment place (perform equipment workshop incident) rest

theorem milestones_concat (equipment : Equipment κ σ τ π) (place : Nat)
    (workshop : Workshop κ σ π) (incidents : List (Incident κ σ)) (incident : Incident κ σ) :
    milestones equipment place workshop (incidents ++ [incident]) =
      milestones equipment place workshop incidents ++
        (milestoneOf? equipment place (run equipment workshop incidents) incident).toList := by
  induction incidents generalizing workshop with
  | nil => simp [milestones, run]
  | cons first rest ih =>
      rw [List.cons_append, milestones, ih, milestones, List.append_assoc]
      rfl

theorem milestone?_eq {after : ScrapeLoop π}
    (found : workshop.supervisor.loops[place]? = some loop)
    (foundAfter : (workshop.turn equipment place).1.supervisor.loops[place]? = some after) :
    workshop.milestone? equipment place =
      if !(workshop.deeds equipment place).scrapes.isEmpty then
        some (.begins ⟨loop.phase.deadline workshop.now, workshop.now⟩)
      else if loop.phase.isBusy && !after.phase.isBusy then some .settles
      else none := by
  rw [milestone?, found, foundAfter]

/-- A loop that is told to stop, or has nothing to do, does not ask its target. -/
theorem scrapes_of_idle (found : workshop.supervisor.loops[place]? = some loop)
    (idle : loop.isReady equipment.traced workshop.isCancelled workshop.now
      workshop.shared.untouched = false) :
    (workshop.deeds equipment place).scrapes = [] := by
  have idle : ∀ other, workshop.supervisor.loops[place]? = some other →
      other.isReady equipment.traced workshop.isCancelled workshop.now
        workshop.shared.untouched = false := by
    intro other foundOther
    obtain rfl := Option.some.inj (found.symm.trans foundOther)
    exact idle
  have turn : turn equipment.traced { workshop with shared := workshop.shared.untouched } place =
      ({ workshop with shared := workshop.shared.untouched }, []) := turn_of_not_ready idle
  rw [deeds, turn]
  rfl

theorem scrapes_of_busy (equipment : Equipment κ σ τ π)
    (found : workshop.supervisor.loops[place]? = some loop)
    (goesOn : workshop.stops loop = false) {next : Nat} (busy : loop.phase.next? = some next) :
    (workshop.deeds equipment place).scrapes = [] := by
  cases ready : loop.isReady equipment.traced workshop.isCancelled workshop.now
      workshop.shared.untouched with
  | false => exact scrapes_of_idle found ready
  | true =>
      have foundTraced : ({ workshop with shared := workshop.shared.untouched } :
          Workshop (Traced Target κ) (Traced SinkDeed σ) π).supervisor.loops[place]? =
            some loop := found
      have step := ScrapeLoop.step_of_busy goesOn ready busy
      rw [deeds, turn_of_ready foundTraced ready, step.1]
      rfl

theorem scrapes_of_free (found : workshop.supervisor.loops[place]? = some loop)
    (goesOn : workshop.stops loop = false)
    (free : loop.phase = .launched ∨ ∃ deadline ≤ workshop.now, loop.phase = .waiting deadline) :
    (workshop.deeds equipment place).scrapes = [loop.target] := by
  have foundTraced : ({ workshop with shared := workshop.shared.untouched } :
      Workshop (Traced Target κ) (Traced SinkDeed σ) π).supervisor.loops[place]? = some loop :=
    found
  obtain ⟨ready, step⟩ :=
    ScrapeLoop.step_of_free equipment.traced workshop.shared.untouched goesOn free
  rw [deeds, turn_of_ready foundTraced ready, step]
  rfl

theorem milestone?_of_scrapes {after : ScrapeLoop π}
    (found : workshop.supervisor.loops[place]? = some loop)
    (foundAfter : (workshop.turn equipment place).1.supervisor.loops[place]? = some after)
    (asked : (workshop.deeds equipment place).scrapes = [loop.target]) :
    workshop.milestone? equipment place =
      some (.begins ⟨loop.phase.deadline workshop.now, workshop.now⟩) := by
  rw [milestone?_eq found foundAfter, asked]
  rfl

theorem milestone?_of_none {after : ScrapeLoop π}
    (found : workshop.supervisor.loops[place]? = some loop)
    (foundAfter : (workshop.turn equipment place).1.supervisor.loops[place]? = some after)
    (none : (workshop.deeds equipment place).scrapes = []) :
    workshop.milestone? equipment place =
      if loop.phase.isBusy && !after.phase.isBusy then some .settles else Option.none := by
  rw [milestone?_eq found foundAfter, none]
  rfl

/-- A turn of a loop that has nothing to do changes nothing. -/
theorem turn_of_idle (found : workshop.supervisor.loops[place]? = some loop)
    (idle : loop.isReady equipment workshop.isCancelled workshop.now workshop.shared = false) :
    workshop.turn equipment place = (workshop, []) ∧
      workshop.milestone? equipment place = none := by
  have idleAll : ∀ other, workshop.supervisor.loops[place]? = some other →
      other.isReady equipment workshop.isCancelled workshop.now workshop.shared = false := by
    intro other foundOther
    obtain rfl := Option.some.inj (found.symm.trans foundOther)
    exact idle
  have turn : workshop.turn equipment place = (workshop, []) := turn_of_not_ready idleAll
  have traced : loop.isReady equipment.traced workshop.isCancelled workshop.now
      workshop.shared.untouched =
        loop.isReady equipment workshop.isCancelled workshop.now workshop.shared := rfl
  have foundAfter : (workshop.turn equipment place).1.supervisor.loops[place]? = some loop := by
    rw [turn]
    exact found
  rw [milestone?_of_none found foundAfter (scrapes_of_idle found (traced.trans idle))]
  exact ⟨turn, by simp⟩

theorem turn_of_free (equipment : Equipment κ σ τ π)
    (found : workshop.supervisor.loops[place]? = some loop)
    (goesOn : workshop.stops loop = false)
    (free : loop.phase = .launched ∨ ∃ deadline ≤ workshop.now, loop.phase = .waiting deadline) :
    ∃ response, (perform equipment workshop (.turn place)).supervisor.loops[place]? =
        some { loop with phase := .scraping (nextDeadline loop.installed.interval
          (loop.phase.deadline workshop.now) workshop.now) workshop.now response } ∧
      workshop.milestone? equipment place =
        some (.begins ⟨loop.phase.deadline workshop.now, workshop.now⟩) := by
  obtain ⟨ready, step⟩ := ScrapeLoop.step_of_free equipment workshop.shared goesOn free
  have turned := turn_loop found ready
  rw [step] at turned
  exact ⟨_, turned, milestone?_of_scrapes found turned (scrapes_of_free found goesOn free)⟩

theorem turn_of_busy (found : workshop.supervisor.loops[place]? = some loop)
    (goesOn : workshop.stops loop = false)
    (ready : loop.isReady equipment workshop.isCancelled workshop.now workshop.shared = true)
    {next : Nat} (busy : loop.phase.next? = some next) :
    ∃ phase, (perform equipment workshop (.turn place)).supervisor.loops[place]? =
        some { loop with phase := phase } ∧
      (phase = .waiting next ∧ workshop.milestone? equipment place = some .settles ∨
        ∃ commit, phase = .committing next commit ∧
          workshop.milestone? equipment place = none) := by
  have turned := turn_loop found ready
  have none := scrapes_of_busy equipment found goesOn busy
  have milestone := milestone?_of_none found turned none
  have own := LoopPhase.isBusy_of_next? busy
  obtain ⟨_, phase | ⟨commit, phase⟩⟩ := ScrapeLoop.step_of_busy goesOn ready busy
  · rw [phase] at turned milestone
    exact ⟨_, turned, .inl ⟨rfl, by rw [milestone, own]; rfl⟩⟩
  · rw [phase] at turned milestone
    exact ⟨_, turned, .inr ⟨commit, rfl, by rw [milestone, own]; rfl⟩⟩

/-- The last beat of a loop, which is to stop. -/
theorem turn_beat_of_stopped (equipment : Equipment κ σ τ π)
    (found : workshop.supervisor.loops[place]? = some loop)
    (stopped : workshop.stops loop = true) :
    ∃ phase, (perform equipment workshop (.turn place)).supervisor.loops[place]? =
        some { loop with phase := phase } ∧
      Beat loop.installed.interval workshop.now true loop.phase phase
        (workshop.milestone? equipment place) := by
  obtain ⟨supervisor, turn, foundAfter⟩ := turn_of_stopped equipment found stopped
  have foundTurn : (workshop.turn equipment place).1.supervisor.loops[place]? =
      some { loop with phase := .finished } := by
    rw [turn]
    exact foundAfter
  have silent := isSilent_of_stopped equipment found stopped
  have milestone := milestone?_of_none found foundTurn silent.scrapes
  rw [show (loop.phase.isBusy && !LoopPhase.isBusy (.finished : LoopPhase π)) =
    loop.phase.isBusy from Bool.and_true _] at milestone
  rw [milestone]
  exact ⟨.finished, foundTurn, .stop loop.phase⟩

/-- The beat of a loop in the middle of a cycle. -/
theorem turn_beat_of_busy (found : workshop.supervisor.loops[place]? = some loop)
    (goesOn : workshop.stops loop = false)
    (ready : loop.isReady equipment workshop.isCancelled workshop.now workshop.shared = true)
    {next : Nat} (busy : loop.phase.next? = some next) :
    ∃ phase, (perform equipment workshop (.turn place)).supervisor.loops[place]? =
        some { loop with phase := phase } ∧
      Beat loop.installed.interval workshop.now false loop.phase phase
        (workshop.milestone? equipment place) := by
  obtain ⟨phase, turned, ⟨rfl, milestone⟩ | ⟨commit, rfl, milestone⟩⟩ :=
    turn_of_busy found goesOn ready busy
  · rw [milestone]
    exact ⟨_, turned, .settle _ next busy⟩
  · rw [milestone]
    exact ⟨_, turned, .commit _ next commit busy⟩

/-- A turn takes a loop one beat further. -/
theorem turn_beat (equipment : Equipment κ σ τ π)
    (found : workshop.supervisor.loops[place]? = some loop) :
    ∃ phase, (perform equipment workshop (.turn place)).supervisor.loops[place]? =
        some { loop with phase := phase } ∧
      Beat loop.installed.interval workshop.now (workshop.stops loop) loop.phase phase
        (workshop.milestone? equipment place) := by
  cases ready : loop.isReady equipment workshop.isCancelled workshop.now workshop.shared with
  | false =>
      obtain ⟨turn, milestone⟩ := turn_of_idle found ready
      rw [perform, turn, milestone]
      exact ⟨loop.phase, found, .rest _ _⟩
  | true =>
      cases goesOn : workshop.stops loop with
      | true => exact turn_beat_of_stopped equipment found goesOn
      | false =>
          cases phase : loop.phase with
          | launched =>
              obtain ⟨response, turned, milestone⟩ :=
                turn_of_free equipment found goesOn (.inl phase)
              rw [phase] at turned milestone
              rw [milestone]
              exact ⟨_, turned, .launch response⟩
          | waiting deadline =>
              have reached : deadline ≤ workshop.now := by
                rw [stops] at goesOn
                simpa [ScrapeLoop.isReady, phase, goesOn] using ready
              obtain ⟨response, turned, milestone⟩ :=
                turn_of_free equipment found goesOn (.inr ⟨deadline, reached, phase⟩)
              rw [phase] at turned milestone
              rw [milestone]
              exact ⟨_, turned, .tick deadline response reached⟩
          | scraping next started response =>
              rw [← phase]
              exact turn_beat_of_busy found goesOn ready (by rw [phase]; rfl)
          | committing next commit =>
              rw [← phase]
              exact turn_beat_of_busy found goesOn ready (by rw [phase]; rfl)
          | finished => simp [ScrapeLoop.isReady, phase] at ready

theorem milestoneOf?_of_elsewhere (elsewhere : incident ≠ .turn place) :
    milestoneOf? equipment place workshop incident = none := by
  cases incident with
  | turn turned =>
      apply if_neg
      intro same
      exact elsewhere (congrArg Incident.turn same)
  | _ => rfl

/-- Any incident takes a loop at most one beat further. -/
theorem perform_beat (equipment : Equipment κ σ τ π) (incident : Incident κ σ)
    (found : workshop.supervisor.loops[place]? = some loop) :
    ∃ cancelled phase, (perform equipment workshop incident).supervisor.loops[place]? =
        some { loop with isCancelled := cancelled, phase := phase } ∧
      Beat loop.installed.interval workshop.now (workshop.stops loop) loop.phase phase
        (milestoneOf? equipment place workshop incident) := by
  by_cases own : incident = .turn place
  · subst own
    obtain ⟨phase, turned, beat⟩ := turn_beat equipment found
    rw [milestoneOf?, if_pos rfl]
    exact ⟨loop.isCancelled, phase, turned, beat⟩
  · obtain ⟨cancelled, kept, _⟩ := (perform_move equipment workshop incident).keeps own found
    rw [milestoneOf?_of_elsewhere own]
    exact ⟨cancelled, loop.phase, kept, .rest _ _⟩

theorem milestoneOf?_of_absent (absent : workshop.supervisor.loops[place]? = none)
    (incident : Incident κ σ) : milestoneOf? equipment place workshop incident = none := by
  by_cases own : incident = .turn place
  · subst own
    rw [milestoneOf?, if_pos rfl, milestone?, absent]
  · exact milestoneOf?_of_elsewhere own

theorem perform_uncommitted (never : equipment.sink.NeverBlocks) (incident : Incident κ σ)
    (found : workshop.supervisor.loops[place]? = some loop)
    (before : ∀ next commit, loop.phase ≠ .committing next commit) {after : ScrapeLoop π}
    (foundAfter : (perform equipment workshop incident).supervisor.loops[place]? = some after) :
    ∀ next commit, after.phase ≠ .committing next commit := by
  by_cases own : incident = .turn place
  · subst own
    cases ready : loop.isReady equipment workshop.isCancelled workshop.now workshop.shared with
    | false =>
        rw [perform, (turn_of_idle found ready).1] at foundAfter
        obtain rfl := Option.some.inj (found.symm.trans foundAfter)
        exact before
    | true =>
        obtain rfl := Option.some.inj ((turn_loop found ready).symm.trans foundAfter)
        exact ScrapeLoop.step_uncommitted never before
  · obtain ⟨cancelled, kept, _⟩ := (perform_move equipment workshop incident).keeps own found
    obtain rfl := Option.some.inj (kept.symm.trans foundAfter)
    exact before

/-- A loop that goes on after an incident went on before. -/
theorem goesOn_of_perform (equipment : Equipment κ σ τ π) (incident : Incident κ σ)
    (found : workshop.supervisor.loops[place]? = some loop) {after : ScrapeLoop π}
    (foundAfter : (perform equipment workshop incident).supervisor.loops[place]? = some after)
    (goesOn : (perform equipment workshop incident).stops after = false) :
    workshop.stops loop = false := by
  obtain ⟨_, later, _, remains⟩ := perform_follows equipment incident found
  obtain rfl := Option.some.inj (later.symm.trans foundAfter)
  obtain ⟨supervisor, own⟩ := Bool.or_eq_false_iff.mp goesOn
  have supervisorBefore := mt (perform_isCancelled equipment workshop incident) (by simp [supervisor])
  have ownBefore := mt remains (by simp [own])
  simp [stops, supervisorBefore, ownBefore]

/-- Whether the loop at a place has nothing to do while time passes, and the time does not go
beyond the instant at which it has. -/
def heeds (equipment : Equipment κ σ τ π) (place : Nat) (workshop : Workshop κ σ π) :
    Incident κ σ → Bool
  | .wait nanos =>
      workshop.supervisor.loops[place]?.all (fun loop =>
        !loop.isReady equipment workshop.isCancelled workshop.now workshop.shared &&
          (loop.due equipment workshop.shared).all (fun due => workshop.now + nanos ≤ due))
  | _ => true

/-- Whether the loop at a place takes its turns as soon as it has something to do. -/
def isPunctual (equipment : Equipment κ σ τ π) (place : Nat) (workshop : Workshop κ σ π) :
    List (Incident κ σ) → Bool
  | [] => true
  | incident :: rest =>
      heeds equipment place workshop incident &&
        isPunctual equipment place (perform equipment workshop incident) rest

theorem isPunctual_concat (equipment : Equipment κ σ τ π) (place : Nat)
    (workshop : Workshop κ σ π) (incidents : List (Incident κ σ)) (incident : Incident κ σ) :
    isPunctual equipment place workshop (incidents ++ [incident]) =
      (isPunctual equipment place workshop incidents &&
        heeds equipment place (run equipment workshop incidents) incident) := by
  induction incidents generalizing workshop with
  | nil => simp [isPunctual, run]
  | cons first rest ih =>
      rw [List.cons_append, isPunctual, ih, isPunctual, Bool.and_assoc]
      rfl

theorem heeds_wait {nanos : Nat} (heeds : heeds equipment place workshop (.wait nanos) = true)
    (found : workshop.supervisor.loops[place]? = some loop) :
    loop.isReady equipment workshop.isCancelled workshop.now workshop.shared = false ∧
      ∀ due, loop.due equipment workshop.shared = some due → workshop.now + nanos ≤ due := by
  simp only [Workshop.heeds, found, Option.all_some, Bool.and_eq_true, Bool.not_eq_true',
    Option.all_eq_true, decide_eq_true_eq] at heeds
  exact heeds

theorem perform_prompt {log : List Milestone} (never : equipment.sink.NeverBlocks)
    (heeds : heeds equipment place workshop incident = true)
    (found : workshop.supervisor.loops[place]? = some loop)
    (goesOn : workshop.stops loop = false)
    (fits : loop.installed.timeout.nanos ≤ loop.installed.interval.nanos)
    (prompt : Prompt loop.installed.interval.nanos loop.installed.timeout.nanos workshop.now
      (Milestone.beginnings log) loop.phase) {after : ScrapeLoop π}
    (foundAfter : (perform equipment workshop incident).supervisor.loops[place]? = some after) :
    Prompt after.installed.interval.nanos after.installed.timeout.nanos
      (perform equipment workshop incident).now
      (Milestone.beginnings
        (log ++ (milestoneOf? equipment place workshop incident).toList)) after.phase := by
  by_cases waits : ∃ nanos, incident = .wait nanos
  · obtain ⟨nanos, rfl⟩ := waits
    obtain rfl := Option.some.inj (found.symm.trans foundAfter)
    obtain ⟨idle, before⟩ := heeds_wait heeds found
    rw [milestoneOf?_of_elsewhere (by simp), Option.toList_none, List.append_nil]
    exact prompt.wait idle before
  · have now : (perform equipment workshop incident).now = workshop.now := by
      rw [perform_now]
      cases incident with
      | wait nanos => exact absurd ⟨nanos, rfl⟩ waits
      | _ => rfl
    have uncommitted := perform_uncommitted never incident found prompt.uncommitted foundAfter
    obtain ⟨cancelled, phase, beaten, beat⟩ := perform_beat equipment incident found
    obtain rfl := Option.some.inj (beaten.symm.trans foundAfter)
    rw [goesOn] at beat
    rw [now]
    exact prompt.beat fits beat uncommitted

/-! ## Definitions that were validated -/

/-- A definition whose job comes around at some time, and does not wait longer for an answer. -/
def IsTimed (definition : Installed) : Prop :=
  0 < definition.interval.nanos ∧ definition.timeout.nanos ≤ definition.interval.nanos

structure Timed (workshop : Workshop κ σ π) : Prop where
  installed : ∀ job definition, workshop.supervisor.installed.get? job = some definition →
    IsTimed definition
  loops : ∀ (place : Nat) loop, workshop.supervisor.loops[place]? = some loop →
    IsTimed loop.installed

namespace Timed

theorem new (shared : Shared κ σ) (initial : TargetSets) (now : Nat) :
    (new shared initial now : Workshop κ σ π).Timed := by
  constructor
  · simp [Workshop.new, Supervisor.new]
  · simp [Workshop.new, Supervisor.new]

theorem move {after : Supervisor π} (timed : workshop.Timed)
    (move : Move equipment workshop incident after) :
    ∀ job definition, after.installed.get? job = some definition → IsTimed definition := by
  cases move with
  | install config =>
      intro job definition found
      unfold Supervisor.install at found
      split at found
      · exact timed.installed job definition found
      · rename_i valid
        obtain ⟨job, member, _, rfl⟩ := (Supervisor.get?_definitions_iff valid).mp found
        obtain ⟨positive, _, fits⟩ := config.validate_timing valid job member
        exact ⟨positive, fits⟩
  | align incident sets new reaction =>
      rw [(Supervisor.align_frame _ sets).2.1]
      exact timed.installed
  | _ => exact timed.installed

theorem perform (equipment : Equipment κ σ τ π) (timed : workshop.Timed)
    (incident : Incident κ σ) : (perform equipment workshop incident).Timed := by
  have move := perform_move equipment workshop incident
  constructor
  · exact timed.move move
  · intro place loop found
    cases before : workshop.supervisor.loops[place]? with
    | none => exact timed.installed _ _ (move.launched before found).2
    | some earlier =>
        obtain ⟨_, _, foundAfter, _⟩ := perform_beat equipment incident before
        obtain rfl := Option.some.inj (foundAfter.symm.trans found)
        exact timed.loops place earlier before

theorem run (equipment : Equipment κ σ τ π) (timed : workshop.Timed)
    (incidents : List (Incident κ σ)) : (run equipment workshop incidents).Timed := by
  induction incidents generalizing workshop with
  | nil => exact timed
  | cons incident rest ih => exact ih (timed.perform equipment incident)

end Timed

/-! ## Runs -/

section Runs

variable (equipment : Equipment κ σ τ π) (shared : Shared κ σ) (initial : TargetSets) (now : Nat)
  (place : Nat)

theorem run_timed (incidents : List (Incident κ σ)) :
    (run equipment (new shared initial now) incidents).Timed :=
  (Timed.new shared initial now).run equipment incidents

/-- A loop keeps to its grid, whatever else happens and however late its turns are. -/
theorem run_regular (incidents : List (Incident κ σ)) :
    let start : Workshop κ σ π := new shared initial now
    let supervisor := (run equipment start incidents).supervisor
    let log := milestones equipment place start incidents
    (supervisor.loops[place]? = none → log = []) ∧
    ∀ loop, supervisor.loops[place]? = some loop →
      Regular loop.installed.interval.nanos log loop.phase := by
  intro start
  induction incidents using List.reverseRecOn with
  | nil => simp [milestones, run, start, new, Supervisor.new]
  | append_singleton incidents incident ih =>
      intro supervisor log
      have timed : (run equipment start incidents).Timed :=
        run_timed equipment shared initial now incidents
      have logged : log = milestones equipment place start incidents ++
          (milestoneOf? equipment place (run equipment start incidents) incident).toList :=
        milestones_concat equipment place start incidents incident
      have performed : supervisor =
          (perform equipment (run equipment start incidents) incident).supervisor := by
        rw [← run_concat]
      rw [logged, performed]
      cases before : (run equipment start incidents).supervisor.loops[place]? with
      | none =>
          rw [milestoneOf?_of_absent before, ih.1 before]
          constructor
          · intro _
            rfl
          · intro loop found
            have move := perform_move equipment (run equipment start incidents) incident
            rw [(move.launched before found).1]
            exact Regular.new _
      | some earlier =>
          obtain ⟨cancelled, phase, foundAfter, beat⟩ := perform_beat equipment incident before
          constructor
          · intro absent
            cases foundAfter.symm.trans absent
          · intro loop found
            obtain rfl := Option.some.inj (foundAfter.symm.trans found)
            exact (ih.2 earlier before).beat (timed.loops place earlier before).1 beat

/-- A loop that takes its turns in time keeps to every deadline. -/
theorem run_prompt (never : equipment.sink.NeverBlocks) (incidents : List (Incident κ σ)) :
    let start : Workshop κ σ π := new shared initial now
    let workshop := run equipment start incidents
    isPunctual equipment place start incidents = true →
    ∀ loop, workshop.supervisor.loops[place]? = some loop → workshop.stops loop = false →
      Prompt loop.installed.interval.nanos loop.installed.timeout.nanos workshop.now
        (Milestone.beginnings (milestones equipment place start incidents)) loop.phase := by
  intro start
  induction incidents using List.reverseRecOn with
  | nil => simp [run, start, new, Supervisor.new]
  | append_singleton incidents incident ih =>
      intro workshop punctual loop found goesOn
      have performed : workshop = perform equipment (run equipment start incidents) incident :=
        run_concat incidents incident
      rw [isPunctual_concat, Bool.and_eq_true] at punctual
      rw [performed] at found goesOn ⊢
      rw [milestones_concat]
      cases before : (run equipment start incidents).supervisor.loops[place]? with
      | none =>
          have move := perform_move equipment (run equipment start incidents) incident
          have silent := (run_regular equipment shared initial now place incidents).1 before
          rw [(move.launched before found).1, milestoneOf?_of_absent before, silent]
          exact .launched
      | some earlier =>
          have timed := run_timed equipment shared initial now incidents
          have wentOn := goesOn_of_perform equipment incident before found goesOn
          exact perform_prompt never punctual.2 before wentOn (timed.loops place earlier before).2
            (ih punctual.1 earlier before wentOn) found

end Runs

/-- The scrapes of a loop keep to its interval, whatever the targets answer and whenever, and
whatever else happens. Each is begun for a deadline that is a whole number of intervals after the
first one, the instant at which the loop began; the numbers increase; no scrape begins before its
deadline; and each begins after the one before has settled, its commit included. If commits never
wait and the loop takes its turns in time, then every such deadline is kept on time, one that has
just come included unless the loop still has something to do. -/
theorem scrapes_keep_cadence (equipment : Equipment κ σ τ π) (shared : Shared κ σ)
    (initial : TargetSets) (now : Nat) (incidents : List (Incident κ σ)) (place : Nat)
    (loop : ScrapeLoop π)
    (found : (run equipment (new shared initial now) incidents).supervisor.loops[place]? =
      some loop) :
    let start : Workshop κ σ π := new shared initial now
    let workshop := run equipment start incidents
    let interval := loop.installed.interval.nanos
    let log := milestones equipment place start incidents
    let scrapes := Milestone.beginnings log
    (∃ (origin : Nat) (counts : List Nat), counts.Pairwise (· < ·) ∧
      scrapes.map Beginning.deadline = counts.map (fun count => origin + count * interval) ∧
      ∀ first, scrapes.head? = some first → first = ⟨origin, origin⟩) ∧
    (∀ scrape ∈ scrapes, scrape.deadline ≤ scrape.instant) ∧
    Milestone.Alternate log ∧
    (equipment.sink.NeverBlocks → isPunctual equipment place start incidents = true →
      workshop.stops loop = false →
      ∃ origin count, scrapes = onTime origin interval count ∧
        (0 < count → ∀ other, origin + other * interval < workshop.now → other < count) ∧
        (loop.isReady equipment workshop.isCancelled workshop.now workshop.shared = false →
          0 < count ∧ ∀ other, origin + other * interval ≤ workshop.now → other < count)) := by
  intro start workshop interval log scrapes
  have regular : Regular interval log loop.phase :=
    (run_regular equipment shared initial now place incidents).2 loop found
  have timed : workshop.Timed := run_timed equipment shared initial now incidents
  refine ⟨?_, regular.reached, regular.alternate, ?_⟩
  · obtain none | ⟨origin, _, grid⟩ := regular.grid
    · exact ⟨0, [], by simp [scrapes, none]⟩
    · obtain ⟨counts, increasing, _, deadlines⟩ := grid.deadlines
      refine ⟨origin, counts, increasing, deadlines, fun first head => ?_⟩
      exact Option.some.inj (head.symm.trans grid.first)
  · intro never punctual goesOn
    have prompt := run_prompt equipment shared initial now place never incidents punctual loop
      found goesOn
    exact prompt.kept equipment workshop.isCancelled workshop.shared
      (timed.loops place loop found).2

/-- Two rounds of a job whose timeout is as long as its interval, and the beginning of a third. -/
def tightRounds : List (Incident Unit Unit) :=
  [.install ⟨⟨.ofMillis 50, .ofMillis 50⟩, [.named "web"]⟩, .enter, .turn 0, .wait 50000000,
    .turn 0, .turn 0, .wait 50000000, .turn 0, .turn 0]

def tightStart : Workshop Unit Unit Unit := new ⟨(), ()⟩ (Station.soleSets "web" "a:1") 0

/-- A target that never answers is asked once more as soon as its timeout is over. -/
theorem scrapes_keep_cadence_tight :
    let workshop := run Station.idleEquipment tightStart tightRounds
    let scrapes := Milestone.beginnings (milestones Station.idleEquipment 0 tightStart tightRounds)
    scrapes = [⟨0, 0⟩, ⟨50000000, 50000000⟩, ⟨100000000, 100000000⟩] ∧
      ∃ loop, workshop.supervisor.loops[0]? = some loop ∧
        ∃ origin count, scrapes = onTime origin loop.installed.interval.nanos count ∧
          (0 < count → ∀ other,
            origin + other * loop.installed.interval.nanos < workshop.now → other < count) := by
  have begun : Milestone.beginnings (milestones Station.idleEquipment 0 tightStart tightRounds) =
      [⟨0, 0⟩, ⟨50000000, 50000000⟩, ⟨100000000, 100000000⟩] := by
    decide +kernel
  have launched : (run Station.idleEquipment tightStart tightRounds).supervisor.loops[0]?.map
      (run Station.idleEquipment tightStart tightRounds).stops = some false := by
    decide +kernel
  obtain ⟨loop, found, goesOn⟩ := Option.map_eq_some_iff.mp launched
  have never : Station.idleEquipment.sink.NeverBlocks := by
    intro now state transaction
    exact Option.some_ne_none _
  have punctual : isPunctual Station.idleEquipment 0 tightStart tightRounds = true := by
    decide +kernel
  obtain ⟨origin, count, timely, kept, _⟩ := (scrapes_keep_cadence Station.idleEquipment ⟨(), ()⟩
    (Station.soleSets "web" "a:1") 0 tightRounds 0 loop found).2.2.2 never punctual goesOn
  exact ⟨begun, loop, found, origin, count, timely, kept⟩

end Workshop

end ScrapeRelay.Scrape
