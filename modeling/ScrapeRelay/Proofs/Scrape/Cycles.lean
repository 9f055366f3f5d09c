import ScrapeRelay.Proofs.Scrape.Cadence
import ScrapeRelay.Proofs.Scrape.Calls

/-!
# What the cycles of a loop append

In any run the calls of a loop are those of scrapes that are over, one after the other, and last of
one that is not over or that was given up because the loop is to stop. Each scrape that is over
makes one transaction (`ticks_make_transactions`).
-/

namespace ScrapeRelay.Scrape

variable {κ σ τ π : Type}

/-- A scrape that ends no later than its timeout has an answer if the target gave one in time. -/
theorem Cycle.Conforms.answered_iff {wallTime : Nat → Int64} {target : Target}
    {installed : Installed} {cycle : Cycle} (conforms : cycle.Conforms wallTime target installed)
    (timely : cycle.ended ≤ cycle.started + installed.timeout.nanos) {samples : List Sample} :
    cycle.answered = some samples ↔
      cycle.response.content = .ok samples ∧
        ∃ delay, cycle.response.delay = some delay ∧ delay.nanos ≤ installed.timeout.nanos := by
  have resolved := conforms.resolved
  unfold answered
  split
  · rename_i delay returned delayed content
    have come : cycle.started + delay.nanos ≤ cycle.ended ↔
        delay.nanos ≤ installed.timeout.nanos := by
      simp only [delayed, Option.some.injEq, exists_eq_left'] at resolved
      omega
    simp [delayed, content, come, and_comm, eq_comm]
  · rename_i other
    constructor
    · intro same
      cases same
    · rintro ⟨content, delay, delayed, _⟩
      exact (other delay samples delayed content).elim

/-- An answer in time counts however late the scrape ends. -/
theorem Cycle.Conforms.answered_of_prompt {wallTime : Nat → Int64} {target : Target}
    {installed : Installed} {cycle : Cycle} (conforms : cycle.Conforms wallTime target installed)
    {samples : List Sample} {delay : Duration} (content : cycle.response.content = .ok samples)
    (delayed : cycle.response.delay = some delay)
    (prompt : delay.nanos ≤ installed.timeout.nanos) : cycle.answered = some samples := by
  have resolved := conforms.resolved
  simp only [delayed, Option.some.injEq, exists_eq_left'] at resolved
  have come : cycle.started + delay.nanos ≤ cycle.ended := by omega
  simp [answered, delayed, content, come]

/-- The calls of scrapes that are over, and of one that is not. -/
def callsOf (target : Target) (job : Config.Job) (cycles : List Cycle)
    (pending : Option (Nat × Response)) : List Call :=
  cycles.flatMap (Cycle.calls target job) ++
    pending.toList.map (fun begun => .ask begun.1 target job begun.2)

/-- What the calls of a loop say in the phase that the loop is in. -/
structure Recounts (wallTime : Nat → Int64) (now : Nat) (stopped punctual : Bool)
    (loop : ScrapeLoop π) (log : List Call) (cycles : List Cycle)
    (pending : Option (Nat × Response)) : Prop where
  log : log = callsOf loop.target loop.installed.job cycles pending
  conforms : ∀ cycle ∈ cycles, cycle.Conforms wallTime loop.target loop.installed
  scraping : ∀ next started response, loop.phase = .scraping next started response →
    pending = some (started, response) ∧ started ≤ now
  pending : ∀ started response, pending = some (started, response) →
    (∃ next, loop.phase = .scraping next started response) ∨ loop.phase = .finished
  finished : loop.phase = .finished → stopped = true
  ended : punctual = true →
    ∀ cycle ∈ cycles, cycle.ended ≤ cycle.started + loop.installed.timeout.nanos
  due : punctual = true → ∀ next started response, loop.phase = .scraping next started response →
    now ≤ started + loop.installed.timeout.nanos

namespace Recounts

variable {wallTime : Nat → Int64} {now : Nat} {stopped punctual : Bool} {loop : ScrapeLoop π}
  {log calls : List Call} {cycles : List Cycle} {pending : Option (Nat × Response)}
  {phase : LoopPhase π}

theorem launched (launched : loop.phase = .launched) :
    Recounts wallTime now stopped punctual loop [] [] none := by
  constructor <;> simp [callsOf, launched]

theorem pending_eq_none (recounts : Recounts wallTime now stopped punctual loop log cycles pending)
    (idle : ∀ next started response, loop.phase ≠ .scraping next started response)
    (unfinished : loop.phase ≠ .finished) : pending = none := by
  cases begun : pending with
  | none => rfl
  | some begin =>
      obtain ⟨next, scraping⟩ | finished := recounts.pending begin.1 begin.2 begun
      · exact absurd scraping (idle next _ _)
      · exact absurd finished unfinished

/-- A loop between two scrapes. -/
theorem settled {next : Nat} (settles : loop.phase = .waiting next ∨
      ∃ commit, loop.phase = .committing next commit)
    (logged : log = callsOf loop.target loop.installed.job cycles none)
    (conforms : ∀ cycle ∈ cycles, cycle.Conforms wallTime loop.target loop.installed)
    (ended : punctual = true →
      ∀ cycle ∈ cycles, cycle.ended ≤ cycle.started + loop.installed.timeout.nanos) :
    Recounts wallTime now stopped punctual loop log cycles none := by
  obtain phase | ⟨commit, phase⟩ := settles <;>
    exact ⟨logged, conforms, by simp [phase], by simp, by simp [phase], ended, by simp [phase]⟩

theorem stride (recounts : Recounts wallTime now stopped punctual loop log cycles pending)
    (stride : Stride wallTime now loop.target loop.installed stopped loop.phase phase calls)
    (cancelled : Bool) {later : Bool} (remains : stopped = true → later = true) :
    ∃ cycles pending, Recounts wallTime now later punctual
      { loop with isCancelled := cancelled, phase := phase } (log ++ calls) cycles pending := by
  generalize before : loop.phase = earlier at stride
  cases stride with
  | rest =>
      subst before
      rw [List.append_nil]
      exact ⟨cycles, pending, recounts.log, recounts.conforms, recounts.scraping, recounts.pending,
        fun resolved => remains (recounts.finished resolved), recounts.ended, recounts.due⟩
  | stop =>
      rw [List.append_nil]
      exact ⟨cycles, pending, recounts.log, recounts.conforms, by simp, fun _ _ _ => .inr rfl,
        fun _ => remains rfl, recounts.ended, by simp⟩
  | ask free next response =>
      obtain rfl : pending = none := by
        obtain launched | ⟨deadline, waiting⟩ := free
        · exact recounts.pending_eq_none (by simp [before, launched]) (by simp [before, launched])
        · exact recounts.pending_eq_none (by simp [before, waiting]) (by simp [before, waiting])
      refine ⟨cycles, some (now, response), ?_, recounts.conforms, ?_, ?_, by simp, recounts.ended,
        ?_⟩
      · simp [recounts.log, callsOf]
      · intro next started response same
        obtain ⟨rfl, rfl, rfl⟩ := LoopPhase.scraping.inj same
        exact ⟨rfl, Nat.le_refl _⟩
      · intro started response same
        obtain ⟨rfl, rfl⟩ := Prod.mk.inj (Option.some.inj same)
        exact .inl ⟨next, rfl⟩
      · intro _ next started response same
        obtain ⟨rfl, rfl, rfl⟩ := LoopPhase.scraping.inj same
        exact Nat.le_add_right _ _
  | conclude next cycle ended conforms settles =>
      obtain ⟨rfl, _⟩ := recounts.scraping _ _ _ before
      refine ⟨cycles ++ [cycle], none, settled settles ?_ ?_ ?_⟩
      · simp [recounts.log, callsOf, Cycle.calls]
      · simpa [or_imp, forall_and] using ⟨recounts.conforms, conforms⟩
      · intro punctual other member
        obtain earlier | last := List.mem_append.mp member
        · exact recounts.ended punctual other earlier
        · obtain rfl := List.mem_singleton.mp last
          rw [ended]
          exact recounts.due punctual _ _ _ before
  | resume next commit settles =>
      obtain rfl := recounts.pending_eq_none (by simp [before]) (by simp [before])
      rw [List.append_nil]
      exact ⟨cycles, none, settled settles recounts.log recounts.conforms recounts.ended⟩

/-- Time goes on. The loop takes its turns in time as long as it does not go beyond the timeout of a
scrape. -/
theorem later (recounts : Recounts wallTime now stopped punctual loop log cycles pending)
    {instant : Nat} {prompt : Bool} (passed : now ≤ instant)
    (before : prompt = true → punctual = true ∧ ∀ next started response,
      loop.phase = .scraping next started response →
        instant ≤ started + loop.installed.timeout.nanos) :
    Recounts wallTime instant stopped prompt loop log cycles pending := by
  refine ⟨recounts.log, recounts.conforms, ?_, recounts.pending, recounts.finished,
    fun held => recounts.ended (before held).1, fun held => (before held).2⟩
  intro next started response phase
  obtain ⟨begun, reached⟩ := recounts.scraping next started response phase
  exact ⟨begun, Nat.le_trans reached passed⟩

end Recounts

namespace Workshop

variable {equipment : Equipment κ σ τ π} {workshop : Workshop κ σ π} {incident : Incident κ σ}
  {place : Nat} {loop : ScrapeLoop π}

/-- The calls that the loop at a place would make in a turn. -/
def turnCalls (equipment : Equipment κ σ τ π) (workshop : Workshop κ σ π) (place : Nat) :
    List Call :=
  let shared := (turn equipment.recorded
    { workshop with shared := workshop.shared.noted [] [] } place).1.shared
  shared.scraper.deeds ++ shared.sink.deeds

def calls (equipment : Equipment κ σ τ π) (place : Nat) (workshop : Workshop κ σ π) :
    Incident κ σ → List Call
  | .turn turned => if turned = place then workshop.turnCalls equipment place else []
  | _ => []

/-- The calls of the loop at a place in a run. -/
def history (equipment : Equipment κ σ τ π) (place : Nat) (workshop : Workshop κ σ π) :
    List (Incident κ σ) → List Call
  | [] => []
  | incident :: rest =>
      calls equipment place workshop incident ++
        history equipment place (perform equipment workshop incident) rest

theorem history_concat (equipment : Equipment κ σ τ π) (place : Nat) (workshop : Workshop κ σ π)
    (incidents : List (Incident κ σ)) (incident : Incident κ σ) :
    history equipment place workshop (incidents ++ [incident]) =
      history equipment place workshop incidents ++
        calls equipment place (run equipment workshop incidents) incident := by
  induction incidents generalizing workshop with
  | nil => simp [history, run]
  | cons first rest ih =>
      rw [List.cons_append, history, ih, history, List.append_assoc]
      rfl

theorem turnCalls_of_idle (idle : ∀ loop, workshop.supervisor.loops[place]? = some loop →
      loop.isReady equipment workshop.isCancelled workshop.now workshop.shared = false) :
    workshop.turnCalls equipment place = [] := by
  have idle : ∀ loop, workshop.supervisor.loops[place]? = some loop →
      loop.isReady equipment.recorded workshop.isCancelled workshop.now
        (workshop.shared.noted [] []) = false := idle
  have turn : turn equipment.recorded
        { workshop with shared := workshop.shared.noted [] [] } place =
      ({ workshop with shared := workshop.shared.noted [] [] }, []) := turn_of_not_ready idle
  rw [turnCalls, turn]
  rfl

theorem calls_of_elsewhere (elsewhere : incident ≠ .turn place) :
    calls equipment place workshop incident = [] := by
  cases incident with
  | turn turned =>
      apply if_neg
      intro same
      exact elsewhere (congrArg Incident.turn same)
  | _ => rfl

theorem calls_of_absent (absent : workshop.supervisor.loops[place]? = none)
    (incident : Incident κ σ) : calls equipment place workshop incident = [] := by
  by_cases own : incident = .turn place
  · subst own
    rw [calls, if_pos rfl]
    exact turnCalls_of_idle fun loop found => nomatch absent.symm.trans found
  · exact calls_of_elsewhere own

/-- Keeping the record changes nothing that a turn does. -/
theorem turn_recorded (equipment : Equipment κ σ τ π)
    (found : workshop.supervisor.loops[place]? = some loop)
    (ready : loop.isReady equipment workshop.isCancelled workshop.now workshop.shared = true)
    (began : ∀ next started response, loop.phase = .scraping next started response →
      started ≤ workshop.now) :
    ∃ asked called, turn equipment.recorded
        { workshop with shared := workshop.shared.noted [] [] } place =
      ({ (workshop.turn equipment place).1 with
        shared := (workshop.turn equipment place).1.shared.noted asked called },
        (workshop.turn equipment place).2) ∧
      Stride equipment.wallTime workshop.now loop.target loop.installed (workshop.stops loop)
        loop.phase
        (loop.step equipment workshop.isCancelled workshop.now workshop.shared).phase
        (asked ++ called) := by
  obtain ⟨asked, called, same, stride⟩ := loop.step_recorded equipment workshop.isCancelled
    workshop.now workshop.shared began
  have foundNoted : ({ workshop with shared := workshop.shared.noted [] [] } :
      Workshop (Traced Call κ) (Traced Call σ) π).supervisor.loops[place]? = some loop := found
  refine ⟨asked, called, ?_, stride⟩
  rw [turn_of_ready foundNoted ready, turn_of_ready found ready]
  dsimp only
  rw [same]
  rfl

/-- Any incident takes a loop at most one step further. -/
theorem perform_stride (equipment : Equipment κ σ τ π) (incident : Incident κ σ)
    (found : workshop.supervisor.loops[place]? = some loop)
    (began : ∀ next started response, loop.phase = .scraping next started response →
      started ≤ workshop.now) :
    ∃ cancelled phase, (perform equipment workshop incident).supervisor.loops[place]? =
        some { loop with isCancelled := cancelled, phase := phase } ∧
      Stride equipment.wallTime workshop.now loop.target loop.installed (workshop.stops loop)
        loop.phase phase (calls equipment place workshop incident) := by
  by_cases own : incident = .turn place
  · subst own
    rw [calls, if_pos rfl]
    cases ready : loop.isReady equipment workshop.isCancelled workshop.now workshop.shared with
    | false =>
        rw [perform, (turn_of_idle found ready).1, turnCalls_of_idle]
        · exact ⟨loop.isCancelled, loop.phase, found, .rest⟩
        · intro other foundOther
          obtain rfl := Option.some.inj (found.symm.trans foundOther)
          exact ready
    | true =>
        obtain ⟨asked, called, same, stride⟩ := turn_recorded equipment found ready began
        rw [turnCalls, same]
        exact ⟨loop.isCancelled, _, turn_loop found ready, stride⟩
  · obtain ⟨cancelled, kept, _⟩ := (perform_move equipment workshop incident).keeps own found
    rw [calls_of_elsewhere own]
    exact ⟨cancelled, loop.phase, kept, .rest⟩

/-- A scrape is due no later than at the end of its timeout. -/
theorem due_of_scraping (equipment : Equipment κ σ τ π) (shared : Shared κ σ) {next started : Nat}
    {response : Response} (phase : loop.phase = .scraping next started response) :
    ∃ due ≤ started + loop.installed.timeout.nanos, loop.due equipment shared = some due := by
  simp only [ScrapeLoop.due, phase]
  split
  · exact ⟨_, Nat.min_le_right _ _, rfl⟩
  · exact ⟨_, Nat.le_refl _, rfl⟩

theorem perform_recounts {punctual : Bool} {log : List Call} {cycles : List Cycle}
    {pending : Option (Nat × Response)} (incident : Incident κ σ)
    (found : workshop.supervisor.loops[place]? = some loop)
    (recounts : Recounts equipment.wallTime workshop.now (workshop.stops loop) punctual loop log
      cycles pending) {after : ScrapeLoop π}
    (foundAfter : (perform equipment workshop incident).supervisor.loops[place]? = some after) :
    ∃ cycles pending, Recounts equipment.wallTime (perform equipment workshop incident).now
      ((perform equipment workshop incident).stops after)
      (punctual && heeds equipment place workshop incident) after
      (log ++ calls equipment place workshop incident) cycles pending := by
  by_cases waits : ∃ nanos, incident = .wait nanos
  · obtain ⟨nanos, rfl⟩ := waits
    obtain rfl := Option.some.inj (found.symm.trans foundAfter)
    rw [calls_of_elsewhere (by simp), List.append_nil]
    refine ⟨cycles, pending, recounts.later (Nat.le_add_right _ _) ?_⟩
    intro prompt
    obtain ⟨held, heeds⟩ := Bool.and_eq_true_iff.mp prompt
    refine ⟨held, fun next started response phase => ?_⟩
    obtain ⟨due, within, known⟩ := due_of_scraping equipment workshop.shared phase
    exact Nat.le_trans ((heeds_wait heeds found).2 due known) within
  · have now : (perform equipment workshop incident).now = workshop.now := by
      rw [perform_now]
      cases incident with
      | wait nanos => exact absurd ⟨nanos, rfl⟩ waits
      | _ => rfl
    obtain ⟨cancelled, phase, kept, stride⟩ := perform_stride equipment incident found
      fun next started response phase => (recounts.scraping next started response phase).2
    obtain rfl := Option.some.inj (kept.symm.trans foundAfter)
    have remains := mt (goesOn_of_perform equipment incident found foundAfter)
    simp only [Bool.not_eq_false] at remains
    obtain ⟨cycles, pending, recounts⟩ := recounts.stride stride cancelled remains
    rw [now]
    refine ⟨cycles, pending, recounts.later (Nat.le_refl _) fun prompt => ?_⟩
    have held := (Bool.and_eq_true_iff.mp prompt).1
    exact ⟨held, recounts.due held⟩

theorem run_recounts (equipment : Equipment κ σ τ π) (shared : Shared κ σ) (initial : TargetSets)
    (now place : Nat) (incidents : List (Incident κ σ)) :
    let start : Workshop κ σ π := new shared initial now
    let workshop := run equipment start incidents
    let log := history equipment place start incidents
    (workshop.supervisor.loops[place]? = none → log = []) ∧
    ∀ loop, workshop.supervisor.loops[place]? = some loop →
      ∃ cycles pending, Recounts equipment.wallTime workshop.now (workshop.stops loop)
        (isPunctual equipment place start incidents) loop log cycles pending := by
  intro start
  induction incidents using List.reverseRecOn with
  | nil => simp [history, run, start, new, Supervisor.new]
  | append_singleton incidents incident ih =>
      intro workshop log
      have logged : log = history equipment place start incidents ++
          calls equipment place (run equipment start incidents) incident :=
        history_concat equipment place start incidents incident
      have performed : workshop = perform equipment (run equipment start incidents) incident :=
        run_concat incidents incident
      rw [logged, performed, isPunctual_concat]
      cases before : (run equipment start incidents).supervisor.loops[place]? with
      | none =>
          rw [ih.1 before, calls_of_absent before]
          refine ⟨fun _ => rfl, fun loop found => ⟨[], none, .launched ?_⟩⟩
          have move := perform_move equipment (run equipment start incidents) incident
          exact (move.launched before found).1
      | some earlier =>
          obtain ⟨cycles, pending, recounts⟩ := ih.2 earlier before
          constructor
          · intro absent
            obtain ⟨_, found, _⟩ := perform_follows equipment incident before
            cases found.symm.trans absent
          · intro loop found
            exact perform_recounts incident before recounts found

/-- A loop whose scrape is over, and which is not told to stop, hands the samples over in its next
turn. -/
theorem turn_concludes (equipment : Equipment κ σ τ π)
    (found : workshop.supervisor.loops[place]? = some loop)
    (goesOn : workshop.stops loop = false) {next started : Nat} {response : Response}
    (phase : loop.phase = .scraping next started response)
    (began : started ≤ workshop.now)
    (resolved : (∃ delay, response.delay = some delay ∧ started + delay.nanos ≤ workshop.now) ∨
      started + loop.installed.timeout.nanos ≤ workshop.now) :
    ∃ cycle : Cycle, cycle.started = started ∧ cycle.ended = workshop.now ∧
      cycle.response = response ∧
      cycle.Conforms equipment.wallTime loop.target loop.installed ∧
      calls equipment place workshop (.turn place) = cycle.transaction loop.target := by
  have known : (ScrapeLoop.outcome? loop.installed.timeout workshop.now started
      response).isSome = true := by
    obtain ⟨delay, delayed, come⟩ | late := resolved
    · simp [ScrapeLoop.outcome?, ScrapeLoop.answerTime, ScrapeLoop.hasCome, delayed, come]
    · cases come : ScrapeLoop.hasCome workshop.now (ScrapeLoop.answerTime started response) with
      | true => simp [ScrapeLoop.outcome?, come]
      | false => simp [ScrapeLoop.outcome?, come, late]
  have ready : loop.isReady equipment workshop.isCancelled workshop.now workshop.shared = true := by
    simp [ScrapeLoop.isReady, phase, known]
  have busy : loop.phase.next? = some next := by rw [phase, LoopPhase.next?]
  obtain ⟨_, moved⟩ := ScrapeLoop.step_of_busy goesOn ready busy
  have begun : ∀ next started response, loop.phase = .scraping next started response →
      started ≤ workshop.now := by
    intro _ _ _ scraping
    obtain ⟨_, rfl, _⟩ := LoopPhase.scraping.inj (phase.symm.trans scraping)
    exact began
  obtain ⟨asked, called, same, stride⟩ := turn_recorded equipment found ready begun
  have made : calls equipment place workshop (.turn place) = asked ++ called := by
    rw [calls, if_pos rfl, turnCalls, same]
    rfl
  rw [← made, goesOn, phase] at stride
  revert moved stride
  generalize (loop.step equipment workshop.isCancelled workshop.now workshop.shared).phase = after
  generalize calls equipment place workshop (.turn place) = whole
  intro moved stride
  cases stride with
  | rest => obtain moved | ⟨_, moved⟩ := moved <;> cases moved
  | ask free => obtain free | ⟨_, free⟩ := free <;> cases free
  | conclude next cycle ended conforms settles => exact ⟨cycle, rfl, ended, rfl, conforms, rfl⟩

/-- Whatever happens to a workshop in whatever order, and whatever the scraper and the sink answer.
The calls of a loop are those of scrapes that are over, each one tick and one transaction, and last
of a tick whose scrape is not over, or was given up because the loop was told to stop. The samples
that are due for a scrape, and what becomes of its transaction, are those of `Cycle.Conforms`. The
target counts as up if its answer came by the end of the scrape, which is no later than the timeout
if the loop takes its turns in time. Nothing but being told to stop ends the loop, and otherwise a
scrape that is over makes its transaction in the next turn. -/
theorem ticks_make_transactions (equipment : Equipment κ σ τ π) (shared : Shared κ σ)
    (initial : TargetSets) (now : Nat) (incidents : List (Incident κ σ)) (place : Nat)
    (loop : ScrapeLoop π)
    (found : (run equipment (new shared initial now) incidents).supervisor.loops[place]? =
      some loop) :
    let start : Workshop κ σ π := new shared initial now
    let workshop := run equipment start incidents
    let timeout := loop.installed.timeout.nanos
    (loop.phase = .finished → workshop.stops loop = true) ∧
    (∃ cycles pending,
      history equipment place start incidents =
        callsOf loop.target loop.installed.job cycles pending ∧
      (∀ started response, pending = some (started, response) →
        (∃ next, loop.phase = .scraping next started response) ∨ loop.phase = .finished) ∧
      ∀ cycle ∈ cycles, cycle.Conforms equipment.wallTime loop.target loop.installed ∧
        (∀ samples delay, cycle.response.content = .ok samples →
          cycle.response.delay = some delay → delay.nanos ≤ timeout →
          cycle.answered = some samples) ∧
        (cycle.ended ≤ cycle.started + timeout → ∀ samples,
          cycle.answered = some samples ↔ cycle.response.content = .ok samples ∧
            ∃ delay, cycle.response.delay = some delay ∧ delay.nanos ≤ timeout) ∧
        (isPunctual equipment place start incidents = true →
          cycle.ended ≤ cycle.started + timeout)) ∧
    ∀ next started response, loop.phase = .scraping next started response →
      workshop.stops loop = false →
      ((∃ delay, response.delay = some delay ∧ started + delay.nanos ≤ workshop.now) ∨
        started + timeout ≤ workshop.now) →
      ∃ cycle : Cycle, cycle.started = started ∧ cycle.ended = workshop.now ∧
        cycle.response = response ∧
        cycle.Conforms equipment.wallTime loop.target loop.installed ∧
        history equipment place start (incidents ++ [.turn place]) =
          history equipment place start incidents ++ cycle.transaction loop.target := by
  intro start workshop timeout
  obtain ⟨cycles, pending, recounts⟩ :=
    (run_recounts equipment shared initial now place incidents).2 loop found
  refine ⟨recounts.finished, ⟨cycles, pending, recounts.log, recounts.pending, ?_⟩, ?_⟩
  · intro cycle member
    have conforms := recounts.conforms cycle member
    exact ⟨conforms, fun samples delay => conforms.answered_of_prompt,
      fun timely samples => conforms.answered_iff timely,
      fun punctual => recounts.ended punctual cycle member⟩
  · intro next started response phase goesOn resolved
    have began := (recounts.scraping next started response phase).2
    obtain ⟨cycle, begun, ended, answer, conforms, made⟩ :=
      turn_concludes equipment found goesOn phase began resolved
    exact ⟨cycle, begun, ended, answer, conforms, by rw [history_concat, made]⟩

/-- A target answers at once, and each transaction has room for two samples. -/
def narrowEquipment : Equipment Unit Unit Nat Unit where
  scraper _ state _ _ := (state, ⟨some (.ofMillis 0), .ok [.gauge "requests" .one]⟩)
  sink := {
    begin := 0
    append _ state held _ _ _ :=
      (state, if held < 2 then .ok (held + 1) else .error (.consumer (.plain "full")))
    rollback _ state _ := state
    commit _ state _ := (state, ())
    isBlocked _ _ _ := false
    resume _ state _ := ⟨state, [], (), some (.ok ())⟩
    due _ _ := none }
  wallTime _ := 0

/-- A scrape whose transaction is rolled back is followed by the next one. -/
theorem ticks_make_transactions_narrow :
    let workshop := run narrowEquipment tightStart tightRounds
    let log := history narrowEquipment 0 tightStart tightRounds
    log.length = 11 ∧
      ∃ loop, workshop.supervisor.loops[0]? = some loop ∧ workshop.stops loop = false ∧
        ∃ cycles pending, log = callsOf loop.target loop.installed.job cycles pending ∧
          ∀ cycle ∈ cycles,
            cycle.Conforms narrowEquipment.wallTime loop.target loop.installed := by
  have length : (history narrowEquipment 0 tightStart tightRounds).length = 11 := by
    decide +kernel
  have goesOn : (run narrowEquipment tightStart tightRounds).supervisor.loops[0]?.map
      (run narrowEquipment tightStart tightRounds).stops = some false := by
    decide +kernel
  obtain ⟨loop, found, goesOn⟩ := Option.map_eq_some_iff.mp goesOn
  obtain ⟨_, ⟨cycles, pending, log, _, conforms⟩, _⟩ := ticks_make_transactions narrowEquipment
    ⟨(), ()⟩ (Station.soleSets "web" "a:1") 0 tightRounds 0 loop found
  exact ⟨length, loop, found, goesOn, cycles, pending, log,
    fun cycle member => (conforms cycle member).1⟩

end Workshop

end ScrapeRelay.Scrape
