import Mathlib.Data.List.Forall2
import ScrapeRelay.Proofs.Scrape.Loop
import ScrapeRelay.Proofs.Scrape.Tracing

/-!
# The calls of a scrape loop

What a loop asks of the scraper and of the sink is recorded together with what comes of it, and for
each transaction the samples that it holds. A step of a loop asks the target, or hands the samples
of a scrape that is over to the sink in one transaction, or calls neither (`step_recorded`).
-/

namespace ScrapeRelay.Scrape

variable {κ σ τ π : Type}

inductive Call where
  | ask (instant : Nat) (target : Target) (job : Config.Job) (response : Response)
  | append (instant : Nat) (address job : String) (sample : Sample) (accepted : Bool)
  | rollback (instant : Nat) (held : List Sample)
  | commit (instant : Nat) (held : List Sample)

def Scraper.recorded (scraper : Scraper κ) : Scraper (Traced Call κ) :=
  fun now traced target job =>
    let (state, response) := scraper now traced.state target job
    (traced.after (.ask now target job response) state, response)

/-- A sink that keeps track of what becomes of its transactions. Each holds the samples that were
accepted since it was begun. -/
def Sink.recorded (sink : Sink σ τ π) : Sink (Traced Call σ) (τ × List Sample) π where
  begin := (sink.begin, [])
  append now traced transaction address job sample :=
    match sink.append now traced.state transaction.1 address job sample with
    | (state, .ok grown) =>
        (traced.after (.append now address job sample true) state,
          .ok (grown, transaction.2 ++ [sample]))
    | (state, .error failure) =>
        (traced.after (.append now address job sample false) state, .error failure)
  rollback now traced transaction :=
    traced.after (.rollback now transaction.2) (sink.rollback now traced.state transaction.1)
  commit now traced transaction :=
    let (state, commit) := sink.commit now traced.state transaction.1
    (traced.after (.commit now transaction.2) state, commit)
  isBlocked now traced commit := sink.isBlocked now traced.state commit
  resume now traced commit :=
    let outcome := sink.resume now traced.state commit
    ⟨{ traced with state := outcome.state }, outcome.notices, outcome.rest, outcome.result⟩
  due traced commit := sink.due traced.state commit

def Equipment.recorded (equipment : Equipment κ σ τ π) :
    Equipment (Traced Call κ) (Traced Call σ) (τ × List Sample) π :=
  ⟨equipment.scraper.recorded, equipment.sink.recorded, equipment.wallTime⟩

/-- States with a record beside each. -/
def Shared.noted (asked called : List Call) (shared : Shared κ σ) :
    Shared (Traced Call κ) (Traced Call σ) :=
  ⟨⟨shared.scraper, asked⟩, ⟨shared.sink, called⟩⟩

def LoopTurn.noted (asked called : List Call) (turn : LoopTurn κ σ π) :
    LoopTurn (Traced Call κ) (Traced Call σ) π :=
  ⟨turn.phase, turn.shared.noted asked called, turn.notices⟩

/-- The calls of one transaction: it is committed, or rolled back after a refusal. -/
def transactionCalls (now : Nat) (target : Target) (accepted : List Sample)
    (refused : Option Sample) : List Call :=
  accepted.map (fun sample => .append now target.address target.job sample true) ++
    match refused with
    | none => [.commit now accepted]
    | some sample =>
        [.append now target.address target.job sample false, .rollback now accepted]

/-- A scrape that is over, with the samples that were accepted and the one that was refused, if one
was. -/
structure Cycle where
  started : Nat
  ended : Nat
  response : Response
  accepted : List Sample
  refused : Option Sample

namespace Cycle

def transaction (target : Target) (cycle : Cycle) : List Call :=
  transactionCalls cycle.ended target cycle.accepted cycle.refused

def calls (target : Target) (job : Config.Job) (cycle : Cycle) : List Call :=
  .ask cycle.started target job cycle.response :: cycle.transaction target

/-- The samples that the target has returned by the end, if it has. -/
def answered (cycle : Cycle) : Option (List Sample) :=
  match cycle.response.delay, cycle.response.content with
  | some delay, .ok samples =>
      if cycle.started + delay.nanos ≤ cycle.ended then some samples else none
  | _, _ => none

def returned (cycle : Cycle) : List Sample := cycle.answered.getD []

/-- What is reported about the scrape itself. -/
def reported (cycle : Cycle) : List Sample :=
  [.gauge "up" (if cycle.answered.isSome then .one else .zero),
    .gauge "scrape_duration_seconds" (Duration.mk (cycle.ended - cycle.started)).seconds,
    .gauge "scrape_samples_scraped" (.ofNat cycle.returned.length)]

end Cycle

/-- What of some samples was accepted before which one was refused, if one was. -/
structure Divides (samples accepted : List Sample) (refused : Option Sample) : Prop where
  whole : refused = none → accepted = samples
  part : ∀ sample, refused = some sample → accepted ++ [sample] <+: samples

/-- How a sample is sent for a target. -/
structure Sends (target : Target) (honor : Bool) (time : Int64) (raw sent : Sample) : Prop where
  name : sent.name = raw.name
  value : sent.value = raw.value
  kind : sent.kind = raw.kind
  timestamp : sent.timestamp = if raw.timestamp = 0 then time else raw.timestamp
  labels : sent.labels = (target.attachLabels honor raw).labels

/-- What a scrape has to be like once it is over. It ends when the target has answered, or after the
timeout. -/
structure Cycle.Conforms (wallTime : Nat → Int64) (target : Target) (installed : Installed)
    (cycle : Cycle) : Prop where
  ordered : cycle.started ≤ cycle.ended
  resolved : (∃ delay, cycle.response.delay = some delay ∧
      cycle.started + delay.nanos ≤ cycle.ended) ∨
    cycle.started + installed.timeout.nanos ≤ cycle.ended
  appends : ∃ due, List.Forall₂
      (Sends target installed.job.honorLabels (wallTime cycle.ended))
      (cycle.returned ++ cycle.reported) due ∧
    Divides due cycle.accepted cycle.refused

/-- What a step makes of the phase of a loop, and the calls that are made. -/
inductive Stride (wallTime : Nat → Int64) (now : Nat) (target : Target) (installed : Installed) :
    Bool → LoopPhase π → LoopPhase π → List Call → Prop where
  | rest {stopped : Bool} {phase : LoopPhase π} :
      Stride wallTime now target installed stopped phase phase []
  | stop {phase : LoopPhase π} : Stride wallTime now target installed true phase .finished []
  | ask {phase : LoopPhase π} (free : phase = .launched ∨ ∃ deadline, phase = .waiting deadline)
      (next : Nat) (response : Response) :
      Stride wallTime now target installed false phase (.scraping next now response)
        [.ask now target installed.job response]
  | conclude {after : LoopPhase π} (next : Nat) (cycle : Cycle) (ended : cycle.ended = now)
      (conforms : cycle.Conforms wallTime target installed)
      (settles : after = .waiting next ∨ ∃ commit, after = .committing next commit) :
      Stride wallTime now target installed false (.scraping next cycle.started cycle.response) after
        (cycle.transaction target)
  | resume {after : LoopPhase π} (next : Nat) (commit : π)
      (settles : after = .waiting next ∨ ∃ commit, after = .committing next commit) :
      Stride wallTime now target installed false (.committing next commit) after []

theorem sends_attachLabels (target : Target) (honor : Bool) (time : Int64) (raw : Sample) :
    Sends target honor time raw (target.attachLabels honor (stamp time raw)) := by
  unfold stamp
  split
  · rename_i unset
    exact ⟨rfl, rfl, rfl, (if_pos unset).symm, rfl⟩
  · rename_i set
    exact ⟨rfl, rfl, rfl, (if_neg set).symm, rfl⟩

namespace ScrapeLoop

/-- How a scrape has ended, read off the answer. -/
theorem outcome?_eq_some {cycle : Cycle} {timeout : Duration} {outcome : Outcome}
    (known : outcome? timeout cycle.ended cycle.started cycle.response = some outcome) :
    outcome.samples = cycle.returned ∧ outcome.isUp = cycle.answered.isSome ∧
      ((∃ delay, cycle.response.delay = some delay ∧
          cycle.started + delay.nanos ≤ cycle.ended) ∨
        cycle.started + timeout.nanos ≤ cycle.ended) := by
  obtain ⟨started, ended, ⟨delay, content⟩, accepted, refused⟩ := cycle
  cases delay with
  | none =>
      simp only [outcome?, hasCome, answerTime, Option.map_none, Bool.false_eq_true,
        if_false] at known
      split at known
      · rename_i resolved
        obtain rfl := Option.some.inj known
        exact ⟨rfl, rfl, .inr resolved⟩
      · cases known
  | some delay =>
      simp only [outcome?, hasCome, answerTime, Option.map_some, decide_eq_true_eq] at known
      split at known
      · rename_i come
        obtain rfl := Option.some.inj known
        refine ⟨?_, ?_, .inl ⟨delay, rfl, come⟩⟩
        · cases content <;> simp [Cycle.returned, Cycle.answered, come, Outcome.ofContent,
            Outcome.samples]
        · cases content <;> simp [Cycle.answered, come, Outcome.ofContent, Outcome.isUp]
      · rename_i late
        split at known
        · rename_i resolved
          obtain rfl := Option.some.inj known
          refine ⟨?_, ?_, .inr resolved⟩
          · cases content <;> simp [Cycle.returned, Cycle.answered, late, Outcome.samples]
          · cases content <;> simp [Cycle.answered, late, Outcome.isUp]
        · cases known

end ScrapeLoop

/-- Appending goes on until a sample is refused. The transaction may hold samples before. -/
theorem appendAll_recorded (sink : Sink σ τ π) (now : Nat) (target : Target)
    (traced : Traced Call σ) (transaction : τ) (held samples : List Sample) :
    let plain := appendAll sink now target traced.state transaction samples
    let append := fun accepted sample =>
      Call.append now target.address target.job sample accepted
    (plain.2.2 = none ∧
      appendAll sink.recorded now target traced (transaction, held) samples =
        (⟨plain.1, traced.deeds ++ samples.map (append true)⟩, (plain.2.1, held ++ samples),
          none)) ∨
    ∃ accepted refused rest failure, samples = accepted ++ refused :: rest ∧
      plain.2.2 = some failure ∧
      appendAll sink.recorded now target traced (transaction, held) samples =
        (⟨plain.1, traced.deeds ++ (accepted.map (append true) ++ [append false refused])⟩,
          (plain.2.1, held ++ accepted), some failure) := by
  induction samples generalizing traced transaction held with
  | nil => simp [appendAll]
  | cons sample rest ih =>
      simp only [appendAll, Sink.recorded]
      cases first : sink.append now traced.state transaction target.address target.job sample with
      | mk state result =>
          cases result with
          | ok grown =>
              obtain ⟨accepted, same⟩ | ⟨accepted, refused, others, failure, rfl, failed, same⟩ :=
                ih (traced.after (.append now target.address target.job sample true) state) grown
                  (held ++ [sample])
              · refine .inl ⟨accepted, ?_⟩
                simp only [Traced.after, Sink.recorded] at same
                simp [Traced.after, same]
              · refine .inr ⟨sample :: accepted, refused, others, failure, rfl, failed, ?_⟩
                simp only [Traced.after, Sink.recorded] at same
                simp [Traced.after, same]
          | error failure =>
              refine .inr ⟨[], sample, rest, failure, rfl, rfl, ?_⟩
              simp [Traced.after]

theorem handOver_recorded (sink : Sink σ τ π) (now : Nat) (target : Target) (state : σ)
    (called : List Call) (samples : List Sample) :
    let plain := handOver sink now target state samples
    ∃ accepted refused, Divides samples accepted refused ∧
      handOver sink.recorded now target ⟨state, called⟩ samples =
        ⟨⟨plain.state, called ++ transactionCalls now target accepted refused⟩, plain.commit,
          plain.notices⟩ := by
  have recorded := appendAll_recorded sink now target ⟨state, called⟩ sink.begin [] samples
  have opened : sink.recorded.begin = (sink.begin, []) := rfl
  simp only [handOver, opened]
  revert recorded
  generalize appendAll sink now target state sink.begin samples = plain
  obtain ⟨later, transaction, failure⟩ := plain
  rintro (⟨rfl, same⟩ | ⟨accepted, refused, rest, failure, rfl, rfl, same⟩)
  · refine ⟨samples, none, ⟨fun _ => rfl, by simp⟩, ?_⟩
    rw [same]
    simp [Sink.recorded, Traced.after, transactionCalls]
  · refine ⟨accepted, some refused, ⟨by simp, ?_⟩, ?_⟩
    · intro sample same
      obtain rfl := Option.some.inj same
      exact ⟨rest, by simp⟩
    · rw [same]
      simp [Sink.recorded, Traced.after, transactionCalls]

namespace ScrapeLoop

theorem resume_recorded (equipment : Equipment κ σ τ π) (now next : Nat) (commit : π)
    (shared : Shared κ σ) (loop : ScrapeLoop π) (asked called : List Call) :
    loop.resume equipment.recorded now next commit (shared.noted asked called) =
      (loop.resume equipment now next commit shared).noted asked called := by
  simp only [resume, Equipment.recorded, Sink.recorded, Shared.noted]
  split <;> rfl

theorem conclude_recorded (equipment : Equipment κ σ τ π) (now next started : Nat)
    (outcome : Outcome) (shared : Shared κ σ) (loop : ScrapeLoop π) (asked called : List Call) :
    ∃ accepted refused,
      Divides (cycleSamples loop.target loop.installed.job.honorLabels (equipment.wallTime now)
        ⟨now - started⟩ outcome) accepted refused ∧
      loop.conclude equipment.recorded now next started outcome (shared.noted asked called) =
        (loop.conclude equipment now next started outcome shared).noted asked
          (called ++ transactionCalls now loop.target accepted refused) := by
  obtain ⟨accepted, refused, divides, handed⟩ := handOver_recorded equipment.sink now loop.target
    shared.sink called (cycleSamples loop.target loop.installed.job.honorLabels
      (equipment.wallTime now) ⟨now - started⟩ outcome)
  refine ⟨accepted, refused, divides, ?_⟩
  simp only [conclude, Shared.noted, Equipment.recorded]
  rw [handed]
  generalize handOver equipment.sink now loop.target shared.sink _ = plain
  obtain ⟨state, commit, notices⟩ := plain
  cases commit with
  | none => rfl
  | some commit =>
      have resumed := resume_recorded equipment now next commit ⟨shared.scraper, state⟩ loop asked
        (called ++ transactionCalls now loop.target accepted refused)
      exact congrArg (fun turn =>
        { turn with notices := outcome.notices loop.target ++ notices ++ turn.notices }) resumed

theorem conforms_of_outcome {wallTime : Nat → Int64} {target : Target} {installed : Installed}
    {cycle : Cycle} {outcome : Outcome} (ordered : cycle.started ≤ cycle.ended)
    (known : outcome? installed.timeout cycle.ended cycle.started cycle.response = some outcome)
    (divides : Divides (cycleSamples target installed.job.honorLabels (wallTime cycle.ended)
      ⟨cycle.ended - cycle.started⟩ outcome) cycle.accepted cycle.refused) :
    cycle.Conforms wallTime target installed := by
  obtain ⟨samples, up, resolved⟩ := outcome?_eq_some known
  have reported : report outcome ⟨cycle.ended - cycle.started⟩ = cycle.reported := by
    rw [report, up, samples, Cycle.reported]
  refine ⟨ordered, resolved, _, ?_, divides⟩
  rw [cycleSamples, samples, reported, List.forall₂_map_right_iff, List.forall₂_same]
  exact fun raw _ => sends_attachLabels target _ _ raw

theorem tick_recorded (equipment : Equipment κ σ τ π) (now deadline : Nat) (shared : Shared κ σ)
    (loop : ScrapeLoop π) :
    ∃ next response, (loop.tick equipment now deadline shared).phase = .scraping next now response ∧
      loop.tick equipment.recorded now deadline (shared.noted [] []) =
        (loop.tick equipment now deadline shared).noted
          [.ask now loop.target loop.installed.job response] [] :=
  ⟨_, _, rfl, rfl⟩

/-- Keeping the record changes nothing that a step does. -/
theorem step_recorded (equipment : Equipment κ σ τ π) (cancelled : Bool) (now : Nat)
    (shared : Shared κ σ) (loop : ScrapeLoop π)
    (began : ∀ next started response, loop.phase = .scraping next started response →
      started ≤ now) :
    let plain := loop.step equipment cancelled now shared
    ∃ asked called, loop.step equipment.recorded cancelled now (shared.noted [] []) =
        plain.noted asked called ∧
      Stride equipment.wallTime now loop.target loop.installed (cancelled || loop.isCancelled)
        loop.phase plain.phase (asked ++ called) := by
  simp only [step]
  cases stopped : cancelled || loop.isCancelled with
  | true => exact ⟨[], [], rfl, .stop⟩
  | false =>
      simp only [Bool.false_eq_true, if_false]
      cases phase : loop.phase with
      | launched =>
          obtain ⟨next, response, scraping, same⟩ := tick_recorded equipment now now shared loop
          refine ⟨_, _, same, ?_⟩
          rw [scraping]
          exact .ask (.inl rfl) next response
      | waiting deadline =>
          obtain ⟨next, response, scraping, same⟩ :=
            tick_recorded equipment now deadline shared loop
          refine ⟨_, _, same, ?_⟩
          rw [scraping]
          exact .ask (.inr ⟨deadline, rfl⟩) next response
      | scraping next started response =>
          dsimp only
          cases known : outcome? loop.installed.timeout now started response with
          | none => exact ⟨[], [], rfl, .rest⟩
          | some outcome =>
              obtain ⟨accepted, refused, divides, same⟩ :=
                conclude_recorded equipment now next started outcome shared loop [] []
              refine ⟨_, _, same, ?_⟩
              have settles := (conclude_cases equipment now next started outcome shared loop).2
              exact .conclude next ⟨started, now, response, accepted, refused⟩ rfl
                (conforms_of_outcome (began next started response phase) known divides) settles
      | committing next commit =>
          refine ⟨_, _, resume_recorded equipment now next commit shared loop [] [], ?_⟩
          exact .resume next commit (resume_cases equipment now next commit shared loop).2
      | finished => exact ⟨[], [], rfl, .rest⟩

end ScrapeLoop

end ScrapeRelay.Scrape
