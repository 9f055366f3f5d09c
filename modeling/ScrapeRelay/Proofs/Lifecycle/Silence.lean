import ScrapeRelay.Channel
import ScrapeRelay.Proofs.Lifecycle.Plant
import ScrapeRelay.Proofs.Lifecycle.Serial
import ScrapeRelay.Proofs.Lifecycle.Startup
import ScrapeRelay.Proofs.Scrape.Tracing

/-!
# Silence

Once a receiver was stopped or its host has cancelled everything, it does nothing any
more, whatever its tasks were about to do (`silent_after_shutdown`).
-/

namespace ScrapeRelay.Lifecycle

open ScrapeRelay.Discovery (Origin Registry)
open ScrapeRelay.Scrape (Equipment Scraper Shared SinkDeed)

/-- A plant that keeps track of what its scraper, its sink and its consumer are given to
do. -/
abbrev TracedPlant (κ γ : Type) : Type :=
  Plant (Traced Target κ) (Traced SinkDeed (Intake (Traced Batch γ))) Delivery

/-- What the engines of a receiver are built from. -/
structure Outfit (κ γ : Type) where
  registry : Registry
  scraper : Scraper κ
  settings : IntakeSettings γ
  wallTime : Nat → Int64
  /-- The states of the scraper and of the intake at first. -/
  shared : Shared κ (Intake γ)

/-- The engines of a receiver, with traces that are empty at first. -/
def Outfit.engines {κ γ : Type} (outfit : Outfit κ γ) : Engines (TracedPlant κ γ) PlantTask :=
  let settings : IntakeSettings (Traced Batch γ) :=
    ⟨outfit.settings.receiver, outfit.settings.filter, outfit.settings.consumer.traced,
      outfit.settings.ledgerTime⟩
  let intake : Intake (Traced Batch γ) :=
    ⟨outfit.shared.sink.ledger, .untouched outfit.shared.sink.consumer⟩
  Plant.engines outfit.registry
    ⟨outfit.scraper.traced, (Intake.sink settings).traced, outfit.wallTime⟩
    ⟨.untouched outfit.shared.scraper, .untouched intake⟩

/-- All that a plant has done, and the target sets that it shows. -/
structure Deeds where
  scrapes : List Target
  sink : List SinkDeed
  /-- The batches that the consumer was offered. -/
  offers : List Batch
  board : Board TargetSets

namespace TracedPlant

variable {κ γ : Type}

def deeds (plant : TracedPlant κ γ) : Deeds :=
  ⟨plant.shared.scraper.deeds, plant.shared.sink.deeds, plant.shared.sink.state.consumer.deeds,
    plant.hub.board⟩

theorem deeds_of_output {plant other : TracedPlant κ γ} (same : other.output = plant.output) :
    deeds other = deeds plant := by
  obtain ⟨shared, board⟩ := Prod.mk.inj same
  rw [deeds, shared, board, deeds]

/-- What happens to a plant from outside: targets change, the consumer goes on with what it
was given, and providers report target groups. -/
inductive Influence (κ γ : Type) where
  | targets (change : κ → κ)
  | consumer (change : γ → γ)
  | report (origin : Origin) (groups : List TargetGroup)

def Influence.apply (plant : TracedPlant κ γ) : Influence κ γ → TracedPlant κ γ
  | .targets change =>
      { plant with
        shared := { plant.shared with scraper := plant.shared.scraper.mapState change } }
  | .consumer change =>
      let behind (intake : Intake (Traced Batch γ)) : Intake (Traced Batch γ) :=
        { intake with consumer := intake.consumer.mapState change }
      { plant with shared := { plant.shared with sink := plant.shared.sink.mapState behind } }
  | .report origin groups =>
      { plant with hub := (plant.hub.send (.reported origin groups)).1 }

theorem Influence.deeds_apply (influence : Influence κ γ) (plant : TracedPlant κ γ) :
    deeds (influence.apply plant) = deeds plant := by
  cases influence with
  | report origin groups =>
      exact congrArg (Deeds.mk _ _ _) (Discovery.Hub.send_board plant.hub _)
  | _ => rfl

theorem Influence.loops_apply (influence : Influence κ γ) (plant : TracedPlant κ γ) :
    (influence.apply plant).supervisor.loops = plant.supervisor.loops := by
  cases influence <;> rfl

def IsInfluence (change : TracedPlant κ γ → TracedPlant κ γ) : Prop :=
  ∃ influence : Influence κ γ, ∀ plant, change plant = influence.apply plant

end TracedPlant

namespace Session

variable {ε α : Type} {engines : Engines ε α} {session : Session ε}

/-- What holds between two turns of one thread, seen as an interleaving. -/
def Reached (session : Session ε) : Prop :=
  ∃ threads : Threads ε, Serial threads session ∧ threads.StartsOnce ∧ threads.StopsOnce ∧
    session.Accountable

namespace Reached

theorem new (engines : Engines ε α) (receiver : Config.Receiver) :
    (new engines receiver).Reached :=
  ⟨.new engines receiver, .new engines receiver, .new engines receiver, .new engines receiver,
    .new engines receiver⟩

theorem perform (engines : Engines ε α) (reached : session.Reached) (event : Event ε α) :
    (perform engines session event).Reached := by
  obtain ⟨threads, serial, starts, stops, accountable⟩ := reached
  obtain ⟨acts, after⟩ := serial.perform engines event
  refine ⟨_, after, starts.run engines acts, stops.run engines acts, ?_⟩
  rw [← after.same]
  exact Threads.run_accountable engines starts (serial.same ▸ accountable) acts

theorem accountable (reached : session.Reached) : session.Accountable := by
  obtain ⟨_, _, _, _, accountable⟩ := reached
  exact accountable

theorem absent (reached : session.Reached) (idle : session.control.stage = .idle) :
    session.startup = .absent := by
  obtain ⟨_, ⟨rfl, _, _⟩, starts, _, _⟩ := reached
  exact (starts.idle idle).1

/-- A startup past the place of the token has left the token there, or cancelled it. -/
theorem token (reached : session.Reached) (inside : session.startup.isOutside = false) :
    session.control.holdsToken = true ∨ session.control.isCancelled = true := by
  obtain ⟨_, ⟨rfl, unlocked, _⟩, _, stops, _⟩ := reached
  obtain entered | held := stops.token inside
  · simp [entered, StartupPhase.holdsLock] at unlocked
  · exact held

/-- A receiver that was stopped before its startup came to the token does not build its
engines any more. -/
theorem shutOut (engines : Engines ε α) (reached : session.Reached) (event : Event ε α)
    (done : session.control.stopLatch.isDone = true)
    (out : session.startup.isShutOut = true) :
    (Session.perform engines session event).control.stopLatch.isDone = true ∧
      (Session.perform engines session event).startup.isShutOut = true := by
  obtain ⟨threads, serial, starts, _, _⟩ := reached
  obtain ⟨acts, after⟩ := serial.perform engines event
  have before : threads.ShutOut := by
    constructor <;> rw [serial.same]
    · exact done
    · exact out
  have still := before.run engines starts acts
  rw [← after.same]
  exact ⟨still.done, still.out⟩

end Reached

/-- A receiver whose engines are cancelled, or will not be built. -/
def Silenced (session : Session ε) : Prop :=
  session.isCancelled = true ∨
    session.control.stopLatch.isDone = true ∧ session.startup.isShutOut = true

theorem step_isCancelled (engines : Engines ε α) (task : SessionTask α)
    (cancelled : session.isCancelled = true) :
    (session.step engines task).isCancelled = true := by
  unfold isCancelled at cancelled ⊢
  by_cases startup : task = .startup
  · subst startup
    have host := (session.startupStep_frame engines).2.2.2
    have token := (session.startupStep_token engines).2.2.2
    rw [step, host]
    simp only [Bool.or_eq_true] at cancelled ⊢
    exact cancelled.imp token id
  · obtain ⟨_, control, _, _, host⟩ := session.step_frame engines startup
    rw [control, host]
    exact cancelled

theorem isCancelled_perform (engines : Engines ε α) (event : Event ε α)
    (cancelled : session.isCancelled = true) :
    (perform engines session event).isCancelled = true := by
  cases event with
  | start =>
      rw [perform, start_eq]
      split <;> exact cancelled
  | stop =>
      rw [perform, stop_eq]
      split
      · exact cancelled
      · simp only [isCancelled, Bool.or_eq_true] at cancelled ⊢
        exact cancelled.imp .inr id
  | cancelHost => simp [perform, cancelHost, isCancelled]
  | wait nanos => exact cancelled
  | turn task =>
      have turned : (session.turn engines task).isCancelled = true :=
        turn_keeps engines task (fun session => session.isCancelled = true)
          (fun _ cancelled => step_isCancelled engines task cancelled) cancelled
      exact turned
  | outside change => exact cancelled

theorem Silenced.perform (engines : Engines ε α) (reached : session.Reached)
    (silenced : session.Silenced) (event : Event ε α) :
    (perform engines session event).Silenced := by
  obtain cancelled | ⟨done, out⟩ := silenced
  · exact .inl (isCancelled_perform engines event cancelled)
  · exact .inr (reached.shutOut engines event done out)

/-- A stop silences a receiver: either its startup has not come to the token, or the
token is there to be cancelled. -/
theorem Reached.silenced_stop (reached : session.Reached)
    (undone : session.control.stopLatch.isDone = false) : session.stop.Silenced := by
  rw [stop_eq, undone]
  cases outside : session.startup.isOutside with
  | true =>
      right
      refine ⟨rfl, ?_⟩
      change session.startup.isShutOut = true
      cases phase : session.startup with
      | entered stopCame =>
          cases stopCame <;> simp_all [StartupPhase.isOutside, StartupPhase.isShutOut]
      | _ => simp_all [StartupPhase.isOutside, StartupPhase.isShutOut]
  | false =>
      left
      simp [isCancelled, reached.token outside]

section Plant

variable {κ σ τ π β : Type} (registry : Registry) (equipment : Equipment κ σ τ π)
  (shared : Shared κ σ) {session : Session (Plant κ σ π)}

theorem startupStep_quiet (session : Session (Plant κ σ π)) :
    Plant.Quiet session.engines
      (session.startupStep (Plant.engines registry equipment shared)).engines := by
  rw [startupStep_engines]
  cases session.startup with
  | equipped => exact Plant.quiet_installJobs registry equipment shared _ session.engines
  | gated =>
      dsimp only
      split
      · exact Plant.quiet_applyDiscovery registry equipment shared _ session.engines
      · exact .refl _
  | _ => exact .refl _

theorem discoveryTurn_quiet (cancelled : session.isCancelled = true) :
    Plant.Quiet session.engines
      (session.discoveryTurn (Plant.engines registry equipment shared)).engines := by
  unfold discoveryTurn
  split
  · obtain ⟨_, _, _, _, ended⟩ := endDiscovery_frame
      (session.beginDiscovery (Plant.engines registry equipment shared)).2
      (session.beginDiscovery (Plant.engines registry equipment shared)).1
    dsimp only
    rw [ended]
    exact Plant.quiet_beginDiscovery registry equipment shared session.engines
  · obtain ⟨_, _, _, _, ended⟩ := endDiscovery_frame
      (session.resumeDiscovery (Plant.engines registry equipment shared)).2
      (session.resumeDiscovery (Plant.engines registry equipment shared)).1
    dsimp only
    rw [ended]
    simp only [resumeDiscovery, cancelled]
    exact Plant.quiet_discoveryTurn registry equipment shared session.engines
  · exact .refl _

theorem scrapingStep_output (session : Session (Plant κ σ π)) :
    (session.scrapingStep (Plant.engines registry equipment shared)).engines.output =
      session.engines.output := by
  unfold scrapingStep
  split
  · split <;> rfl
  · obtain ⟨_, _, _, ended⟩ := endScraping_frame
      (session.beginScraping (Plant.engines registry equipment shared)).2
      (session.beginScraping (Plant.engines registry equipment shared)).1
    dsimp only
    rw [ended]
    exact Plant.output_beginScraping registry equipment shared session.engines
  · obtain ⟨_, _, _, ended⟩ := endScraping_frame
      (session.resumeScraping (Plant.engines registry equipment shared)).2
      (session.resumeScraping (Plant.engines registry equipment shared)).1
    dsimp only
    rw [ended]
    rfl
  · rfl

/-- No task but the startup does anything before the engines are built. -/
theorem turn_dormant (accountable : session.Accountable)
    (unbuilt : session.startup.hasEngines = false)
    (empty : session.engines.supervisor.loops = []) {task : SessionTask PlantTask}
    (other : task ≠ .startup) :
    Plant.Quiet session.engines
      (session.turn (Plant.engines registry equipment shared) task).engines := by
  obtain ⟨discovery, scraping⟩ := StartupPhase.flags_of_no_engines unbuilt
  cases task with
  | startup => exact absurd rfl other
  | discovery =>
      have same := discoveryTurn_of_asleep (Plant.engines registry equipment shared)
        (accountable.discovery.trans discovery)
      exact .ofEq (congrArg Session.engines same)
  | scraping =>
      have unlaunched := accountable.scraping.trans scraping
      rw [turn, scrapingTurn, RunPhase.eq_absent unlaunched]
      dsimp only
      rw [scrapingStep_of_unlaunched _ unlaunched]
      exact .refl _
  | logging => exact .ofEq session.loggingTurn_engines
  | engine task => exact Plant.quiet_turn registry equipment shared (.inr empty) session.now task

theorem turn_startup_quiet (session : Session (Plant κ σ π)) :
    Plant.Quiet session.engines
      (session.turn (Plant.engines registry equipment shared) .startup).engines :=
  turn_keeps _ .startup (fun after => Plant.Quiet session.engines after.engines)
    (fun after quiet => quiet.trans (startupStep_quiet registry equipment shared after)) (.refl _)

/-- There are no loops before the engines are built. -/
def Unbuilt (session : Session (Plant κ σ π)) : Prop :=
  session.startup.hasEngines = false → session.engines.supervisor.loops = []

theorem Silenced.turn_output (silenced : session.Silenced) (accountable : session.Accountable)
    (unbuilt : session.Unbuilt)
    (task : SessionTask PlantTask) :
    (session.turn (Plant.engines registry equipment shared) task).engines.output =
      session.engines.output := by
  by_cases startup : task = .startup
  · subst startup
    exact (turn_startup_quiet registry equipment shared session).output
  · obtain cancelled | ⟨_, out⟩ := silenced
    · cases task with
      | startup => exact absurd rfl startup
      | discovery => exact (discoveryTurn_quiet registry equipment shared cancelled).output
      | scraping =>
          exact turn_keeps _ .scraping (fun after => after.engines.output = session.engines.output)
            (fun after same => (scrapingStep_output registry equipment shared after).trans same) rfl
      | logging => exact congrArg Plant.output session.loggingTurn_engines
      | engine task =>
          exact (Plant.quiet_turn registry equipment shared (.inl cancelled) session.now
            task).output
    · have none := StartupPhase.hasEngines_of_isShutOut out
      exact (turn_dormant registry equipment shared accountable none (unbuilt none) startup).output

theorem Unbuilt.turn (unbuilt : session.Unbuilt) (accountable : session.Accountable)
    (task : SessionTask PlantTask) :
    (session.turn (Plant.engines registry equipment shared) task).Unbuilt := by
  by_cases startup : task = .startup
  · subst startup
    refine turn_keeps _ .startup Unbuilt (fun before unbuilt none => ?_) unbuilt
    refine (startupStep_quiet registry equipment shared before).loops (unbuilt ?_)
    by_contra built
    have still := (startupStep_leads (Plant.engines registry equipment shared) before).hasEngines
      (by simpa using built)
    rw [step, still] at none
    simp at none
  · intro none
    have same : (session.turn (Plant.engines registry equipment shared) task).startup =
        session.startup :=
      turn_keeps _ task (fun after => after.startup = session.startup)
        (fun after same => (after.step_frame _ startup).1.trans same) rfl
    rw [same] at none
    exact (turn_dormant registry equipment shared accountable none (unbuilt none) startup).loops
      (unbuilt none)

end Plant

section Histories

variable {κ γ : Type} {session : Session (TracedPlant κ γ)}

theorem perform_undone (engines : Engines (TracedPlant κ γ) PlantTask)
    {event : Event (TracedPlant κ γ) PlantTask} (other : event ≠ .stop) :
    (perform engines session event).control.stopLatch = session.control.stopLatch := by
  cases event with
  | stop => exact absurd rfl other
  | start =>
      rw [perform, start_eq]
      split <;> rfl
  | turn task =>
      refine turn_keeps engines task
        (fun after => after.control.stopLatch = session.control.stopLatch)
        (fun after same => ?_) rfl
      refine Eq.trans ?_ same
      by_cases startup : task = .startup
      · subst startup
        exact (after.startupStep_token engines).1
      · rw [(after.step_frame engines startup).2.1]
  | _ => rfl

/-- What holds of a receiver on one thread at any time. -/
structure Sound (session : Session (TracedPlant κ γ)) : Prop where
  reached : session.Reached
  unbuilt : session.Unbuilt
  silenced : session.control.stopLatch.isDone = true → session.Silenced

namespace Sound

theorem new (outfit : Outfit κ γ) (receiver : Config.Receiver) :
    (new outfit.engines receiver).Sound :=
  ⟨.new outfit.engines receiver, fun _ => rfl, fun done => by
    simp [Session.new, Control.new, Latch.new] at done⟩

theorem perform (outfit : Outfit κ γ) (sound : session.Sound)
    (event : Event (TracedPlant κ γ) PlantTask)
    (outside : ∀ change, event = .outside change → TracedPlant.IsInfluence change) :
    (perform outfit.engines session event).Sound := by
  refine ⟨sound.reached.perform _ event, ?_, fun done => ?_⟩
  · have unbuilt := sound.unbuilt
    cases event with
    | start =>
        rw [Session.perform, start_eq]
        split
        · rename_i idle
          exact fun _ => unbuilt (by rw [sound.reached.absent idle]; rfl)
        · exact unbuilt
    | stop => exact unbuilt
    | cancelHost => exact unbuilt
    | wait nanos => exact unbuilt
    | turn task => exact unbuilt.turn _ _ _ sound.reached.accountable task
    | outside change =>
        obtain ⟨influence, same⟩ := outside change rfl
        refine fun none => Eq.trans ?_ (unbuilt none)
        rw [Session.perform, same]
        exact influence.loops_apply session.engines
  · cases before : session.control.stopLatch.isDone with
    | true => exact (sound.silenced before).perform _ sound.reached event
    | false =>
        by_cases stop : event = .stop
        · subst stop
          exact sound.reached.silenced_stop before
        · rw [perform_undone _ stop, before] at done
          simp at done

theorem run (outfit : Outfit κ γ) (sound : session.Sound)
    {events : List (Event (TracedPlant κ γ) PlantTask)}
    (outside : ∀ change, .outside change ∈ events → TracedPlant.IsInfluence change) :
    (run outfit.engines session events).Sound :=
  run_keeps Sound (fun _ event member sound =>
    sound.perform outfit event fun change same => outside change (same ▸ member)) sound

/-- A stop or the cancellation by the host silences a receiver. -/
theorem shutdown (outfit : Outfit κ γ) (sound : session.Sound)
    {event : Event (TracedPlant κ γ) PlantTask}
    (shutdown : event = .stop ∨ event = .cancelHost) :
    (Session.perform outfit.engines session event).Silenced := by
  obtain rfl | rfl := shutdown
  · cases before : session.control.stopLatch.isDone with
    | true => exact (sound.silenced before).perform _ sound.reached .stop
    | false => exact sound.reached.silenced_stop before
  · exact .inl (by simp [Session.perform, cancelHost, isCancelled])

theorem deeds_perform (outfit : Outfit κ γ) (sound : session.Sound) (silenced : session.Silenced)
    (event : Event (TracedPlant κ γ) PlantTask)
    (outside : ∀ change, event = .outside change → TracedPlant.IsInfluence change) :
    TracedPlant.deeds (Session.perform outfit.engines session event).engines =
      TracedPlant.deeds session.engines := by
  cases event with
  | start =>
      rw [Session.perform, start_eq]
      split <;> rfl
  | turn task =>
      exact TracedPlant.deeds_of_output
        (silenced.turn_output _ _ _ sound.reached.accountable sound.unbuilt task)
  | outside change =>
      obtain ⟨influence, same⟩ := outside change rfl
      rw [Session.perform, same]
      exact influence.deeds_apply session.engines
  | _ => rfl

theorem deeds_run (outfit : Outfit κ γ) (sound : session.Sound) (silenced : session.Silenced)
    (events : List (Event (TracedPlant κ γ) PlantTask))
    (outside : ∀ change, .outside change ∈ events → TracedPlant.IsInfluence change) :
    let after := Session.run outfit.engines session events
    after.Sound ∧ after.Silenced ∧
      TracedPlant.deeds after.engines = TracedPlant.deeds session.engines := by
  refine run_keeps (fun after => after.Sound ∧ after.Silenced ∧
    TracedPlant.deeds after.engines = TracedPlant.deeds session.engines) ?_ ⟨sound, silenced, rfl⟩
  rintro before event member ⟨sound, silenced, same⟩
  have influence (change : TracedPlant κ γ → TracedPlant κ γ) (same : event = .outside change) :
      TracedPlant.IsInfluence change :=
    outside change (same ▸ member)
  exact ⟨sound.perform outfit event influence, silenced.perform _ sound.reached event,
    (sound.deeds_perform outfit silenced event influence).trans same⟩

end Sound

/-- Once a receiver was stopped or its host has cancelled everything, it asks no target,
neither appends nor commits anything, offers no batch to its consumer, and shows no other
target sets, in whatever order its tasks still take their turns. -/
theorem silent_after_shutdown (outfit : Outfit κ γ) (receiver : Config.Receiver)
    (before after : List (Event (TracedPlant κ γ) PlantTask))
    (outside : ∀ change, .outside change ∈ before ++ after → TracedPlant.IsInfluence change)
    (shutdown : .stop ∈ before ∨ .cancelHost ∈ before) :
    let reached := run outfit.engines (new outfit.engines receiver) before
    TracedPlant.deeds (run outfit.engines reached after).engines =
      TracedPlant.deeds reached.engines := by
  intro reached
  obtain ⟨event, member, ends⟩ : ∃ event ∈ before, event = .stop ∨ event = .cancelHost := by
    obtain member | member := shutdown
    · exact ⟨_, member, .inl rfl⟩
    · exact ⟨_, member, .inr rfl⟩
  obtain ⟨first, rest, rfl⟩ := List.append_of_mem member
  have soundFirst : (run outfit.engines (new outfit.engines receiver) first).Sound :=
    (Sound.new outfit receiver).run outfit fun change member => outside change (by simp [member])
  have soundEnd := soundFirst.perform outfit event
    fun change same => outside change (by simp [same])
  obtain ⟨sound, silenced, _⟩ := soundEnd.deeds_run outfit (soundFirst.shutdown outfit ends)
    rest fun change member => outside change (by simp [member])
  rw [← run_cons, ← run_append] at sound silenced
  exact (sound.deeds_run outfit silenced after fun change member =>
    outside change (by simp [member])).2.2

end Histories

/-- A target that answers at once with nothing, and a consumer that is full. -/
def fullOutfit : Outfit Unit Channel where
  registry := .bare
  scraper _ state _ _ := (state, ⟨some ⟨0⟩, .ok []⟩)
  settings := ⟨"receiver", ⟨.empty⟩, Channel.consumer, id⟩
  wallTime _ := 0
  shared := ⟨(), ⟨.new defaultStaleness, .new (some 0)⟩⟩

def soleReceiver (job address : String) : Config.Receiver :=
  { Config.Receiver.named "receiver" with
    scrape := ⟨.default, [(Config.Job.named job).withStaticTargets [address]]⟩ }

/-- A stop while the batch of the first scrape waits for the consumer. -/
def stoppedCommit : List (Event (TracedPlant Unit Channel) PlantTask) :=
  [.start, .turn .startup, .turn .discovery, .wait Config.defaultStartupGrace.nanos,
    .turn .scraping, .turn .startup, .turn (.engine (.provider 0)), .turn .discovery,
    .turn .discovery, .turn .scraping, .turn (.engine (.loop 0)), .turn (.engine (.loop 0)), .stop]

/-- The consumer makes room, and the loop takes its turn. -/
def belatedRoom : List (Event (TracedPlant Unit Channel) PlantTask) :=
  [.outside fun plant => TracedPlant.Influence.apply plant (.consumer fun _ => .new none),
    .turn (.engine (.loop 0)), .turn .discovery, .turn .scraping]

/-- A batch that waits when the receiver is stopped is not offered any more. -/
theorem silent_after_shutdown_committing :
    let reached := run fullOutfit.engines (new fullOutfit.engines (soleReceiver "web" "a:1"))
      stoppedCommit
    (TracedPlant.deeds reached.engines).offers.length = 1 ∧
      TracedPlant.deeds (run fullOutfit.engines reached belatedRoom).engines =
        TracedPlant.deeds reached.engines := by
  refine ⟨by decide +kernel, silent_after_shutdown fullOutfit (soleReceiver "web" "a:1")
    stoppedCommit belatedRoom (fun change member => ?_) (.inl (by simp [stoppedCommit]))⟩
  simp only [stoppedCommit, belatedRoom, List.cons_append, List.nil_append, List.mem_cons,
    reduceCtorEq, Event.outside.injEq, List.not_mem_nil, false_or, or_false] at member
  exact ⟨_, fun plant => congrFun member plant⟩

end Session

end ScrapeRelay.Lifecycle
