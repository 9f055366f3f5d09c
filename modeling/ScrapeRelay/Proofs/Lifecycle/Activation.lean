import ScrapeRelay.Proofs.Lifecycle.Wiring
import ScrapeRelay.Proofs.Scrape.Coverage

/-!
# Which targets a receiver scrapes

A receiver that is left alone starts up, starts the providers of its jobs, merges what they
send, and keeps a loop for each target. Whenever it has nothing left to do, it scrapes the
targets that its providers sent last, in whatever order its tasks took their turns
(`run_activates`).
-/

namespace ScrapeRelay.Lifecycle

open ScrapeRelay.Discovery (Hub Registry Update groupsOf lastSent latestReport staticName)
open ScrapeRelay.Scrape (Equipment Shared Supervisor)

/-- What happens to a receiver that is left alone. Its tasks take turns in any order. -/
inductive PlantEvent (κ σ : Type) where
  | start
  | wait (nanos : Nat)
  | turn (task : SessionTask PlantTask)
  /-- A provider sends groups on its own. -/
  | send (place : Nat) (groups : List TargetGroup)
  /-- The targets change, or what the sink hands on to. -/
  | outside (change : Shared κ σ → Shared κ σ)

namespace Plant

variable {κ σ π : Type}

/-- What a provider reports as it sends groups on its own. The provider of static targets
does not. -/
def reported? (plant : Plant κ σ π) (place : Nat) (groups : List TargetGroup) : Option Update :=
  match plant.hub.providers[place]? with
  | some task =>
      if task.origin.provider = staticName then none else some (.reported task.origin groups)
  | none => none

def send (place : Nat) (groups : List TargetGroup) (plant : Plant κ σ π) : Plant κ σ π :=
  match plant.reported? place groups with
  | some update => { plant with hub := (plant.hub.send update).1 }
  | none => plant

end Plant

namespace PlantEvent

variable {κ σ π : Type}

def onSession : PlantEvent κ σ → Event (Plant κ σ π) PlantTask
  | .start => .start
  | .wait nanos => .wait nanos
  | .turn task => .turn task
  | .send place groups => .outside (Plant.send place groups)
  | .outside change => .outside fun plant => { plant with shared := change plant.shared }

/-- What the providers send as it happens. -/
def sends (plant : Plant κ σ π) : PlantEvent κ σ → List Update
  | .turn (.engine (.provider place)) => plant.hub.queues (.provider place)
  | .send place groups => (plant.reported? place groups).toList
  | _ => []

end PlantEvent

/-- A receiver, and all that its providers have sent, oldest first. -/
structure Deployment (κ σ π : Type) where
  session : Session (Plant κ σ π)
  sent : List Update

namespace Deployment

variable {κ σ τ π : Type} {registry : Registry} {equipment : Equipment κ σ τ π}
  {shared : Shared κ σ} {receiver : Config.Receiver} {deployment : Deployment κ σ π}
  {target : Target}

def new (engines : Engines (Plant κ σ π) PlantTask) (receiver : Config.Receiver) :
    Deployment κ σ π :=
  ⟨.new engines receiver, []⟩

def perform (engines : Engines (Plant κ σ π) PlantTask) (deployment : Deployment κ σ π)
    (event : PlantEvent κ σ) : Deployment κ σ π where
  session := deployment.session.perform engines event.onSession
  sent := deployment.sent ++ event.sends deployment.session.engines

theorem perform_silent (engines : Engines (Plant κ σ π) PlantTask)
    (deployment : Deployment κ σ π) {event : PlantEvent κ σ}
    (silent : event.sends deployment.session.engines = []) :
    perform engines deployment event =
      ⟨deployment.session.perform engines event.onSession, deployment.sent⟩ := by
  rw [perform, silent, List.append_nil]

def run (engines : Engines (Plant κ σ π) PlantTask) (receiver : Config.Receiver)
    (events : List (PlantEvent κ σ)) : Deployment κ σ π :=
  events.foldl (perform engines) (new engines receiver)

/-- Whether the grace period is over and no task has anything to do. -/
def isSettled (engines : Engines (Plant κ σ π) PlantTask) (deployment : Deployment κ σ π) : Bool :=
  deployment.session.graceIsOver && (deployment.session.ready engines).isEmpty

def activeTargets (deployment : Deployment κ σ π) : List Target :=
  deployment.session.engines.supervisor.activeTargets

/-- The targets of a job, by what its providers have sent last. -/
def targetsOf (registry : Registry) (sent : List Update) (job : Config.Job) : List Target :=
  Target.ofGroups job.name (groupsOf registry sent job.name job.discovery)

def dueTargets (registry : Registry) (jobs : List Config.Job) (sent : List Update) : List Target :=
  jobs.flatMap (targetsOf registry sent)

theorem nodup_dueTargets (registry : Registry) (sent : List Update) {jobs : List Config.Job}
    (distinct : (jobs.map Config.Job.name).Nodup) : (dueTargets registry jobs sent).Nodup := by
  refine List.nodup_flatMap.mpr ⟨fun job _ => Target.nodup_ofGroups _ _, ?_⟩
  refine (List.pairwise_map.mp distinct).imp fun different target left right => different ?_
  exact (Target.job_of_mem_ofGroups left).symm.trans (Target.job_of_mem_ofGroups right)

/-- The targets that are due and of a certain job are the job's own. -/
theorem mem_dueTargets_iff {jobs : List Config.Job} {sent : List Update} {job : Config.Job}
    (distinct : (jobs.map Config.Job.name).Nodup) (member : job ∈ jobs)
    (own : target.job = job.name) :
    target ∈ dueTargets registry jobs sent ↔ target ∈ targetsOf registry sent job := by
  rw [dueTargets, List.mem_flatMap]
  constructor
  · rintro ⟨other, listed, due⟩
    have same : other.name = job.name := (Target.job_of_mem_ofGroups due).symm.trans own
    obtain rfl := List.inj_on_of_nodup_map distinct listed member same
    exact due
  · intro due
    exact ⟨job, member, due⟩

/-- A job with a provider that cannot be built has no targets. -/
theorem targetsOf_of_unbuilt {job : Config.Job} {failure : Failure}
    (unbuilt : registry.build job.name job.discovery = .error failure) (sent : List Update) :
    targetsOf registry sent job = [] := by
  rw [targetsOf, groupsOf, unbuilt]
  rfl

/-- The targets of a job depend on the name and the providers of the job, and on what these
have sent last. -/
theorem targetsOf_congr {job twin : Config.Job} {sent other : List Update}
    (name : twin.name = job.name) (discovery : twin.discovery = job.discovery)
    (last : ∀ provider, provider ≠ staticName →
      latestReport other ⟨1, job.name, provider⟩ = latestReport sent ⟨1, job.name, provider⟩) :
    targetsOf registry other twin = targetsOf registry sent job := by
  have same : lastSent other job.name job.discovery = lastSent sent job.name job.discovery := by
    funext provider
    unfold lastSent
    split
    · rfl
    · rename_i dynamic
      rw [last provider dynamic]
  rw [targetsOf, targetsOf, groupsOf, groupsOf, name, discovery]
  simp only [same]

/-- What holds of a receiver that is left alone at any time. -/
structure Sound (registry : Registry) (receiver : Config.Receiver)
    (deployment : Deployment κ σ π) : Prop where
  ongoing : deployment.session.Ongoing receiver
  wired : deployment.session.Wired registry receiver.scrape deployment.sent

namespace Sound

theorem new (registry : Registry) (equipment : Equipment κ σ τ π) (shared : Shared κ σ)
    (receiver : Config.Receiver) :
    (new (Plant.engines registry equipment shared) receiver).Sound registry receiver :=
  ⟨.new _ receiver, .new registry equipment shared receiver.scrape receiver⟩

theorem send (equipment : Equipment κ σ τ π) (sound : deployment.Sound registry receiver)
    (place : Nat) (groups : List TargetGroup) :
    Session.Wired registry receiver.scrape
      (deployment.sent ++ (deployment.session.engines.reported? place groups).toList)
      { deployment.session with engines := deployment.session.engines.send place groups } := by
  have wired := sound.wired
  unfold Plant.send
  cases reported : deployment.session.engines.reported? place groups with
  | none => simpa using wired
  | some update =>
      unfold Plant.reported? at reported
      split at reported
      · rename_i task present
        split at reported
        · cases reported
        · rename_i dynamic
          obtain rfl := Option.some.inj reported
          have queued := Hub.send_of_open wired.hub.unended (.reported task.origin groups)
          refine wired.supply equipment (wired.hub.report present dynamic groups) rfl
            (.inl (Hub.send_board _ _)) id ?_ rfl
          dsimp only
          rw [queued]
          exact wired.discovery
      · cases reported

theorem perform (equipment : Equipment κ σ τ π) (shared : Shared κ σ)
    (valid : receiver.scrape.validate = .ok ()) (sound : deployment.Sound registry receiver)
    (event : PlantEvent κ σ) :
    (perform (Plant.engines registry equipment shared) deployment event).Sound registry
      receiver := by
  have ongoing : ∀ event : Event (Plant κ σ π) PlantTask, event ≠ .stop ∧ event ≠ .cancelHost →
      (deployment.session.perform (Plant.engines registry equipment shared) event).Ongoing
        receiver :=
    fun _ undisturbing => sound.ongoing.perform
      (Plant.installJobs_ok registry equipment shared valid) undisturbing
  have wired := sound.wired
  refine ⟨ongoing event.onSession (by cases event <;> simp [PlantEvent.onSession]), ?_⟩
  cases event with
  | start =>
      rw [perform_silent _ deployment rfl, PlantEvent.onSession, Session.perform, Session.start_eq]
      split
      · rename_i idle
        have absent := sound.ongoing.reached.absent idle
        exact wired.relabel rfl (by rw [absent]; rfl) (by rw [absent]; rfl) (.inl rfl) (.inl rfl)
      · exact wired
  | wait nanos =>
      rw [perform_silent _ deployment rfl]
      exact wired.relabel rfl rfl rfl (.inl rfl) (.inl rfl)
  | send place groups => exact sound.send equipment place groups
  | outside change =>
      rw [perform_silent _ deployment rfl]
      exact ⟨wired.hub, Plant.attentive_of_board equipment wired.attentive rfl (.inl rfl),
        wired.installed, wired.discovery, wired.scraping⟩
  | turn task =>
      have turned := wired.turn equipment shared valid sound.ongoing task
      cases task with
      | engine task =>
          cases task with
          | provider place => exact wired.providerTurn equipment shared place
          | loop place =>
              rw [perform_silent _ deployment rfl]
              exact wired.loopTurn equipment shared sound.ongoing.undisturbed.uncancelled place
      | _ =>
          rw [perform_silent _ deployment rfl]
          exact turned (by simp)

theorem run (registry : Registry) (equipment : Equipment κ σ τ π) (shared : Shared κ σ)
    (valid : receiver.scrape.validate = .ok ()) (events : List (PlantEvent κ σ)) :
    (run (Plant.engines registry equipment shared) receiver events).Sound registry receiver := by
  induction events using List.reverseRecOn with
  | nil => exact .new registry equipment shared receiver
  | append_singleton events event ih =>
      rw [Deployment.run, List.foldl_append]
      exact ih.perform equipment shared valid event

/-- Once a receiver is settled, its board shows what the providers sent last, and its loops
are in line with that. -/
theorem settled (sound : deployment.Sound registry receiver)
    (rest : deployment.isSettled (Plant.engines registry equipment shared) = true) :
    (∃ edition, deployment.session.engines.supervisor.installed =
        Supervisor.definitions edition receiver.scrape) ∧
      deployment.session.engines.supervisor.IsInLine
        (receiver.scrape.discoveries.map (groupsOf registry deployment.sent)) := by
  simp only [isSettled, Bool.and_eq_true, List.isEmpty_iff] at rest
  obtain ⟨elapsed, rest⟩ := rest
  obtain ⟨completed, discovery, scraping⟩ := sound.ongoing.at_rest elapsed rest
  have uncancelled := sound.ongoing.undisturbed.uncancelled
  obtain ⟨merges, merge, merging⟩ := sound.wired.discovery.active discovery
  obtain ⟨manages, managing⟩ := sound.wired.scraping.active scraping
  have supplied := sound.wired.hub
  rw [completed] at supplied
  have idle (task : SessionTask PlantTask) :
      task ∉ deployment.session.ready (Plant.engines registry equipment shared) := by
    simp [rest]
  have merged : deployment.session.engines.hub.updates = [] := by
    by_contra waiting
    refine idle .discovery (Session.discovery_mem_ready.mpr ?_)
    simp [merges, Session.runIsReady, Plant.engines, Hub.mustMerge, merging, waiting]
  have started : ∀ task ∈ deployment.session.engines.hub.providers, task.phase ≠ .launched := by
    intro task member launched
    obtain ⟨place, present⟩ := List.mem_iff_getElem?.mp member
    refine idle (.engine (.provider place)) ?_
    obtain ⟨inside, rfl⟩ := List.getElem?_eq_some_iff.mp present
    simp [Session.ready, Plant.engines, Hub.readyProviders, inside, Hub.providerIsReady, launched]
  have attended : deployment.session.engines.station.isAtRest = true := by
    have still := idle .scraping
    rw [Session.scraping_mem_ready, manages] at still
    simp only [Scrape.Station.isAtRest, Bool.and_eq_true, Bool.not_eq_true']
    refine ⟨managing, ?_⟩
    simpa [Session.runIsReady, Plant.engines, Plant.station, uncancelled] using still
  refine ⟨sound.wired.installed (by rw [completed]; rfl), ?_⟩
  rw [← supplied.board_eq merging merged started]
  exact sound.wired.attentive.rest attended

/-- A settled receiver scrapes the targets that are due. -/
theorem mem_activeTargets_iff (sound : deployment.Sound registry receiver)
    (valid : receiver.scrape.validate = .ok ())
    (rest : deployment.isSettled (Plant.engines registry equipment shared) = true) :
    target ∈ deployment.activeTargets ↔
      target ∈ dueTargets registry receiver.scrape.jobs deployment.sent := by
  obtain ⟨⟨edition, installed⟩, inLine⟩ := sound.settled rest
  have shown (name : String) (groups : List TargetGroup) :
      (name, groups) ∈ (receiver.scrape.discoveries.map
          (groupsOf registry deployment.sent)).entries ↔
        ∃ job ∈ receiver.scrape.jobs, job.name = name ∧
          groupsOf registry deployment.sent name job.discovery = groups := by
    rw [← SortedMap.get?_eq_some_iff, SortedMap.get?_map, Option.map_eq_some_iff]
    simp only [Config.Scrape.get?_discoveries_iff valid]
    constructor
    · rintro ⟨_, ⟨job, member, named, rfl⟩, same⟩
      exact ⟨job, member, named, same⟩
    · rintro ⟨job, member, named, same⟩
      exact ⟨_, ⟨job, member, named, rfl⟩, same⟩
  rw [activeTargets, inLine.mem_activeTargets_iff, dueTargets, List.mem_flatMap]
  simp only [Supervisor.mem_wanted_iff, shown, installed, Supervisor.get?_definitions_iff valid]
  constructor
  · rintro ⟨_, _, _, ⟨job, member, rfl, rfl⟩, _, made⟩
    exact ⟨job, member, made⟩
  · rintro ⟨job, member, made⟩
    exact ⟨_, _, _, ⟨job, member, rfl, rfl⟩, ⟨job, member, rfl, rfl⟩, made⟩

end Sound

/-- Whatever a receiver with proper job definitions does in whatever order while it is left
alone: once its grace period is over and no task has anything to do, it scrapes the targets
of its jobs, each once, as their providers sent them last. A job with a provider that cannot
be built has none. The targets of a job are the same in every history of every receiver in
which its providers sent the same last, whatever the other jobs are. -/
theorem run_activates (registry : Registry) (equipment : Equipment κ σ τ π) (shared : Shared κ σ)
    (receiver : Config.Receiver) (events : List (PlantEvent κ σ))
    (valid : receiver.scrape.validate = .ok ())
    (settled : (run (Plant.engines registry equipment shared) receiver events).isSettled
      (Plant.engines registry equipment shared) = true) :
    let engines := Plant.engines registry equipment shared
    let deployment := run engines receiver events
    deployment.activeTargets.Perm
        (dueTargets registry receiver.scrape.jobs deployment.sent) ∧
      (∀ job ∈ receiver.scrape.jobs, ∀ failure,
        registry.build job.name job.discovery = .error failure →
        ∀ target ∈ deployment.activeTargets, target.job ≠ job.name) ∧
      ∀ (other : Config.Receiver) (history : List (PlantEvent κ σ)),
        other.scrape.validate = .ok () →
        let elsewhere := run engines other history
        elsewhere.isSettled engines = true →
        ∀ job ∈ receiver.scrape.jobs, ∀ twin ∈ other.scrape.jobs,
          twin.name = job.name → twin.discovery = job.discovery →
          (∀ provider, provider ≠ staticName →
            latestReport elsewhere.sent ⟨1, job.name, provider⟩ =
              latestReport deployment.sent ⟨1, job.name, provider⟩) →
          ∀ target, target.job = job.name →
            (target ∈ elsewhere.activeTargets ↔ target ∈ deployment.activeTargets) := by
  intro engines deployment
  have sound := Sound.run registry equipment shared valid events
  have distinct := receiver.scrape.validate_names valid
  have ofJob {job : Config.Job} (listed : job ∈ receiver.scrape.jobs) {target : Target}
      (own : target.job = job.name) :
      target ∈ deployment.activeTargets ↔ target ∈ targetsOf registry deployment.sent job :=
    (sound.mem_activeTargets_iff valid settled).trans (mem_dueTargets_iff distinct listed own)
  refine ⟨?_, ?_, ?_⟩
  · exact (List.perm_ext_iff_of_nodup sound.wired.attentive.coherent.distinct
      (nodup_dueTargets registry deployment.sent distinct)).mpr
      fun _ => sound.mem_activeTargets_iff valid settled
  · intro job listed failure unbuilt target active own
    have due := (ofJob listed own).mp active
    rw [targetsOf_of_unbuilt unbuilt] at due
    simp at due
  · intro other history otherValid elsewhere otherSettled job listed twin twinListed name
      discovery last target own
    have otherSound := Sound.run registry equipment shared otherValid history
    rw [ofJob listed own, ← targetsOf_congr name discovery last]
    exact (otherSound.mem_activeTargets_iff otherValid otherSettled).trans
      (mem_dueTargets_iff (other.scrape.validate_names otherValid) twinListed
        (own.trans name.symm))

/-- A registry with one kind of providers, which send what they are told to. -/
def manualRegistry : Registry := fun kind =>
  if kind = "manual" then some fun _ _ => .ok ⟨none, none, none⟩ else none

/-- A job with a static address, and with a provider beside it. -/
def jobWith (name kind : String) : Config.Job :=
  { Config.Job.named name with discovery := ⟨[⟨[name ++ ":0"], .empty⟩], [⟨kind, .empty⟩]⟩ }

def mixedJobs : List Config.Job :=
  [(Config.Job.named "web").withStaticTargets ["web:0"], jobWith "api" "manual"]

def receiverOf (jobs : List Config.Job) : Config.Receiver :=
  { Config.Receiver.named "receiver" with scrape := ⟨.default, jobs⟩ }

/-- The provider of a job sends twice, the second time when loops have been started. -/
def mixedHistory : List (PlantEvent Unit Unit) :=
  [.start, .turn .startup, .turn .discovery, .wait Config.defaultStartupGrace.nanos,
    .turn .scraping, .turn .startup, .turn .logging, .turn (.engine (.provider 2)),
    .send 1 [.ofAddresses "0" ["api:1"] .empty], .turn (.engine (.provider 1)), .turn .discovery,
    .turn .discovery, .turn .discovery, .turn .scraping, .turn .scraping,
    .turn (.engine (.loop 0)), .send 1 [.ofAddresses "0" ["api:2", "api:3"] .empty],
    .turn (.engine (.provider 0)), .turn .discovery, .turn .discovery, .turn .scraping,
    .turn (.engine (.loop 0)), .turn (.engine (.loop 1)), .turn (.engine (.loop 2)),
    .turn (.engine (.loop 3)), .turn (.engine (.loop 4))]

/-- A job with a provider of an unknown kind has no targets, and the others have the same
with it and without it. -/
theorem run_activates_mixed :
    let engines := Plant.engines manualRegistry Scrape.Station.idleEquipment ⟨(), ()⟩
    let without := run engines (receiverOf mixedJobs) mixedHistory
    let deployment := run engines (receiverOf (jobWith "bad" "nowhere" :: mixedJobs)) mixedHistory
    deployment.isSettled engines = true ∧
      (deployment.activeTargets.map Target.address).Perm ["web:0", "api:2", "api:3", "api:0"] ∧
      (∀ target ∈ deployment.activeTargets, target.job ≠ "bad") ∧
      ∀ target, target.job = "api" →
        (target ∈ without.activeTargets ↔ target ∈ deployment.activeTargets) := by
  intro engines without deployment
  have valid : (receiverOf (jobWith "bad" "nowhere" :: mixedJobs)).scrape.validate = .ok () := by
    decide +kernel
  have settled : deployment.isSettled engines = true := by decide +kernel
  have withoutValid : (receiverOf mixedJobs).scrape.validate = .ok () := by decide +kernel
  have withoutSettled : without.isSettled engines = true := by decide +kernel
  have sameSent : without.sent = deployment.sent := by decide +kernel
  obtain ⟨active, unbuilt, apart⟩ := run_activates manualRegistry Scrape.Station.idleEquipment
    ⟨(), ()⟩ (receiverOf (jobWith "bad" "nowhere" :: mixedJobs)) mixedHistory valid settled
  refine ⟨settled, (active.map Target.address).trans (by decide +kernel), ?_, ?_⟩
  · exact unbuilt (jobWith "bad" "nowhere") List.mem_cons_self _ rfl
  · exact apart (receiverOf mixedJobs) mixedHistory withoutValid withoutSettled
      (jobWith "api" "manual") (by simp [receiverOf, mixedJobs])
      (jobWith "api" "manual") (by simp [receiverOf, mixedJobs]) rfl rfl
      (fun provider _ => congrArg (fun sent => latestReport sent ⟨1, "api", provider⟩) sameSent)

end Deployment

end ScrapeRelay.Lifecycle
