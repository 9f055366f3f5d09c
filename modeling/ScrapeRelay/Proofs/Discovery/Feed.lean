import ScrapeRelay.Discovery.Hub
import ScrapeRelay.Proofs.Discovery.Reports

/-!
# What a hub shows of its queue

A run of a hub is any sequence of events: configurations are applied, providers of any
generation report, and merging starts and takes updates in. A feed is a hub with the record
of all that was ever queued and of how much of it was taken in.

A configuration is queued as it is applied, before any of its providers can report. So the
queue is in order, and the board shows the latest reports of the generation whose opening
was taken in last (`board_shows_reports`).
-/

namespace ScrapeRelay.Discovery

inductive HubEvent where
  | apply (configs : List (String × Config.Discovery))
  /-- Groups are sent through a provider, whatever its generation and phase. -/
  | report (place : Nat) (groups : List TargetGroup)
  /-- A provider takes a turn of its own. -/
  | provider (place : Nat)
  | enter
  | merge (cancelled : Bool)

namespace Hub

variable {hub : Hub} {place : Nat} {task : ProviderTask}

def origins (hub : Hub) : List Origin := hub.providers.map ProviderTask.origin

/-- What sending an update adds to the queue. -/
def sent (hub : Hub) (update : Update) : List Update := if (hub.send update).2 then [update] else []

def perform (factory : Factory) (hub : Hub) : HubEvent → Hub
  | .apply configs => (hub.apply factory configs).1
  | .report place groups =>
      match hub.providers[place]? with
      | some task => (hub.send (.reported task.origin groups)).1
      | none => hub
  | .provider place => (hub.providerStep place).1
  | .enter =>
      match hub.enter with
      | .ok entered => entered
      | .error _ => hub
  | .merge cancelled => hub.mergeStep cancelled

/-- What an event adds to the queue. -/
def queues (hub : Hub) : HubEvent → List Update
  | .apply configs => hub.sent (.reconfigured (hub.generation + 1) (configs.map Prod.fst))
  | .report place groups =>
      match hub.providers[place]? with
      | some task => hub.sent (.reported task.origin groups)
      | none => []
  | .provider place =>
      match hub.providers[place]? with
      | some task =>
          match task.phase, task.discoverer.opening with
          | .launched, some groups => hub.sent (.reported task.origin groups)
          | _, _ => []
      | none => []
  | _ => []

/-- Whether an event takes the oldest update in. -/
def takes (hub : Hub) : HubEvent → Bool
  | .merge cancelled =>
      match hub.merging with
      | .active _ => !cancelled && !hub.updates.isEmpty
      | _ => false
  | _ => false

theorem send_of_ended (ended : hub.merging = .ended) (update : Update) :
    hub.send update = (hub, false) := by
  simp only [send, ended]

theorem send_of_open (unended : hub.merging ≠ .ended) (update : Update) :
    hub.send update = ({ hub with updates := hub.updates ++ [update] }, true) := by
  cases merging : hub.merging with
  | ended => exact absurd merging unended
  | idle => simp only [send, merging]
  | active merge => simp only [send, merging]

theorem send_eq (hub : Hub) (update : Update) :
    (hub.send update).1 = { hub with updates := hub.updates ++ hub.sent update } := by
  by_cases ended : hub.merging = .ended
  · simp [sent, send_of_ended ended]
  · simp [sent, send_of_open ended]

theorem mem_sent {update queued : Update} (member : queued ∈ hub.sent update) :
    queued = update := by
  unfold sent at member
  split at member
  · exact List.mem_singleton.mp member
  · simp at member

theorem sent_of_open (unended : hub.merging ≠ .ended) (update : Update) :
    hub.sent update = [update] := by
  simp [sent, send_of_open unended]

theorem mem_sent_self (unended : hub.merging ≠ .ended) (update : Update) :
    update ∈ hub.sent update := by
  simp [sent_of_open unended]

/-- A provider keeps its origin. -/
theorem setPhase_origins (present : hub.providers[place]? = some task) (phase : ProviderPhase) :
    (hub.setPhase place task phase).origins = hub.origins := by
  obtain ⟨inside, held⟩ := List.getElem?_eq_some_iff.mp present
  have within : place < (hub.providers.map ProviderTask.origin).length := by simpa using inside
  have same : task.origin = (hub.providers.map ProviderTask.origin)[place] := by
    rw [List.getElem_map, held]
  simp only [setPhase, origins, List.map_set]
  rw [same]
  exact List.set_getElem_self within

/-- A provider's turn queues its opening groups, if it has not started yet, and changes its
phase. -/
theorem providerStep_cases (hub : Hub) (place : Nat) :
    hub.providers[place]? = none ∧ (hub.providerStep place).1 = hub ∧
        hub.queues (.provider place) = [] ∨
      ∃ task phase, hub.providers[place]? = some task ∧ phase ≠ .launched ∧
        (hub.providerStep place).1 = { hub with
          updates := hub.updates ++ hub.queues (.provider place)
          providers := hub.providers.set place { task with phase := phase } } := by
  cases present : hub.providers[place]? with
  | none => exact .inl ⟨rfl, by simp [providerStep, present], by simp [queues, present]⟩
  | some task =>
      refine .inr ⟨task, ?_⟩
      cases phase : task.phase with
      | launched =>
          cases failure : task.discoverer.failure with
          | none =>
              refine ⟨.serving, rfl, by simp, ?_⟩
              cases opening : task.discoverer.opening <;>
                simp [providerStep, queues, present, phase, opening, failure, setPhase, send_eq]
          | some cause =>
              refine ⟨.finished, rfl, by simp, ?_⟩
              cases opening : task.discoverer.opening <;>
                simp [providerStep, queues, present, phase, opening, failure, setPhase, send_eq]
      | _ => exact ⟨.finished, rfl, by simp, by simp [providerStep, queues, present, phase, setPhase]⟩

/-- No provider is added or removed by a provider's turn. -/
theorem providerStep_eq (hub : Hub) (place : Nat) :
    ∃ providers : List ProviderTask, providers.map ProviderTask.origin = hub.origins ∧
      (hub.providerStep place).1 = { hub with
        updates := hub.updates ++ hub.queues (.provider place)
        providers := providers } := by
  obtain ⟨_, same, nothing⟩ | ⟨task, phase, present, _, stepped⟩ := hub.providerStep_cases place
  · exact ⟨hub.providers, rfl, by simp [same, nothing]⟩
  · exact ⟨_, setPhase_origins present phase, stepped⟩

/-- The providers of a plan are those of its jobs that can be built. -/
theorem mem_plan_iff {factory : Factory} {generation : Nat}
    {configs : List (String × Config.Discovery)} :
    task ∈ (plan factory generation configs).tasks ↔
      ∃ job discovery built, (job, discovery) ∈ configs ∧ factory job discovery = .ok built ∧
        ∃ provider ∈ built, task = ⟨⟨generation, job, provider.1⟩, provider.2, .launched⟩ := by
  induction configs with
  | nil => simp [plan]
  | cons config rest ih =>
      obtain ⟨name, settings⟩ := config
      simp only [List.mem_cons, Prod.mk.injEq]
      cases made : factory name settings with
      | ok own =>
          simp only [plan, made, List.mem_append, List.mem_map, ih]
          constructor
          · rintro (⟨provider, member, rfl⟩ | ⟨job, discovery, built, listed, planned⟩)
            · exact ⟨name, settings, own, .inl ⟨rfl, rfl⟩, made, provider, member, rfl⟩
            · exact ⟨job, discovery, built, .inr listed, planned⟩
          · rintro ⟨job, discovery, built, ⟨rfl, rfl⟩ | listed, ok, provider, member, rfl⟩
            · obtain rfl := Except.ok.inj (made.symm.trans ok)
              exact .inl ⟨provider, member, rfl⟩
            · exact .inr ⟨job, discovery, built, listed, ok, provider, member, rfl⟩
      | error failure =>
          simp only [plan, made, ih]
          constructor
          · rintro ⟨job, discovery, built, listed, planned⟩
            exact ⟨job, discovery, built, .inr listed, planned⟩
          · rintro ⟨job, discovery, built, ⟨rfl, rfl⟩ | listed, ok, planned⟩
            · rw [made] at ok
              cases ok
            · exact ⟨job, discovery, built, listed, ok, planned⟩

/-- The providers of a plan are of its generation and for one of its jobs. -/
theorem plan_origin {factory : Factory} {generation : Nat}
    {configs : List (String × Config.Discovery)}
    (member : task ∈ (plan factory generation configs).tasks) :
    task.origin.generation = generation ∧ task.origin.job ∈ configs.map Prod.fst := by
  obtain ⟨job, discovery, _, listed, _, _, _, rfl⟩ := mem_plan_iff.mp member
  exact ⟨rfl, List.mem_map_of_mem listed⟩

theorem apply_eq (factory : Factory) (configs : List (String × Config.Discovery)) (hub : Hub) :
    (hub.apply factory configs).1 = { hub with
      generation := hub.generation + 1
      updates := hub.updates ++ hub.queues (.apply configs)
      providers := hub.providers ++ (plan factory (hub.generation + 1) configs).tasks } := by
  simp only [apply, send_eq, queues]

end Hub

structure Feed where
  hub : Hub
  /-- All that was ever queued, oldest first. -/
  queued : List Update
  /-- How much of it was taken in. -/
  taken : Nat

namespace Feed

variable {feed : Feed}

def new : Feed := ⟨.new, [], 0⟩

def perform (factory : Factory) (feed : Feed) (event : HubEvent) : Feed where
  hub := feed.hub.perform factory event
  queued := feed.queued ++ feed.hub.queues event
  taken := feed.taken + if feed.hub.takes event then 1 else 0

def run (factory : Factory) (events : List HubEvent) : Feed :=
  events.foldl (perform factory) new

def consumed (feed : Feed) : List Update := feed.queued.take feed.taken

/-- The queue is in order, what is not taken in waits in the hub, and merging has come to
what was taken in. -/
structure Sound (feed : Feed) : Prop where
  isOpen : feed.hub.board.isClosed = false
  orderly : Orderly feed.queued
  newest : ∀ generation jobs, .reconfigured generation jobs ∈ feed.queued →
    generation ≤ feed.hub.generation
  opened : feed.hub.merging ≠ .ended → ∀ origin ∈ feed.hub.origins,
    ∃ jobs, .reconfigured origin.generation jobs ∈ feed.queued ∧ origin.job ∈ jobs
  within : feed.taken ≤ feed.queued.length
  waiting : feed.hub.merging ≠ .ended → feed.queued.drop feed.taken = feed.hub.updates
  untaken : feed.hub.merging = .idle → feed.taken = 0
  merged : ∀ merge, feed.hub.merging = .active merge → merge = .replay feed.consumed
  shown : feed.hub.board.value = (Merge.replay feed.consumed).sets

namespace Sound

theorem new : Feed.new.Sound := by
  refine ⟨rfl, .nil, ?_, ?_, Nat.le_refl 0, fun _ => rfl, fun _ => rfl, ?_, rfl⟩ <;>
    simp [Feed.new, Hub.new, Hub.origins]

/-- More is queued, and nothing is taken in. -/
theorem enqueue (sound : feed.Sound) {generation : Nat} {providers : List ProviderTask}
    {news : List Update}
    (later : feed.hub.generation ≤ generation)
    (orderly : Orderly (feed.queued ++ news))
    (newest : ∀ number jobs, .reconfigured number jobs ∈ news → number ≤ generation)
    (opened : feed.hub.merging ≠ .ended → ∀ origin ∈ providers.map ProviderTask.origin,
      ∃ jobs, .reconfigured origin.generation jobs ∈ feed.queued ++ news ∧ origin.job ∈ jobs) :
    Sound ⟨{ feed.hub with
      generation := generation, updates := feed.hub.updates ++ news, providers := providers },
      feed.queued ++ news, feed.taken⟩ := by
  have consumed : (feed.queued ++ news).take feed.taken = feed.consumed :=
    List.take_append_of_le_length sound.within
  refine ⟨sound.isOpen, orderly, ?_, opened, ?_, ?_, sound.untaken, ?_, ?_⟩
  · intro number jobs member
    rcases List.mem_append.mp member with old | new
    · exact Nat.le_trans (sound.newest number jobs old) later
    · exact newest number jobs new
  · have within := sound.within
    simp only [List.length_append]
    omega
  · intro unended
    rw [List.drop_append_of_le_length sound.within, sound.waiting unended]
  · intro merge active
    simpa only [Feed.consumed, consumed] using sound.merged merge active
  · simpa only [Feed.consumed, consumed] using sound.shown

theorem apply (sound : feed.Sound) (factory : Factory)
    (configs : List (String × Config.Discovery)) :
    (feed.perform factory (.apply configs)).Sound := by
  simp only [Feed.perform, Hub.perform, Hub.apply_eq, Hub.takes, Bool.false_eq_true, if_false,
    Nat.add_zero, Hub.queues]
  refine sound.enqueue (Nat.le_succ _) ?_ ?_ ?_
  · unfold Hub.sent
    split
    · refine .reconfigured sound.orderly ?_
      intro older names member
      exact Nat.lt_succ_of_le (sound.newest older names member)
    · simpa using sound.orderly
  · intro number jobs member
    obtain ⟨rfl, _⟩ := Update.reconfigured.inj (Hub.mem_sent member)
    exact Nat.le_refl _
  · intro unended origin member
    rw [List.map_append] at member
    rcases List.mem_append.mp member with old | new
    · obtain ⟨jobs, queued, listed⟩ := sound.opened unended origin old
      exact ⟨jobs, List.mem_append_left _ queued, listed⟩
    · obtain ⟨task, planned, rfl⟩ := List.mem_map.mp new
      obtain ⟨generation, job⟩ := Hub.plan_origin planned
      refine ⟨configs.map Prod.fst, List.mem_append_right _ ?_, job⟩
      rw [generation]
      exact Hub.mem_sent_self unended _

/-- What a provider of any generation sends is in order. -/
theorem orderly_sent (sound : feed.Sound) {origin : Origin} (member : origin ∈ feed.hub.origins)
    (groups : List TargetGroup) :
    Orderly (feed.queued ++ feed.hub.sent (.reported origin groups)) := by
  by_cases ended : feed.hub.merging = .ended
  · simpa [Hub.sent, Hub.send_of_ended ended] using sound.orderly
  · rw [Hub.sent_of_open ended]
    exact .reported sound.orderly (sound.opened ended origin member)

/-- Reports are queued, and no provider is added. -/
theorem report (sound : feed.Sound) {providers : List ProviderTask} {news : List Update}
    (same : providers.map ProviderTask.origin = feed.hub.origins)
    (news_eq : news = [] ∨ ∃ origin ∈ feed.hub.origins, ∃ groups,
      news = feed.hub.sent (.reported origin groups)) :
    Sound ⟨{ feed.hub with updates := feed.hub.updates ++ news, providers := providers },
      feed.queued ++ news, feed.taken⟩ := by
  refine sound.enqueue (Nat.le_refl _) ?_ ?_ ?_
  · rcases news_eq with rfl | ⟨origin, member, groups, rfl⟩
    · simpa using sound.orderly
    · exact sound.orderly_sent member groups
  · intro number jobs member
    rcases news_eq with rfl | ⟨origin, _, groups, rfl⟩
    · simp at member
    · exact absurd (Hub.mem_sent member) (by simp)
  · intro unended origin member
    rw [same] at member
    obtain ⟨jobs, queued, listed⟩ := sound.opened unended origin member
    exact ⟨jobs, List.mem_append_left _ queued, listed⟩

theorem origin_mem {place : Nat} {task : ProviderTask}
    (present : feed.hub.providers[place]? = some task) : task.origin ∈ feed.hub.origins :=
  List.mem_map_of_mem (List.mem_of_getElem? present)

theorem send (sound : feed.Sound) (factory : Factory) (place : Nat) (groups : List TargetGroup) :
    (feed.perform factory (.report place groups)).Sound := by
  simp only [Feed.perform, Hub.perform, Hub.takes, Bool.false_eq_true, if_false, Nat.add_zero,
    Hub.queues]
  cases present : feed.hub.providers[place]? with
  | none => simpa using sound
  | some task =>
      simp only [Hub.send_eq]
      exact sound.report rfl (.inr ⟨task.origin, origin_mem present, groups, rfl⟩)

theorem provider (sound : feed.Sound) (factory : Factory) (place : Nat) :
    (feed.perform factory (.provider place)).Sound := by
  obtain ⟨providers, same, stepped⟩ := feed.hub.providerStep_eq place
  simp only [Feed.perform, Hub.perform, stepped, Hub.takes, Bool.false_eq_true, if_false,
    Nat.add_zero]
  refine sound.report same ?_
  cases present : feed.hub.providers[place]? with
  | none => exact .inl (by simp [Hub.queues, present])
  | some task =>
      cases phase : task.phase with
      | launched =>
          cases opening : task.discoverer.opening with
          | none => exact .inl (by simp [Hub.queues, present, phase, opening])
          | some groups =>
              exact .inr ⟨task.origin, origin_mem present, groups, by
                simp [Hub.queues, present, phase, opening]⟩
      | serving => exact .inl (by simp [Hub.queues, present, phase])
      | finished => exact .inl (by simp [Hub.queues, present, phase])

theorem enter (sound : feed.Sound) (factory : Factory) : (feed.perform factory .enter).Sound := by
  simp only [Feed.perform, Hub.perform, Hub.queues, Hub.takes, List.append_nil,
    Bool.false_eq_true, if_false, Nat.add_zero]
  cases merging : feed.hub.merging with
  | idle =>
      have untaken := sound.untaken merging
      have unended : feed.hub.merging ≠ .ended := by simp [merging]
      simp only [Hub.enter, merging]
      refine ⟨sound.isOpen, sound.orderly, sound.newest, ?_, sound.within, ?_, ?_, ?_, sound.shown⟩
      · intro _
        exact sound.opened unended
      · intro _
        exact sound.waiting unended
      · simp
      · intro merge active
        obtain rfl := Merging.active.inj active
        simp [Feed.consumed, untaken, Merge.replay]
  | active merge =>
      simp only [Hub.enter, merging]
      exact sound
  | ended =>
      simp only [Hub.enter, merging]
      exact sound

/-- Merging ends. What still waits is given up. -/
theorem finish (sound : feed.Sound) :
    Sound { feed with hub := { feed.hub with merging := .ended, updates := [] } } := by
  refine ⟨sound.isOpen, sound.orderly, sound.newest, ?_, sound.within, ?_, ?_, ?_, sound.shown⟩ <;>
    simp

/-- The oldest update is taken in, and the board shows what that makes of the merge. -/
theorem advance (sound : feed.Sound) {merge : Merge} {update : Update} {rest : List Update}
    {board : Board TargetSets} (active : feed.hub.merging = .active merge)
    (waiting : feed.hub.updates = update :: rest) (isOpen : board.isClosed = false)
    (shown : board.value = (merge.take update).sets) :
    Sound ⟨{ feed.hub with
      updates := rest, merging := .active (merge.take update), board := board },
      feed.queued, feed.taken + 1⟩ := by
  have unended : feed.hub.merging ≠ .ended := by simp [active]
  have split : feed.queued.drop feed.taken = update :: rest := by
    rw [sound.waiting unended, waiting]
  have inside : feed.taken < feed.queued.length := by
    rcases Nat.lt_or_ge feed.taken feed.queued.length with inside | beyond
    · exact inside
    · rw [List.drop_eq_nil_of_le beyond] at split
      cases split
  have next : feed.queued[feed.taken]? = some update := by
    rw [← List.head?_drop, split, List.head?_cons]
  have replayed : Merge.replay (feed.queued.take (feed.taken + 1)) = merge.take update := by
    rw [List.take_add_one, next, Option.toList_some, Merge.replay_concat, ← consumed,
      ← sound.merged merge active]
  refine ⟨isOpen, sound.orderly, sound.newest, ?_, inside, ?_, ?_, ?_, ?_⟩
  · intro _
    exact sound.opened unended
  · intro _
    rw [← List.tail_drop, split, List.tail_cons]
  · simp
  · intro held holds
    rw [consumed, replayed]
    exact (Merging.active.inj holds).symm
  · rw [consumed, replayed, shown]

theorem absorb (sound : feed.Sound) {merge : Merge} {update : Update} {rest : List Update}
    (active : feed.hub.merging = .active merge) (waiting : feed.hub.updates = update :: rest) :
    Sound { feed with hub := feed.hub.absorb merge, taken := feed.taken + 1 } := by
  cases accepted : merge.accept? update with
  | none =>
      have kept : merge.take update = merge := by simp [Merge.take, accepted]
      have same : feed.hub.absorb merge = { feed.hub with
          updates := rest, merging := .active (merge.take update), board := feed.hub.board } := by
        simp [Hub.absorb, waiting, accepted, kept, ← active]
      rw [same]
      refine sound.advance active waiting sound.isOpen ?_
      rw [kept, sound.shown, ← sound.merged merge active]
  | some newer =>
      have kept : merge.take update = newer := by simp [Merge.take, accepted]
      have same : feed.hub.absorb merge = { feed.hub with
          updates := rest
          merging := .active (merge.take update)
          board := feed.hub.board.post newer.sets } := by
        simp [Hub.absorb, waiting, accepted, kept]
      have posted : feed.hub.board.post newer.sets = { feed.hub.board with
          value := newer.sets, version := feed.hub.board.version + 1 } := by
        simp [Board.post, sound.isOpen]
      rw [same, posted]
      refine sound.advance active waiting sound.isOpen ?_
      rw [kept]

theorem merge (sound : feed.Sound) (factory : Factory) (cancelled : Bool) :
    (feed.perform factory (.merge cancelled)).Sound := by
  have idle (unmerged : feed.hub.mergeStep cancelled = feed.hub)
      (untouched : feed.hub.takes (.merge cancelled) = false) :
      (feed.perform factory (.merge cancelled)).Sound := by
    simpa [Feed.perform, Hub.perform, Hub.queues, unmerged, untouched] using sound
  cases merging : feed.hub.merging with
  | idle => exact idle (by simp [Hub.mergeStep, merging]) (by simp [Hub.takes, merging])
  | ended => exact idle (by simp [Hub.mergeStep, merging]) (by simp [Hub.takes, merging])
  | active held =>
      cases cancelled with
      | true =>
          simpa [Feed.perform, Hub.perform, Hub.queues, Hub.mergeStep, Hub.takes, merging]
            using sound.finish
      | false =>
          cases waiting : feed.hub.updates with
          | nil =>
              exact idle (by simp [Hub.mergeStep, merging, Hub.absorb, waiting])
                (by simp [Hub.takes, merging, waiting])
          | cons update rest =>
              simpa [Feed.perform, Hub.perform, Hub.queues, Hub.mergeStep, Hub.takes, merging,
                waiting] using sound.absorb merging waiting

theorem perform (sound : feed.Sound) (factory : Factory) (event : HubEvent) :
    (feed.perform factory event).Sound := by
  cases event with
  | apply configs => exact sound.apply factory configs
  | report place groups => exact sound.send factory place groups
  | provider place => exact sound.provider factory place
  | enter => exact sound.enter factory
  | merge cancelled => exact sound.merge factory cancelled

end Sound

theorem run_sound (factory : Factory) (events : List HubEvent) : (run factory events).Sound := by
  induction events using List.reverseRecOn with
  | nil => exact .new
  | append_singleton events event ih =>
      simp only [run, List.foldl_append, List.foldl_cons, List.foldl_nil] at ih ⊢
      exact ih.perform factory event

theorem Sound.orderly_consumed (sound : feed.Sound) : Orderly feed.consumed := by
  have whole := sound.orderly
  rw [← List.take_append_drop feed.taken feed.queued] at whole
  exact whole.before

/-- As long as merging goes on every update that is sent is queued. After any number of updates
that were taken in, in the order of the queue, the board is empty if none of them opened a
generation, and shows what was reported in the generation opened last if one did. -/
theorem board_shows_reports (factory : Factory) (events : List HubEvent) :
    let feed := run factory events
    (feed.hub.merging ≠ .ended → ∀ update, feed.hub.sent update = [update]) ∧
      feed.consumed.length = feed.taken ∧
      (feed.hub.merging ≠ .ended → feed.consumed ++ feed.hub.updates = feed.queued) ∧
      (latestOpening feed.consumed = none → feed.hub.board.value = .empty) ∧
      ∀ generation jobs, latestOpening feed.consumed = some (generation, jobs) →
        ShowsReports feed.consumed generation jobs feed.hub.board.value := by
  intro feed
  have sound : feed.Sound := run_sound factory events
  have orderly := sound.orderly_consumed
  have reflects := Merge.replay_reflects orderly
  refine ⟨Hub.sent_of_open, List.length_take_of_le sound.within, ?_, ?_, ?_⟩
  · intro unended
    rw [← sound.waiting unended, consumed, List.take_append_drop]
  · intro unopened
    rw [sound.shown, reflects.unopened unopened]
    rfl
  · intro generation jobs latest
    rw [sound.shown]
    exact reflects.shows orderly latest

end Feed

end ScrapeRelay.Discovery
