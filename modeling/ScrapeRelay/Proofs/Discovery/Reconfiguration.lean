import ScrapeRelay.Proofs.Discovery.Building
import ScrapeRelay.Proofs.Discovery.Feed

/-!
# Applying a configuration to a running hub

A configuration replaces the providers of all earlier ones. A job whose providers cannot be built
has none, and is shown with no groups; it does not keep the providers of the others from starting
(`failing_jobs_are_isolated`).
-/

namespace ScrapeRelay.Discovery

variable {factory : Factory} {configs : List (String × Config.Discovery)} {generation : Nat}
  {job : String} {discovery : Config.Discovery}

def HubEvent.isApply : HubEvent → Bool
  | .apply _ => true
  | _ => false

/-- The providers of a job, as they are started. -/
def launched (generation : Nat) (job : String) (built : List (String × Discoverer)) :
    List ProviderTask :=
  built.map (fun provider => ⟨⟨generation, job, provider.1⟩, provider.2, .launched⟩)

namespace Hub

variable {hub : Hub} {failure : Failure}

/-! ## What is planned -/

/-- What a plan starts for one of its jobs. -/
def tasksOf (factory : Factory) (generation : Nat) (config : String × Config.Discovery) :
    List ProviderTask :=
  match factory config.1 config.2 with
  | .ok built => launched generation config.1 built
  | .error _ => []

theorem plan_tasks (factory : Factory) (generation : Nat)
    (configs : List (String × Config.Discovery)) :
    (plan factory generation configs).tasks = configs.flatMap (tasksOf factory generation) := by
  induction configs with
  | nil => rfl
  | cons config rest ih =>
      rw [List.flatMap_cons, ← ih, plan, tasksOf]
      cases factory config.1 config.2 with
      | ok built => rfl
      | error failure => rfl

theorem plan_failure_eq_none_iff :
    (plan factory generation configs).failure = none ↔
      ∀ config ∈ configs, ∃ built, factory config.1 config.2 = .ok built := by
  induction configs with
  | nil => simp [plan]
  | cons config rest ih =>
      rw [List.forall_mem_cons, ← ih, plan]
      cases factory config.1 config.2 with
      | ok built => simp
      | error failure => simp

/-- The failure of a plan is the one of its first job that cannot be built. -/
theorem plan_failure (failed : (plan factory generation configs).failure = some failure) :
    ∃ before config after, configs = before ++ config :: after ∧
      (∀ earlier ∈ before, ∃ built, factory earlier.1 earlier.2 = .ok built) ∧
      factory config.1 config.2 = .error failure := by
  induction configs with
  | nil => cases failed
  | cons config rest ih =>
      rw [plan] at failed
      cases made : factory config.1 config.2 with
      | ok built =>
          rw [made] at failed
          obtain ⟨before, broken, after, rfl, earlier, reason⟩ := ih failed
          exact ⟨config :: before, broken, after, rfl,
            List.forall_mem_cons.mpr ⟨⟨built, made⟩, earlier⟩, reason⟩
      | error reason =>
          rw [made] at failed
          obtain rfl := Option.some.inj failed
          exact ⟨[], config, rest, rfl, by simp, made⟩

theorem apply_result (factory : Factory) (configs : List (String × Config.Discovery)) (hub : Hub) :
    (hub.apply factory configs).2.2 =
      match (plan factory (hub.generation + 1) configs).failure with
      | some failure => .error failure
      | none => .ok () :=
  rfl

theorem job_of_mem_tasksOf {config : String × Config.Discovery} {task : ProviderTask}
    (member : task ∈ tasksOf factory generation config) : task.origin.job = config.1 := by
  unfold tasksOf at member
  split at member
  · obtain ⟨provider, _, rfl⟩ := List.mem_map.mp member
    rfl
  · simp at member

theorem tasksOf_filter (config : String × Config.Discovery) (job : String) :
    (tasksOf factory generation config).filter (fun task => task.origin.job = job) =
      if config.1 = job then tasksOf factory generation config else [] := by
  split
  · rename_i same
    refine List.filter_eq_self.mpr fun task member => ?_
    simpa [same] using job_of_mem_tasksOf member
  · rename_i other
    refine List.filter_eq_nil_iff.mpr fun task member => ?_
    simpa [job_of_mem_tasksOf member] using other

/-- A job has in a plan what it would have on its own. -/
theorem plan_filter (distinct : (configs.map Prod.fst).Nodup)
    (member : (job, discovery) ∈ configs) :
    (plan factory generation configs).tasks.filter (fun task => task.origin.job = job) =
      tasksOf factory generation (job, discovery) := by
  rw [plan_tasks, List.filter_flatMap]
  simp only [tasksOf_filter]
  induction configs with
  | nil => simp at member
  | cons config rest ih =>
      rw [List.map_cons, List.nodup_cons] at distinct
      obtain ⟨absent, distinct⟩ := distinct
      rw [List.flatMap_cons]
      obtain rfl | later := List.mem_cons.mp member
      · have others : rest.flatMap (fun other =>
            if other.1 = job then tasksOf factory generation other else []) = [] := by
          refine List.flatMap_eq_nil_iff.mpr fun other listed => if_neg ?_
          intro same
          have named := List.mem_map_of_mem (f := Prod.fst) listed
          exact absent (same ▸ named)
        rw [if_pos rfl, others, List.append_nil]
      · have other : config.1 ≠ job := by
          intro same
          have named := List.mem_map_of_mem (f := Prod.fst) later
          exact absent (same ▸ named)
        rw [if_neg other, List.nil_append, ih distinct later]

/-! ## What an event adds -/

/-- The providers that an event starts. -/
def begins (factory : Factory) (hub : Hub) : HubEvent → List ProviderTask
  | .apply configs => (plan factory (hub.generation + 1) configs).tasks
  | _ => []

theorem mergeStep_frame (cancelled : Bool) (hub : Hub) :
    (hub.mergeStep cancelled).generation = hub.generation ∧
      (hub.mergeStep cancelled).providers = hub.providers := by
  unfold mergeStep absorb
  split
  · split
    · exact ⟨rfl, rfl⟩
    · split
      · exact ⟨rfl, rfl⟩
      · split <;> exact ⟨rfl, rfl⟩
  · exact ⟨rfl, rfl⟩

theorem enter_frame (factory : Factory) (hub : Hub) :
    (hub.perform factory .enter).generation = hub.generation ∧
      (hub.perform factory .enter).providers = hub.providers := by
  cases merging : hub.merging <;> simp [perform, enter, merging]

/-- Only applying a configuration starts providers, in a generation of its own. -/
theorem perform_grows (factory : Factory) (hub : Hub) (event : HubEvent) :
    (hub.perform factory event).generation = hub.generation + event.isApply.toNat ∧
      (hub.perform factory event).origins =
        hub.origins ++ (hub.begins factory event).map ProviderTask.origin := by
  cases event with
  | apply configs => simp [perform, apply_eq, origins, begins, HubEvent.isApply]
  | report place groups =>
      cases present : hub.providers[place]? <;>
        simp [perform, present, send_eq, origins, begins, HubEvent.isApply]
  | provider place =>
      obtain ⟨providers, same, stepped⟩ := hub.providerStep_eq place
      simp [perform, stepped, origins, same, begins, HubEvent.isApply]
  | enter =>
      obtain ⟨generation, providers⟩ := hub.enter_frame factory
      simp [origins, generation, providers, begins, HubEvent.isApply]
  | merge cancelled =>
      obtain ⟨generation, providers⟩ := hub.mergeStep_frame cancelled
      simp [perform, origins, generation, providers, begins, HubEvent.isApply]

theorem mem_begins {event : HubEvent} {task : ProviderTask}
    (begun : task ∈ hub.begins factory event) :
    task.origin.generation = hub.generation + 1 ∧ event.isApply = true := by
  cases event with
  | apply configs => exact ⟨(plan_origin begun).1, rfl⟩
  | _ => simp [begins] at begun

/-- What is queued opens a generation or comes from a provider. -/
theorem mem_queues {event : HubEvent} {update : Update} (member : update ∈ hub.queues event) :
    (∃ configs, event = .apply configs ∧
        update = .reconfigured (hub.generation + 1) (configs.map Prod.fst)) ∨
      ∃ origin ∈ hub.origins, ∃ groups, update = .reported origin groups := by
  have sender {place : Nat} {task : ProviderTask} (present : hub.providers[place]? = some task) :
      task.origin ∈ hub.origins := List.mem_map_of_mem (List.mem_of_getElem? present)
  cases event with
  | apply configs => exact .inl ⟨configs, rfl, mem_sent member⟩
  | report place groups =>
      simp only [queues] at member
      split at member
      · rename_i task present
        exact .inr ⟨task.origin, sender present, groups, mem_sent member⟩
      · simp at member
  | provider place =>
      simp only [queues] at member
      split at member
      · rename_i task present
        split at member
        · rename_i groups _ _
          exact .inr ⟨task.origin, sender present, groups, mem_sent member⟩
        · simp at member
      · simp at member
  | _ => simp [queues] at member

/-- Merging does not start again. -/
theorem perform_ended (factory : Factory) (event : HubEvent) (ended : hub.merging = .ended) :
    (hub.perform factory event).merging = .ended := by
  cases event with
  | apply configs => simpa [perform, apply_eq] using ended
  | report place groups =>
      cases present : hub.providers[place]? <;> simpa [perform, present, send_eq] using ended
  | provider place =>
      obtain ⟨providers, _, stepped⟩ := hub.providerStep_eq place
      simpa [perform, stepped] using ended
  | enter => simp [perform, enter, ended]
  | merge cancelled => simp [perform, mergeStep, ended]

/-- A turn of the merging task takes the oldest update off. -/
theorem mergeStep_takes {merge : Merge} {update : Update} {rest : List Update}
    (active : hub.merging = .active merge) (waiting : hub.updates = update :: rest) :
    ∃ merge board, hub.mergeStep false =
      { hub with updates := rest, merging := .active merge, board := board } := by
  simp only [mergeStep, active, absorb, waiting, Bool.false_eq_true, if_false]
  cases merge.accept? update with
  | none => exact ⟨merge, hub.board, by rw [← active]⟩
  | some later => exact ⟨later, _, rfl⟩

end Hub

/-- Among updates that are in order, the generation that was opened last is the newest. -/
theorem Orderly.le_latest {updates : List Update} {jobs names : List String} {number : Nat}
    (orderly : Orderly updates) (latest : latestOpening updates = some (number, names))
    (opened : .reconfigured generation jobs ∈ updates) : generation ≤ number := by
  induction orderly with
  | nil => simp at opened
  | reconfigured orderly newer ih =>
      rw [latestOpening_concat] at latest
      obtain ⟨rfl, rfl⟩ := Prod.mk.inj (Option.some.inj latest)
      obtain earlier | last := List.mem_append.mp opened
      · exact Nat.le_of_lt (newer _ _ earlier)
      · obtain ⟨rfl, _⟩ := Update.reconfigured.inj (List.mem_singleton.mp last)
        exact Nat.le_refl _
  | reported orderly known ih =>
      rw [latestOpening_reported] at latest
      exact ih latest (by simpa using opened)

namespace Feed

variable {feed : Feed} {jobs : List String} {origins : List Origin}

theorem run_append (factory : Factory) (events more : List HubEvent) :
    run factory (events ++ more) = more.foldl (perform factory) (run factory events) :=
  List.foldl_append

/-! ## Generations -/

/-- Providers are of a generation that has come, and nobody else reports. -/
structure Dated (feed : Feed) : Prop where
  started : ∀ origin ∈ feed.hub.origins, origin.generation ≤ feed.hub.generation
  known : ∀ origin groups, .reported origin groups ∈ feed.queued → origin ∈ feed.hub.origins

theorem Dated.perform (dated : feed.Dated) (factory : Factory) (event : HubEvent) :
    (feed.perform factory event).Dated := by
  obtain ⟨generation, grown⟩ := feed.hub.perform_grows factory event
  constructor
  · intro origin member
    simp only [Feed.perform] at member ⊢
    rw [grown] at member
    rw [generation]
    obtain old | new := List.mem_append.mp member
    · exact Nat.le_trans (dated.started origin old) (Nat.le_add_right _ _)
    · obtain ⟨task, begun, rfl⟩ := List.mem_map.mp new
      obtain ⟨own, applies⟩ := Hub.mem_begins begun
      rw [own, applies]
      exact Nat.le_refl _
  · intro origin groups member
    simp only [Feed.perform] at member ⊢
    rw [grown]
    refine List.mem_append_left _ ?_
    obtain old | new := List.mem_append.mp member
    · exact dated.known origin groups old
    · obtain ⟨configs, _, opening⟩ | ⟨sender, listed, _, reported⟩ := Hub.mem_queues new
      · cases opening
      · obtain ⟨rfl, _⟩ := Update.reported.inj reported
        exact listed

theorem run_dated (factory : Factory) (events : List HubEvent) : (run factory events).Dated := by
  induction events using List.reverseRecOn with
  | nil => constructor <;> simp [run, new, Hub.new, Hub.origins]
  | append_singleton events event ih =>
      rw [run_append]
      exact ih.perform factory event

/-- How a feed goes on after a generation with the given jobs was opened, with the providers that
there were then. -/
structure Since (generation : Nat) (jobs : List String) (origins : List Origin) (feed : Feed) :
    Prop where
  reached : generation ≤ feed.hub.generation
  grown : ∃ newer, feed.hub.origins = origins ++ newer ∧
    ∀ origin ∈ newer, generation < origin.generation
  opened : ∀ names, .reconfigured generation names ∈ feed.queued → names = jobs
  announced : feed.hub.merging ≠ .ended → .reconfigured generation jobs ∈ feed.queued

theorem Since.apply (sound : feed.Sound) (factory : Factory)
    (configs : List (String × Config.Discovery)) :
    Since (feed.hub.generation + 1) (configs.map Prod.fst)
      (feed.hub.origins ++ (feed.hub.begins factory (.apply configs)).map ProviderTask.origin)
      (feed.perform factory (.apply configs)) := by
  have grown := (feed.hub.perform_grows factory (.apply configs)).2
  refine ⟨?_, ⟨[], by rw [List.append_nil, ← grown]; rfl, by simp⟩, ?_, ?_⟩
  · simp [Feed.perform, Hub.perform, Hub.apply_eq]
  · intro names member
    obtain old | new := List.mem_append.mp member
    · have known := sound.newest _ _ old
      omega
    · exact (Update.reconfigured.inj (Hub.mem_sent new)).2
  · intro unended
    have before : feed.hub.merging ≠ .ended := by
      intro ended
      exact unended (feed.hub.perform_ended factory _ ended)
    exact List.mem_append_right _ (Hub.mem_sent_self before _)

theorem Since.perform (since : feed.Since generation jobs origins) (factory : Factory)
    (event : HubEvent) : (feed.perform factory event).Since generation jobs origins := by
  obtain ⟨moved, grown⟩ := feed.hub.perform_grows factory event
  obtain ⟨reached, ⟨newer, held, later⟩, opened, announced⟩ := since
  refine ⟨?_, ⟨newer ++ (feed.hub.begins factory event).map ProviderTask.origin, ?_, ?_⟩, ?_, ?_⟩
  · simp only [Feed.perform, moved]
    omega
  · simp only [Feed.perform, grown, held, List.append_assoc]
  · intro origin member
    obtain old | new := List.mem_append.mp member
    · exact later origin old
    · obtain ⟨task, begun, rfl⟩ := List.mem_map.mp new
      have own := (Hub.mem_begins begun).1
      omega
  · intro names member
    obtain old | new := List.mem_append.mp member
    · exact opened names old
    · obtain ⟨configs, _, opening⟩ | ⟨_, _, _, reported⟩ := Hub.mem_queues new
      · obtain ⟨own, _⟩ := Update.reconfigured.inj opening
        omega
      · cases reported
  · intro unended
    refine List.mem_append_left _ (announced fun ended => unended ?_)
    exact feed.hub.perform_ended factory event ended

theorem Since.run (since : feed.Since generation jobs origins) (factory : Factory)
    (events : List HubEvent) :
    (events.foldl (Feed.perform factory) feed).Since generation jobs origins := by
  induction events generalizing feed with
  | nil => exact since
  | cons event rest ih => exact ih (since.perform factory event)

theorem foldl_generation (factory : Factory) (events : List HubEvent) (feed : Feed) :
    (events.foldl (perform factory) feed).hub.generation =
      feed.hub.generation + events.countP HubEvent.isApply := by
  induction events generalizing feed with
  | nil => rfl
  | cons event rest ih =>
      have moved := (feed.hub.perform_grows factory event).1
      rw [List.foldl_cons, ih, List.countP_cons]
      simp only [perform, moved]
      cases event.isApply with
      | true => simp only [Bool.toNat_true, if_true]; omega
      | false => simp

/-! ## What is shown -/

theorem Sound.shows (sound : feed.Sound)
    (latest : latestOpening feed.consumed = some (generation, jobs)) :
    ShowsReports feed.consumed generation jobs feed.hub.board.value := by
  have orderly := sound.orderly_consumed
  rw [sound.shown]
  exact (Merge.replay_reflects orderly).shows orderly latest

/-- A job without providers is shown with no groups. -/
theorem Sound.shows_nothing (sound : feed.Sound) (dated : feed.Dated)
    (latest : latestOpening feed.consumed = some (generation, jobs)) (listed : job ∈ jobs)
    (nobody : ∀ origin ∈ feed.hub.origins, origin.generation = generation → origin.job ≠ job) :
    feed.hub.board.value.get? job = some [] := by
  have shows := sound.shows latest
  have present := SortedMap.mem_keys_iff.mp ((shows.jobs job).mpr listed)
  obtain ⟨shown, found⟩ := Option.isSome_iff_exists.mp present
  obtain ⟨providers, _, reporters, rfl⟩ := shows.groups job shown found
  have none : providers = [] := by
    refine List.eq_nil_iff_forall_not_mem.mpr fun provider member => ?_
    obtain ⟨groups, reported⟩ := (reporters provider).mp member
    exact nobody _ (dated.known _ groups (List.mem_of_mem_take reported)) rfl rfl
  rw [found, none, List.flatMap_nil]

/-- A job that got no providers in a generation has none in it later. -/
theorem Since.nobody (since : feed.Since generation jobs origins)
    (nobody : ∀ origin ∈ origins, origin.generation = generation → origin.job ≠ job) :
    ∀ origin ∈ feed.hub.origins, origin.generation = generation → origin.job ≠ job := by
  obtain ⟨newer, grown, later⟩ := since.grown
  intro origin member same
  rw [grown] at member
  obtain old | new := List.mem_append.mp member
  · exact nobody origin old same
  · have beyond := later origin new
    omega

/-- So it is shown with no groups as long as this generation is. -/
theorem Since.shows_nothing (since : feed.Since generation jobs origins) (sound : feed.Sound)
    (dated : feed.Dated) (listed : job ∈ jobs)
    (nobody : ∀ origin ∈ origins, origin.generation = generation → origin.job ≠ job)
    {names : List String} (taken : latestOpening feed.consumed = some (generation, names)) :
    feed.hub.board.value.get? job = some [] := by
  obtain rfl := since.opened names (List.mem_of_mem_take (mem_of_latestOpening taken))
  exact sound.shows_nothing dated taken listed (since.nobody nobody)

/-- The merging task comes to the end of the queue. -/
theorem drains (factory : Factory) {merge : Merge} (active : feed.hub.merging = .active merge) :
    let drained := (List.replicate feed.hub.updates.length (.merge false)).foldl
      (perform factory) feed
    drained.hub.updates = [] ∧ drained.hub.merging ≠ .ended := by
  generalize waiting : feed.hub.updates = updates
  induction updates generalizing feed merge with
  | nil => exact ⟨waiting, by simp [active]⟩
  | cons update rest ih =>
      obtain ⟨later, board, stepped⟩ := Hub.mergeStep_takes active waiting
      rw [List.length_cons, List.replicate_succ, List.foldl_cons]
      have goesOn : (feed.perform factory (.merge false)).hub.merging = .active later := by
        simp [perform, Hub.perform, stepped]
      exact ih goesOn (by simp [perform, Hub.perform, stepped])

/-- Once nothing waits, the latest configuration was taken in. -/
theorem Since.latestOpening (since : feed.Since generation jobs origins) (sound : feed.Sound)
    (unended : feed.hub.merging ≠ .ended) (settled : feed.hub.updates = [])
    (last : feed.hub.generation = generation) :
    Discovery.latestOpening feed.consumed = some (generation, jobs) := by
  have consumed : feed.consumed = feed.queued := by
    have none := (sound.waiting unended).trans settled
    rw [Feed.consumed, ← List.append_nil (feed.queued.take _), ← none, List.take_append_drop]
  have announced := since.announced unended
  rw [consumed]
  obtain ⟨⟨number, names⟩, latest⟩ := Option.ne_none_iff_exists'.mp (latestOpening_isSome announced)
  have member := mem_of_latestOpening latest
  have newest := sound.newest number names member
  have least := sound.orderly.le_latest latest announced
  obtain rfl : number = generation := by omega
  rw [latest, sound.orderly.unique member announced]

/-- The providers from before a generation are cancelled for good, and those of the generation are
cancelled together, with the hub or by the next configuration. -/
theorem Since.isLive_eq {earlier begun : List Origin} {place : Nat} {task : ProviderTask}
    (since : feed.Since generation jobs (earlier ++ begun))
    (past : ∀ origin ∈ earlier, origin.generation < generation)
    (own : ∀ origin ∈ begun, origin.generation = generation)
    (present : feed.hub.providers[place]? = some task) (cancelled : Bool) :
    (place < earlier.length → feed.hub.isLive cancelled task = false) ∧
      (earlier.length ≤ place → place < (earlier ++ begun).length →
        feed.hub.isLive cancelled task = (!cancelled && generation == feed.hub.generation)) := by
  obtain ⟨newer, grown, _⟩ := since.grown
  have reached := since.reached
  have found : feed.hub.origins[place]? = some task.origin := by simp [Hub.origins, present]
  rw [grown] at found
  constructor
  · intro before
    rw [List.append_assoc, List.getElem?_append_left before] at found
    have outdated := past _ (List.mem_of_getElem? found)
    have apart : (task.origin.generation == feed.hub.generation) = false := by
      rw [beq_eq_false_iff_ne]
      omega
    rw [Hub.isLive, apart, Bool.and_false]
  · intro after within
    rw [List.getElem?_append_left within, List.getElem?_append_right after] at found
    rw [Hub.isLive, own _ (List.mem_of_getElem? found)]

/-! ## After a configuration was applied -/

section Runs

variable (factory : Factory) (before after : List HubEvent)
  (configs : List (String × Config.Discovery))

theorem run_generation :
    (run factory (before ++ .apply configs :: after)).hub.generation =
      (run factory before).hub.generation + 1 + after.countP HubEvent.isApply := by
  rw [run_append, List.foldl_cons, foldl_generation]
  simp [perform, Hub.perform, Hub.apply_eq]

theorem run_since :
    let hub := (run factory before).hub
    (run factory (before ++ .apply configs :: after)).Since (hub.generation + 1)
      (configs.map Prod.fst)
      (hub.origins ++ (hub.begins factory (.apply configs)).map ProviderTask.origin) := by
  rw [run_append, List.foldl_cons]
  exact (Since.apply (run_sound factory before) factory configs).run factory after

theorem run_isLive {place : Nat} {task : ProviderTask}
    (present : (run factory (before ++ .apply configs :: after)).hub.providers[place]? = some task)
    (cancelled : Bool) :
    let hub := (run factory before).hub
    let later := (run factory (before ++ .apply configs :: after)).hub
    (place < hub.providers.length → later.isLive cancelled task = false) ∧
      (hub.providers.length ≤ place →
        place < (hub.providers ++ hub.begins factory (.apply configs)).length →
        later.isLive cancelled task = (!cancelled && !after.any HubEvent.isApply)) := by
  have past : ∀ origin ∈ (run factory before).hub.origins,
      origin.generation < (run factory before).hub.generation + 1 :=
    fun origin member => Nat.lt_succ_of_le ((run_dated factory before).started origin member)
  have own : ∀ origin ∈ ((run factory before).hub.begins factory (.apply configs)).map
      ProviderTask.origin, origin.generation = (run factory before).hub.generation + 1 := by
    rw [List.forall_mem_map]
    exact fun task begun => (Hub.mem_begins begun).1
  have live := (run_since factory before after configs).isLive_eq past own present cancelled
  have current (generation : Nat) :
      (generation == generation + after.countP HubEvent.isApply) =
        !after.any HubEvent.isApply := by
    rw [Bool.eq_iff_iff]
    simp [List.countP_eq_zero]
  rw [run_generation, current] at live
  simpa only [Hub.origins, List.length_append, List.length_map] using live

/-- A job that has no providers in a generation is shown with no groups as long as the generation
is shown. -/
theorem run_shows_nothing (listed : job ∈ configs.map Prod.fst)
    (nobody : ∀ task ∈ (run factory before).hub.begins factory (.apply configs),
      task.origin.job ≠ job) {names : List String}
    (taken : latestOpening (run factory (before ++ .apply configs :: after)).consumed =
      some ((run factory before).hub.generation + 1, names)) :
    (run factory (before ++ .apply configs :: after)).hub.board.value.get? job = some [] := by
  refine (run_since factory before after configs).shows_nothing (run_sound _ _) (run_dated _ _)
    listed ?_ taken
  intro origin member same
  obtain old | new := List.mem_append.mp member
  · have past := (run_dated factory before).started origin old
    omega
  · obtain ⟨task, begun, rfl⟩ := List.mem_map.mp new
    exact nobody task begun

/-- With no other configuration after it, the merging task takes this one in. -/
theorem run_drained (last : after.any HubEvent.isApply = false) {merge : Merge}
    (active : (run factory (before ++ .apply configs :: after)).hub.merging = .active merge) :
    let feed := run factory (before ++ .apply configs :: after)
    let merges := List.replicate feed.hub.updates.length (HubEvent.merge false)
    latestOpening (run factory (before ++ .apply configs :: (after ++ merges))).consumed =
      some ((run factory before).hub.generation + 1, configs.map Prod.fst) := by
  intro feed merges
  obtain ⟨settled, unended⟩ := drains factory active
  have goesOn : merges.foldl (perform factory) feed =
      run factory (before ++ .apply configs :: (after ++ merges)) := by
    simp only [feed, ← run_append, List.append_assoc, List.cons_append]
  have none : (after ++ merges).countP HubEvent.isApply = 0 := by
    have applied : after.countP HubEvent.isApply = 0 := by simpa [List.countP_eq_zero] using last
    rw [List.countP_append, applied, List.countP_replicate]
    rfl
  have current := run_generation factory before (after ++ merges) configs
  rw [none, Nat.add_zero] at current
  exact (run_since factory before (after ++ merges) configs).latestOpening (run_sound _ _)
    (goesOn ▸ unended) (goesOn ▸ settled) current

end Runs

end Feed

/-! ## Jobs beside each other -/

/-- What is started for the jobs of a configuration: all the providers of a job that can be built,
and none of one that cannot. -/
structure Registry.Starts (registry : Registry) (discoveries : SortedMap Config.Discovery)
    (generation : Nat) (started : List ProviderTask) : Prop where
  own : ∀ task ∈ started, task.origin.generation = generation ∧
    (discoveries.get? task.origin.job).isSome = true
  complete : ∀ job discovery, discoveries.get? job = some discovery →
    ¬ registry.Fails job discovery →
    ∃ configured, List.Forall₂ (registry.Configures job) discovery.providers.zipIdx configured ∧
      started.filter (fun task => task.origin.job = job) =
        launched generation job (buildStatic discovery.staticTargets ++ configured)
  isolated : ∀ job discovery, discoveries.get? job = some discovery →
    registry.Fails job discovery → ∀ task ∈ started, task.origin.job ≠ job

variable {registry : Registry} {discoveries : SortedMap Config.Discovery}

theorem mem_order_iff (order : configs.Perm discoveries.entries) :
    (job, discovery) ∈ configs ↔ discoveries.get? job = some discovery :=
  order.mem_iff.trans SortedMap.get?_eq_some_iff.symm

theorem plan_starts (registry : Registry) (order : configs.Perm discoveries.entries)
    (generation : Nat) :
    registry.Starts discoveries generation (Hub.plan registry.build generation configs).tasks := by
  have distinct : (configs.map Prod.fst).Nodup :=
    (order.map Prod.fst).nodup_iff.mpr discoveries.nodup_keys
  refine ⟨?_, ?_, ?_⟩
  · intro task planned
    obtain ⟨own, named⟩ := Hub.plan_origin planned
    obtain ⟨⟨job, discovery⟩, listed, same⟩ := List.mem_map.mp named
    rw [← same, (mem_order_iff order).mp listed]
    exact ⟨own, rfl⟩
  · intro job discovery held working
    obtain ⟨built, ok⟩ := Registry.not_fails_iff.mp working
    obtain ⟨configured, made, rfl⟩ := Registry.build_eq_ok_iff.mp ok
    refine ⟨configured, made, ?_⟩
    rw [Hub.plan_filter distinct ((mem_order_iff order).mpr held), Hub.tasksOf, ok]
  · intro job discovery held fails task planned
    obtain ⟨failure, error⟩ := Registry.fails_iff.mp fails
    have nothing : (Hub.plan registry.build generation configs).tasks.filter
        (fun task => task.origin.job = job) = _ :=
      Hub.plan_filter distinct ((mem_order_iff order).mpr held)
    rw [Hub.tasksOf, error] at nothing
    simpa using List.filter_eq_nil_iff.mp nothing task planned

/-- The failure that is returned is that of the first job that cannot be built. -/
theorem apply_fails {hub : Hub} {failure : Failure}
    (failed : (hub.apply registry.build configs).2.2 = .error failure) :
    ∃ before job discovery after cause, configs = before ++ (job, discovery) :: after ∧
      (∀ earlier ∈ before, ¬ registry.Fails earlier.1 earlier.2) ∧
      registry.FailsWith job discovery.providers cause ∧ failure = .discovery job cause := by
  rw [Hub.apply_result] at failed
  split at failed
  · rename_i reason planned
    obtain rfl := Except.error.inj failed
    obtain ⟨before, ⟨job, discovery⟩, after, split, earlier, error⟩ := Hub.plan_failure planned
    obtain ⟨cause, fails, rfl⟩ := Registry.build_eq_error_iff.mp error
    exact ⟨before, job, discovery, after, cause, split,
      fun config member => Registry.not_fails_iff.mpr (earlier config member), fails, rfl⟩
  · cases failed

theorem apply_fails_iff (order : configs.Perm discoveries.entries) {hub : Hub} :
    (∃ failure, (hub.apply registry.build configs).2.2 = .error failure) ↔
      ∃ job discovery, discoveries.get? job = some discovery ∧ registry.Fails job discovery := by
  constructor
  · rintro ⟨failure, failed⟩
    obtain ⟨before, job, discovery, after, cause, rfl, _, fails, _⟩ := apply_fails failed
    exact ⟨job, discovery, (mem_order_iff order).mp (by simp), cause, fails⟩
  · rintro ⟨job, discovery, held, fails⟩
    cases failed : (Hub.plan registry.build (hub.generation + 1) configs).failure with
    | some failure => exact ⟨failure, by rw [Hub.apply_result, failed]⟩
    | none =>
        have working := Hub.plan_failure_eq_none_iff.mp failed _ ((mem_order_iff order).mpr held)
        exact absurd fails (Registry.not_fails_iff.mpr working)

/-- Discovery settings are given in any order to a hub that any run has led to. The call fails
exactly if the providers of some job cannot be built, with the failure of the first such job.
Either way a new generation has come: all the providers of every other job are started in it, and
none of a job that fails. However the hub goes on, the earlier providers are cancelled, the new ones
are cancelled together and not before the next configuration comes or the hub is cancelled, and a
job that fails is shown with no groups from the moment the configuration is taken in until the next
one is; the merging task takes it in once it comes to the end of its queue. -/
theorem failing_jobs_are_isolated (order : configs.Perm discoveries.entries)
    (before : List HubEvent) :
    let hub := (Feed.run registry.build before).hub
    let applied := (hub.apply registry.build configs).1
    let result := (hub.apply registry.build configs).2.2
    ((∃ failure, result = .error failure) ↔
      ∃ job discovery, discoveries.get? job = some discovery ∧ registry.Fails job discovery) ∧
    (∀ failure, result = .error failure →
      ∃ front job discovery rest cause, configs = front ++ (job, discovery) :: rest ∧
        (∀ earlier ∈ front, ¬ registry.Fails earlier.1 earlier.2) ∧
        registry.FailsWith job discovery.providers cause ∧ failure = .discovery job cause) ∧
    applied.generation = hub.generation + 1 ∧
    (∃ started, applied.providers = hub.providers ++ started ∧
      registry.Starts discoveries applied.generation started) ∧
    ∀ after : List HubEvent,
      let feed := Feed.run registry.build (before ++ .apply configs :: after)
      applied.origins <+: feed.hub.origins ∧
      (∀ cancelled place task, feed.hub.providers[place]? = some task →
        (place < hub.providers.length → feed.hub.isLive cancelled task = false) ∧
        (hub.providers.length ≤ place → place < applied.providers.length →
          feed.hub.isLive cancelled task = (!cancelled && !after.any HubEvent.isApply))) ∧
      ∀ job discovery, discoveries.get? job = some discovery → registry.Fails job discovery →
        (∀ jobs, latestOpening feed.consumed = some (applied.generation, jobs) →
          feed.hub.board.value.get? job = some []) ∧
        (∀ merge, feed.hub.merging = .active merge → after.any HubEvent.isApply = false →
          ((List.replicate feed.hub.updates.length (.merge false)).foldl
            (Feed.perform registry.build) feed).hub.board.value.get? job = some []) := by
  intro hub applied result
  have generation : applied.generation = hub.generation + 1 := by
    simp only [applied, Hub.apply_eq]
  have started : applied.providers =
      hub.providers ++ hub.begins registry.build (.apply configs) := by
    simp only [applied, Hub.apply_eq, Hub.begins]
  have starts : registry.Starts discoveries applied.generation
      (hub.begins registry.build (.apply configs)) := by
    rw [generation]
    exact plan_starts registry order _
  refine ⟨apply_fails_iff order, fun failure failed => apply_fails failed, generation,
    ⟨_, started, starts⟩, fun after => ?_⟩
  intro feed
  refine ⟨?_, ?_, fun job discovery held fails => ?_⟩
  · obtain ⟨newer, grown, _⟩ := (Feed.run_since registry.build before after configs).grown
    exact ⟨newer, by rw [Hub.origins, started, List.map_append]; exact grown.symm⟩
  · intro cancelled place task present
    rw [started]
    exact Feed.run_isLive registry.build before after configs present cancelled
  · have listed := List.mem_map_of_mem (f := Prod.fst) ((mem_order_iff order).mpr held)
    have nobody := starts.isolated job discovery held fails
    rw [generation]
    constructor
    · intro jobs taken
      exact Feed.run_shows_nothing registry.build before after configs listed nobody taken
    · intro merge active last
      have taken := Feed.run_drained registry.build before after configs last active
      have shown := Feed.run_shows_nothing registry.build before _ configs listed nobody taken
      rwa [← List.cons_append, ← List.append_assoc, Feed.run_append] at shown

/-- A job with a static address, and with a provider of an unknown kind beside it. -/
def brokenDiscovery : Config.Discovery := ⟨[⟨["b:1"], .empty⟩], [⟨"consul", .empty⟩]⟩

def workingDiscovery : Config.Discovery := ⟨[⟨["a:1"], .empty⟩], []⟩

/-- The job that can be built starts, although the other one fails. -/
theorem failing_jobs_are_isolated_consul :
    let discoveries : SortedMap Config.Discovery :=
      .ofList [("broken", brokenDiscovery), ("ok", workingDiscovery)]
    let configs := [("ok", workingDiscovery), ("broken", brokenDiscovery)]
    let hub := (Feed.run Registry.bare.build [.enter]).hub
    configs.Perm discoveries.entries ∧
      (∃ failure, (hub.apply Registry.bare.build configs).2.2 = .error failure) ∧
      ∃ started, (hub.apply Registry.bare.build configs).1.providers = hub.providers ++ started ∧
        Registry.bare.Starts discoveries 1 started := by
  intro discoveries configs hub
  have order : configs.Perm discoveries.entries := List.Perm.swap _ _ _
  have fails : Registry.bare.Fails "broken" brokenDiscovery :=
    ⟨_, [], ⟨"consul", .empty⟩, [], rfl, by simp, .unknownKind rfl⟩
  obtain ⟨failed, _, _, started, _⟩ := failing_jobs_are_isolated order [.enter]
  exact ⟨order, failed.mpr ⟨"broken", brokenDiscovery, rfl, fails⟩, started⟩

end ScrapeRelay.Discovery
