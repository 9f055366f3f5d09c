import ScrapeRelay.Proofs.Discovery.Feed

/-!
# What the providers of a configuration show

A hub that is given one configuration starts the providers of every job that can be built.
Whatever these send and in whatever order, a hub that has nothing left to do shows for each
job the static groups of the job and what each of its other providers sent last
(`Supplied.board_eq`).
-/

namespace ScrapeRelay.Discovery

variable {registry : Registry} {discoveries : SortedMap Config.Discovery} {job : String}
  {discovery : Config.Discovery} {built : List (String × Discoverer)} {sent news : List Update}
  {applied : Bool}

/-- What a provider of a job has sent last. The provider of the static targets sends these,
and nothing else. -/
def lastSent (sent : List Update) (job : String) (discovery : Config.Discovery)
    (provider : String) : List TargetGroup :=
  if provider = staticName then staticGroups 0 discovery.staticTargets
  else (latestReport sent ⟨1, job, provider⟩).getD []

/-- What the providers of a job have sent last, in the order of their names. A job that
cannot be built has no providers. -/
def groupsOf (registry : Registry) (sent : List Update) (job : String)
    (discovery : Config.Discovery) : List TargetGroup :=
  match registry.build job discovery with
  | .ok built =>
      let named := (built.map Prod.fst).map (fun provider =>
        (provider, lastSent sent job discovery provider))
      (SortedMap.ofList named).values.flatten
  | .error _ => []

theorem providerName_ne_static (kind : String) (place : Nat) :
    providerName kind place ≠ staticName := by
  intro same
  have slash : '/' ∈ (providerName kind place).toList := by simp [providerName]
  rw [same] at slash
  exact absurd slash (by decide)

theorem name_of_mem_buildFrom {place : Nat} {providers : List Config.Provider}
    (ok : registry.buildFrom job place providers = .ok built) {provider : String × Discoverer}
    (member : provider ∈ built) : ∃ kind place, provider.1 = providerName kind place := by
  induction providers generalizing place built with
  | nil =>
      obtain rfl := Except.ok.inj ok
      simp at member
  | cons first rest ih =>
      simp only [Registry.buildFrom] at ok
      split at ok
      · cases ok
      · split at ok
        · cases ok
        · rename_i others later
          obtain rfl := Except.ok.inj ok
          obtain rfl | member := List.mem_cons.mp member
          · exact ⟨first.kind, place, rfl⟩
          · exact ih later member

/-- The provider called static is the one of the static targets. -/
theorem static_of_mem_build (ok : registry.build job discovery = .ok built)
    {provider : String × Discoverer} (member : provider ∈ built)
    (static : provider.1 = staticName) :
    provider.2 = .fixed (staticGroups 0 discovery.staticTargets) := by
  unfold Registry.build at ok
  split at ok
  · cases ok
  · rename_i configured made
    obtain rfl := Except.ok.inj ok
    obtain own | other := List.mem_append.mp member
    · unfold buildStatic at own
      split at own
      · simp at own
      · rw [List.mem_singleton.mp own]
    · obtain ⟨kind, place, named⟩ := name_of_mem_buildFrom made other
      exact absurd (named.symm.trans static) (providerName_ne_static kind place)

/-- The groups of the static targets of a provider's job. -/
def staticsOf (discoveries : SortedMap Config.Discovery) (origin : Origin) : List TargetGroup :=
  match discoveries.get? origin.job with
  | some discovery => staticGroups 0 discovery.staticTargets
  | none => []

/-- A provider of static targets sends these as it starts. -/
def ProviderTask.SendsStatics (discoveries : SortedMap Config.Discovery) (sent : List Update)
    (task : ProviderTask) : Prop :=
  task.origin.provider = staticName →
    task.discoverer.opening = some (staticsOf discoveries task.origin) ∧
      (task.phase = .launched ∨
        latestReport sent task.origin = some (staticsOf discoveries task.origin))

/-- It goes on doing so while nothing else is sent in its name. -/
theorem ProviderTask.SendsStatics.append {task : ProviderTask}
    (sends : task.SendsStatics discoveries sent)
    (faithful : ∀ origin groups, .reported origin groups ∈ news →
      origin.provider = staticName → groups = staticsOf discoveries origin) :
    task.SendsStatics discoveries (sent ++ news) := by
  intro static
  obtain ⟨opening, launched | before⟩ := sends static
  · exact ⟨opening, .inl launched⟩
  · refine ⟨opening, .inr ?_⟩
    rw [latestReport_append]
    cases latest : latestReport news task.origin with
    | none => exact before
    | some groups =>
        rw [faithful _ groups (mem_of_latestReport latest) static]
        rfl

namespace Hub

variable {hub : Hub}

/-- What the plan of a configuration starts sends the static targets, if it has to. -/
theorem plan_sendsStatics {task : ProviderTask}
    (member : task ∈ (plan registry.build 1 discoveries.entries).tasks) :
    task.SendsStatics discoveries sent := by
  obtain ⟨job, discovery, built, listed, ok, provider, made, rfl⟩ := mem_plan_iff.mp member
  intro static
  have held := SortedMap.get?_eq_some_iff.mpr listed
  have fixed := static_of_mem_build ok made static
  exact ⟨by simp [fixed, Discoverer.fixed, staticsOf, held], .inl rfl⟩

/-- A turn of the merging task may show something new. -/
theorem mergeStep_active {merge : Merge} (active : hub.merging = .active merge) :
    ∃ updates merge board, (board = hub.board ∨ ∃ sets, board = hub.board.post sets) ∧
      hub.mergeStep false =
        { hub with updates := updates, merging := .active merge, board := board } := by
  simp only [Hub.mergeStep, active, Bool.false_eq_true, if_false, absorb]
  split
  · exact ⟨hub.updates, merge, hub.board, .inl rfl, by rw [← active]⟩
  · split
    · exact ⟨_, merge, hub.board, .inl rfl, by rw [← active]⟩
    · exact ⟨_, _, _, .inr ⟨_, rfl⟩, rfl⟩

/-- A hub whose merging goes on and whose providers are those of one configuration, once
that is applied. What the providers have sent is known. -/
structure Supplied (registry : Registry) (discoveries : SortedMap Config.Discovery)
    (applied : Bool) (sent : List Update) (hub : Hub) : Prop where
  unended : hub.merging ≠ .ended
  generation : hub.generation = applied.toNat
  origins : hub.origins =
    if applied then (plan registry.build 1 discoveries.entries).tasks.map ProviderTask.origin
    else []
  /-- Nobody else sends anything. -/
  heard : ∀ origin, latestReport sent origin ≠ none → origin ∈ hub.origins
  statics : ∀ task ∈ hub.providers, task.SendsStatics discoveries sent
  /-- All that was ever queued is the opening and what the providers have sent. -/
  feed : ∃ feed : Feed, feed.Sound ∧ feed.hub = hub ∧
    latestOpening feed.queued = (if applied then some (1, discoveries.keys) else none) ∧
    ∀ origin, latestReport feed.queued origin = latestReport sent origin

namespace Supplied

theorem new : new.Supplied registry discoveries false [] := by
  refine ⟨by simp [Hub.new], rfl, rfl, by simp [latestReport], by simp [Hub.new],
    .new, .new, rfl, rfl, fun _ => rfl⟩

theorem apply (supplied : hub.Supplied registry discoveries false sent) :
    (hub.apply registry.build discoveries.entries).1.Supplied registry discoveries true sent := by
  obtain ⟨unended, generation, origins, heard, _, feed, sound, rfl, unopened, same⟩ := supplied
  have nobody : feed.hub.providers = [] := List.map_eq_nil_iff.mp origins
  have first : feed.hub.generation + 1 = 1 := by rw [generation]; rfl
  have queued : feed.hub.queues (.apply discoveries.entries) =
      [.reconfigured 1 discoveries.keys] := by
    rw [queues, sent_of_open unended, first]
    rfl
  have applied := feed.hub.apply_eq registry.build discoveries.entries
  rw [nobody, List.nil_append, first] at applied
  refine ⟨?_, ?_, ?_, fun origin known => ?_, fun task member => ?_,
    feed.perform registry.build (.apply discoveries.entries), sound.perform _ _, rfl, ?_, ?_⟩
  · rw [applied]
    exact unended
  · rw [applied]
    rfl
  · rw [applied]
    rfl
  · have listed := heard origin known
    rw [origins] at listed
    simp at listed
  · rw [applied] at member
    exact plan_sendsStatics member
  · simp [Feed.perform, queued, latestOpening_concat, Update.opening?]
  · intro origin
    rw [Feed.perform, queued, latestReport_concat, ← same]
    rfl

theorem enter (supplied : hub.Supplied registry discoveries applied sent)
    (idle : hub.merging = .idle) :
    ({ hub with merging := .active .new }).Supplied registry discoveries applied sent := by
  obtain ⟨_, generation, origins, heard, statics, feed, sound, rfl, opened, same⟩ := supplied
  refine ⟨by simp, generation, origins, heard, statics, feed.perform registry.build .enter,
    sound.perform _ _, ?_, ?_, ?_⟩
  · simp [Feed.perform, Hub.perform, Hub.enter, idle]
  · simpa [Feed.perform, queues] using opened
  · simpa [Feed.perform, queues] using same

theorem mergeStep (supplied : hub.Supplied registry discoveries applied sent) :
    (hub.mergeStep false).Supplied registry discoveries applied sent := by
  cases merging : hub.merging with
  | active merge =>
      obtain ⟨unended, generation, origins, heard, statics, feed, sound, rfl, opened, same⟩ :=
        supplied
      obtain ⟨updates, later, board, _, stepped⟩ := mergeStep_active merging
      refine ⟨?_, ?_, ?_, ?_, ?_, feed.perform registry.build (.merge false), sound.perform _ _, rfl,
        ?_, ?_⟩
      · simp [stepped]
      · rw [stepped]
        exact generation
      · rw [stepped]
        exact origins
      · rw [stepped]
        exact heard
      · rw [stepped]
        exact statics
      · simpa [Feed.perform, queues] using opened
      · simpa [Feed.perform, queues] using same
  | _ => simpa [Hub.mergeStep, merging] using supplied

/-- The providers go on and send something. -/
theorem send (supplied : hub.Supplied registry discoveries applied sent) {event : HubEvent}
    {providers : List ProviderTask}
    (performed : hub.perform registry.build event = { hub with
      updates := hub.updates ++ hub.queues event
      providers := providers })
    (origins : providers.map ProviderTask.origin = hub.origins)
    (reports : ∀ update ∈ hub.queues event, ∃ origin ∈ hub.origins, ∃ groups,
      update = .reported origin groups)
    (statics : ∀ task ∈ providers, task.SendsStatics discoveries (sent ++ hub.queues event)) :
    (hub.perform registry.build event).Supplied registry discoveries applied
      (sent ++ hub.queues event) := by
  obtain ⟨unended, generation, earlier, heard, _, feed, sound, rfl, opened, same⟩ := supplied
  refine ⟨?_, ?_, ?_, fun origin known => ?_, ?_, feed.perform registry.build event,
    sound.perform _ _, rfl, ?_, fun origin => ?_⟩
  · rw [performed]
    exact unended
  · rw [performed]
    exact generation
  · rw [performed]
    exact origins.trans earlier
  · rw [performed]
    refine Eq.mpr (congrArg (origin ∈ ·) origins) ?_
    rw [latestReport_append, ne_eq, Option.or_eq_none_iff, not_and_or] at known
    obtain now | before := known
    · obtain ⟨groups, latest⟩ := Option.ne_none_iff_exists'.mp now
      obtain ⟨_, member, _, reported⟩ := reports _ (mem_of_latestReport latest)
      obtain ⟨rfl, _⟩ := Update.reported.inj reported
      exact member
    · exact heard origin before
  · rw [performed]
    exact statics
  · have unopened : latestOpening (feed.hub.queues event) = none := by
      refine List.getLast?_eq_none_iff.mpr (List.filterMap_eq_nil_iff.mpr fun update member => ?_)
      obtain ⟨_, _, _, rfl⟩ := reports update member
      rfl
    rw [Feed.perform, latestOpening_append, unopened, Option.none_or]
    exact opened
  · rw [Feed.perform, latestReport_append, latestReport_append, same]

theorem mem_queues_provider {place : Nat} {update : Update}
    (member : update ∈ hub.queues (.provider place)) :
    ∃ task groups, hub.providers[place]? = some task ∧ task.phase = .launched ∧
      task.discoverer.opening = some groups ∧ update = .reported task.origin groups := by
  simp only [queues] at member
  split at member
  · rename_i task present
    split at member
    · rename_i groups launched opening
      exact ⟨task, groups, present, launched, opening, mem_sent member⟩
    · simp at member
  · simp at member

theorem providerStep (supplied : hub.Supplied registry discoveries applied sent) (place : Nat) :
    (hub.providerStep place).1.Supplied registry discoveries applied
      (sent ++ hub.queues (.provider place)) := by
  obtain ⟨_, same, nothing⟩ | ⟨task, phase, present, begun, stepped⟩ :=
    hub.providerStep_cases place
  · rw [same, nothing, List.append_nil]
    exact supplied
  · have listed := List.mem_of_getElem? present
    have faithful : ∀ origin groups, .reported origin groups ∈ hub.queues (.provider place) →
        origin.provider = staticName → groups = staticsOf discoveries origin := by
      intro origin groups member static
      obtain ⟨_, _, held, _, opening, reported⟩ := mem_queues_provider member
      obtain rfl := Option.some.inj (present.symm.trans held)
      obtain ⟨rfl, rfl⟩ := Update.reported.inj reported
      exact Option.some.inj (opening.symm.trans (supplied.statics task listed static).1)
    refine supplied.send stepped (setPhase_origins present phase) ?_ ?_
    · intro update member
      obtain ⟨_, groups, held, _, _, reported⟩ := mem_queues_provider member
      obtain rfl := Option.some.inj (present.symm.trans held)
      exact ⟨task.origin, List.mem_map_of_mem listed, groups, reported⟩
    · intro other member
      obtain member | rfl := List.mem_or_eq_of_mem_set member
      · exact (supplied.statics other member).append faithful
      · intro static
        obtain ⟨opening, sends⟩ := (supplied.statics task listed).append faithful static
        refine ⟨opening, .inr ?_⟩
        obtain launched | sends := sends
        · have queued : hub.queues (.provider place) =
              [.reported task.origin (staticsOf discoveries task.origin)] := by
            simp [queues, present, launched, opening, sent_of_open supplied.unended]
          rw [queued, latestReport_concat]
          simp [Update.groupsOf?]
        · exact sends

/-- Groups are sent through a provider that is not of static targets. -/
theorem report (supplied : hub.Supplied registry discoveries applied sent) {place : Nat}
    {task : ProviderTask} (present : hub.providers[place]? = some task)
    (other : task.origin.provider ≠ staticName) (groups : List TargetGroup) :
    (hub.send (.reported task.origin groups)).1.Supplied registry discoveries applied
      (sent ++ [.reported task.origin groups]) := by
  have queued : hub.queues (.report place groups) = [.reported task.origin groups] := by
    simp [queues, present, sent_of_open supplied.unended]
  have performed : hub.perform registry.build (.report place groups) =
      (hub.send (.reported task.origin groups)).1 := by
    simp [Hub.perform, present]
  rw [← queued, ← performed]
  refine supplied.send ?_ rfl ?_ fun task member => ?_
  · rw [performed, queued, send_of_open supplied.unended]
  · rw [queued]
    intro update member
    exact ⟨task.origin, List.mem_map_of_mem (List.mem_of_getElem? present), groups,
      List.mem_singleton.mp member⟩
  · refine (supplied.statics task member).append fun origin groups member static => ?_
    rw [queued] at member
    obtain ⟨rfl, rfl⟩ := Update.reported.inj (List.mem_singleton.mp member)
    exact absurd static other

/-- Whether a job has a provider of the given name. -/
theorem mem_origins_iff (supplied : hub.Supplied registry discoveries true sent)
    (held : discoveries.get? job = some discovery) (provider : String) :
    ⟨1, job, provider⟩ ∈ hub.origins ↔
      ∃ built, registry.build job discovery = .ok built ∧ provider ∈ built.map Prod.fst := by
  rw [supplied.origins, if_pos rfl, List.mem_map]
  constructor
  · rintro ⟨task, planned, same⟩
    obtain ⟨name, settings, built, listed, ok, made, member, rfl⟩ := mem_plan_iff.mp planned
    obtain ⟨_, rfl, rfl⟩ := Origin.mk.inj same
    have own := SortedMap.get?_eq_some_iff.mpr listed
    obtain rfl := Option.some.inj (held.symm.trans own)
    exact ⟨built, ok, List.mem_map_of_mem member⟩
  · rintro ⟨built, ok, named⟩
    obtain ⟨made, member, rfl⟩ := List.mem_map.mp named
    exact ⟨_, mem_plan_iff.mpr ⟨job, discovery, built, SortedMap.get?_eq_some_iff.mp held, ok, made,
      member, rfl⟩, rfl⟩

/-- Once every provider has started, what was sent for a job is what its providers sent. -/
theorem latestReport_eq (supplied : hub.Supplied registry discoveries true sent)
    (started : ∀ task ∈ hub.providers, task.phase ≠ .launched)
    (held : discoveries.get? job = some discovery) (provider : String) :
    (latestReport sent ⟨1, job, provider⟩).getD [] =
      if (⟨1, job, provider⟩ : Origin) ∈ hub.origins then lastSent sent job discovery provider
      else [] := by
  split
  · rename_i member
    unfold lastSent
    split
    · rename_i static
      obtain ⟨task, listed, same⟩ := List.mem_map.mp member
      obtain ⟨_, launched | sends⟩ := supplied.statics task listed (by rw [same]; exact static)
      · exact absurd launched (started task listed)
      · rw [same] at sends
        rw [sends, staticsOf, held]
        rfl
    · rfl
  · rename_i absent
    by_contra nonempty
    refine absent (supplied.heard _ fun none => nonempty ?_)
    rw [none]
    rfl

/-- A hub that has nothing left to do shows for each job what its providers sent last. -/
theorem board_eq (supplied : hub.Supplied registry discoveries true sent) {merge : Merge}
    (active : hub.merging = .active merge) (settled : hub.updates = [])
    (started : ∀ task ∈ hub.providers, task.phase ≠ .launched) :
    hub.board.value = discoveries.map (groupsOf registry sent) := by
  obtain ⟨feed, sound, rfl, opened, same⟩ := supplied.feed
  have consumed : feed.consumed = feed.queued := by
    have none := (sound.waiting supplied.unended).trans settled
    rw [Feed.consumed, ← List.append_nil (feed.queued.take _), ← none, List.take_append_drop]
  have reflects := Merge.replay_reflects sound.orderly
  rw [if_pos rfl] at opened
  rw [sound.shown, consumed]
  refine SortedMap.ext_get? fun job => ?_
  rw [Merge.sets, SortedMap.get?_map, SortedMap.get?_map]
  have known := reflects.jobs _ _ opened job
  cases held : discoveries.get? job with
  | none =>
      rw [SortedMap.mem_keys_iff, held] at known
      have absent : (Merge.replay feed.queued).reports.get? job = none := by simpa using known
      rw [absent]
      rfl
  | some discovery =>
      rw [SortedMap.mem_keys_iff, held] at known
      obtain ⟨reports, found⟩ := Option.isSome_iff_exists.mp (known.mpr rfl)
      have latest (provider : String) : (reports.get? provider).getD [] =
          if (⟨1, job, provider⟩ : Origin) ∈ feed.hub.origins
          then lastSent sent job discovery provider else [] := by
        rw [reflects.reports _ _ opened job reports found, same]
        exact supplied.latestReport_eq started held provider
      rw [found, Option.map_some, Option.map_some, groupsOf]
      split
      · rename_i built ok
        have present (provider : String) : (⟨1, job, provider⟩ : Origin) ∈ feed.hub.origins ↔
            provider ∈ built.map Prod.fst := by
          rw [supplied.mem_origins_iff held, ok]
          simp
        refine congrArg some (SortedMap.flatten_values_congr fun provider => ?_)
        rw [latest, SortedMap.get?_ofList_map]
        simp only [present]
        split <;> rfl
      · rename_i failure error
        have absent (provider : String) : (⟨1, job, provider⟩ : Origin) ∉ feed.hub.origins := by
          rw [supplied.mem_origins_iff held, error]
          simp
        have nothing : reports.values.flatten = (SortedMap.empty).values.flatten :=
          SortedMap.flatten_values_congr fun provider => by
            rw [latest, if_neg (absent provider)]
            rfl
        rw [nothing]
        rfl

end Supplied

end Hub

end ScrapeRelay.Discovery
