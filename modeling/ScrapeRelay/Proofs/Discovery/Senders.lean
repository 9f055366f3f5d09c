import Mathlib.Data.List.Sigma
import ScrapeRelay.Proofs.Discovery.Providers
import ScrapeRelay.Proofs.Discovery.Reconfiguration
import ScrapeRelay.Proofs.Joined
import ScrapeRelay.Proofs.Text.Numerals

/-!
# Whose groups a merge holds

A configured provider is named after its kind and its place. A kind is any text, but the last slash
of a name stands before the place, so the providers of a job have different names
(`build_names_nodup`). Providers of different jobs or generations differ in these, so the origins in
a hub are distinct (`run_origins_nodup`).

A letter is an update with the provider that sent it, whatever this is called. As origins are
distinct, what a merge holds under the name of a provider is what this very provider sent last
(`providers_never_clash`).
-/

namespace ScrapeRelay.Discovery

open ScrapeRelay.Text

variable {registry : Registry} {factory : Factory} {job : String} {discovery : Config.Discovery}
  {built : List (String × Discoverer)}

theorem slash_not_mem_decimal (place : Nat) : '/' ∉ (decimal place).toList := by
  intro member
  rw [decimal, String.toList_ofList] at member
  exact absurd (isDigit_of_mem_toDigits member) (by decide)

theorem providerName_inj {kind kind' : String} {place place' : Nat} :
    providerName kind place = providerName kind' place' ↔ kind = kind' ∧ place = place' := by
  constructor
  · intro same
    obtain ⟨kinds, places⟩ := joined_last_inj (slash_not_mem_decimal place)
      (slash_not_mem_decimal place') same
    exact ⟨kinds, decimal_inj.mp places⟩
  · rintro ⟨rfl, rfl⟩
    rfl

theorem buildStatic_eq (groups : List Config.StaticTargets) :
    buildStatic groups =
      if groups = [] then [] else [(staticName, .fixed (staticGroups 0 groups))] := by
  cases groups <;> rfl

namespace Registry

section Configured

variable {configured : List (String × Discoverer)} {providers : List Config.Provider}

theorem names_of_configures {placed : List (Config.Provider × Nat)}
    (made : List.Forall₂ (registry.Configures job) placed configured) :
    configured.map Prod.fst =
      placed.map (fun provider => providerName provider.1.kind provider.2) := by
  induction made with
  | nil => rfl
  | cons own _ ih => rw [List.map_cons, List.map_cons, ih, own.1]

/-- Configured providers of any kinds have different names, as they are at different places. -/
theorem configured_names_nodup
    (made : List.Forall₂ (registry.Configures job) providers.zipIdx configured) :
    (configured.map Prod.fst).Nodup := by
  have places := List.pairwise_map.mp (List.nodup_zipIdx_map_snd providers)
  rw [names_of_configures made]
  exact List.pairwise_map.mpr (places.imp fun apart same => apart (providerName_inj.mp same).2)

theorem static_not_mem_names {placed : List (Config.Provider × Nat)}
    (made : List.Forall₂ (registry.Configures job) placed configured) :
    staticName ∉ configured.map Prod.fst := by
  rw [names_of_configures made]
  intro member
  obtain ⟨provider, _, named⟩ := List.mem_map.mp member
  exact providerName_ne_static _ _ named

end Configured

theorem static_mem_names_iff (ok : registry.build job discovery = .ok built) :
    staticName ∈ built.map Prod.fst ↔ discovery.staticTargets ≠ [] := by
  obtain ⟨configured, made, rfl⟩ := build_eq_ok_iff.mp ok
  rw [List.map_append, List.mem_append, buildStatic_eq]
  simp only [static_not_mem_names made, or_false]
  split <;> simp [*]

/-- The providers of a job have different names. -/
theorem build_names_nodup (ok : registry.build job discovery = .ok built) :
    (built.map Prod.fst).Nodup := by
  obtain ⟨configured, made, rfl⟩ := build_eq_ok_iff.mp ok
  have own := configured_names_nodup made
  rw [List.map_append, buildStatic_eq]
  split
  · exact own
  · exact List.nodup_cons.mpr ⟨static_not_mem_names made, own⟩

end Registry

/-- The providers of a job have names of their own. -/
def Factory.NamesApart (factory : Factory) : Prop :=
  ∀ job discovery built, factory job discovery = .ok built → (built.map Prod.fst).Nodup

/-- Settings come by the names of their jobs, so no job comes twice. -/
def HubEvent.NamesJobsOnce : HubEvent → Prop
  | .apply configs => (configs.map Prod.fst).Nodup
  | _ => True

namespace Hub

theorem tasksOf_origins_nodup (apart : factory.NamesApart) (generation : Nat)
    (config : String × Config.Discovery) :
    ((tasksOf factory generation config).map ProviderTask.origin).Nodup := by
  unfold tasksOf
  split
  · rename_i built ok
    have names := List.pairwise_map.mp (apart config.1 config.2 built ok)
    rw [launched, List.map_map]
    exact List.pairwise_map.mpr (names.imp fun different same =>
      different (congrArg Origin.provider same))
  · exact List.nodup_nil

theorem plan_origins_nodup (apart : factory.NamesApart) (generation : Nat)
    {configs : List (String × Config.Discovery)} (once : (configs.map Prod.fst).Nodup) :
    ((plan factory generation configs).tasks.map ProviderTask.origin).Nodup := by
  rw [plan_tasks, List.map_flatMap, List.nodup_flatMap]
  refine ⟨fun config _ => tasksOf_origins_nodup apart generation config, ?_⟩
  refine (List.pairwise_map.mp once).imp fun {config other} different origin own foreign => ?_
  obtain ⟨task, started, rfl⟩ := List.mem_map.mp own
  obtain ⟨task', started', same⟩ := List.mem_map.mp foreign
  have jobs := congrArg Origin.job same
  rw [job_of_mem_tasksOf started, job_of_mem_tasksOf started'] at jobs
  exact different jobs.symm

theorem begins_origins_nodup (apart : factory.NamesApart) (hub : Hub) {event : HubEvent}
    (once : event.NamesJobsOnce) :
    ((hub.begins factory event).map ProviderTask.origin).Nodup := by
  cases event with
  | apply configs => exact plan_origins_nodup apart _ once
  | _ => exact List.nodup_nil

end Hub

theorem Feed.run_origins_concat (factory : Factory) (events : List HubEvent) (event : HubEvent) :
    (run factory (events ++ [event])).hub.origins = (run factory events).hub.origins ++
      ((run factory events).hub.begins factory event).map ProviderTask.origin := by
  rw [run_append]
  exact ((run factory events).hub.perform_grows factory event).2

/-- No two providers that are ever started have the same origin: what an event starts is of a
generation that no earlier provider is of. -/
theorem Feed.run_origins_nodup (apart : factory.NamesApart) (events : List HubEvent)
    (once : ∀ event ∈ events, event.NamesJobsOnce) : (run factory events).hub.origins.Nodup := by
  induction events using List.reverseRecOn with
  | nil => exact List.nodup_nil
  | append_singleton events event ih =>
      have earlier := ih fun other member => once other (List.mem_append_left _ member)
      have begun := Hub.begins_origins_nodup apart (run factory events).hub (once event (by simp))
      rw [run_origins_concat]
      refine List.nodup_append.mpr ⟨earlier, begun, fun origin old other new => ?_⟩
      rintro rfl
      have past := (run_dated factory events).started origin old
      obtain ⟨task, started, rfl⟩ := List.mem_map.mp new
      have own := (Hub.mem_begins started).1
      omega

/-- An update that was queued, and the place of the provider that sent it. A configuration is sent
by none. -/
structure Letter where
  sender : Option Nat
  update : Update

/-- The provider that an event sends groups through. -/
def HubEvent.sender? : HubEvent → Option Nat
  | .report place _ => some place
  | .provider place => some place
  | _ => none

def Hub.posts (hub : Hub) (event : HubEvent) : List Letter :=
  (hub.queues event).map (Letter.mk event.sender?)

/-- All that is queued while a feed goes on, oldest first. -/
def Feed.letters (factory : Factory) (feed : Feed) : List HubEvent → List Letter
  | [] => []
  | event :: rest => feed.hub.posts event ++ (feed.perform factory event).letters factory rest

namespace Letter

variable {origins : List Origin} {letter : Letter}

/-- A letter with groups bears the origin of the provider that sent it. -/
def IsSigned (origins : List Origin) (letter : Letter) : Prop :=
  match letter.update with
  | .reconfigured _ _ => True
  | .reported origin _ => ∃ place, letter.sender = some place ∧ origins[place]? = some origin

/-- The groups in a letter, if a given provider sent it. -/
def groupsFrom? (place : Nat) (letter : Letter) : Option (List TargetGroup) :=
  match letter.update with
  | .reconfigured _ _ => none
  | .reported _ groups => if letter.sender = some place then some groups else none

theorem IsSigned.append (signed : letter.IsSigned origins) (newer : List Origin) :
    letter.IsSigned (origins ++ newer) := by
  unfold IsSigned at signed ⊢
  split
  · trivial
  · rename_i origin groups reported
    rw [reported] at signed
    obtain ⟨place, sender, found⟩ := signed
    have inside := (List.getElem?_eq_some_iff.mp found).1
    exact ⟨place, sender, (List.getElem?_append_left inside).trans found⟩

/-- As origins are distinct, a letter bears an origin exactly if the provider there sent it. -/
theorem IsSigned.groupsOf?_eq {place : Nat} {origin : Origin} (signed : letter.IsSigned origins)
    (distinct : origins.Nodup) (present : origins[place]? = some origin) :
    letter.update.groupsOf? origin = letter.groupsFrom? place := by
  obtain ⟨sender, update⟩ := letter
  cases update with
  | reconfigured generation jobs => rfl
  | reported source groups =>
      obtain ⟨own, rfl, found⟩ := signed
      have inside := (List.getElem?_eq_some_iff.mp found).1
      simp only [Update.groupsOf?, groupsFrom?, Option.some.injEq]
      refine if_congr ⟨?_, ?_⟩ rfl rfl
      · rintro rfl
        exact (List.getElem?_inj inside distinct).mp (found.trans present.symm)
      · rintro rfl
        exact Option.some.inj (found.symm.trans present)

end Letter

/-- What a provider itself sent last. -/
def lastFrom (letters : List Letter) (place : Nat) : Option (List TargetGroup) :=
  (letters.filterMap (Letter.groupsFrom? place)).getLast?

theorem latestReport_eq_lastFrom {letters : List Letter} {origins : List Origin} {place : Nat}
    {origin : Origin} (signed : ∀ letter ∈ letters, letter.IsSigned origins)
    (distinct : origins.Nodup) (present : origins[place]? = some origin) :
    latestReport (letters.map Letter.update) origin = lastFrom letters place := by
  rw [latestReport, lastFrom, List.filterMap_map]
  exact congrArg List.getLast? (List.filterMap_congr fun letter member =>
    (signed letter member).groupsOf?_eq distinct present)

theorem Hub.posts_signed {hub : Hub} {event : HubEvent} {letter : Letter}
    (member : letter ∈ hub.posts event) : letter.IsSigned hub.origins := by
  obtain ⟨update, queued, rfl⟩ := List.mem_map.mp member
  have sender {place : Nat} {task : ProviderTask} (present : hub.providers[place]? = some task)
      (groups : List TargetGroup) :
      Letter.IsSigned hub.origins ⟨some place, .reported task.origin groups⟩ :=
    ⟨place, rfl, by simp [origins, present]⟩
  cases event with
  | apply configs =>
      rw [mem_sent queued]
      trivial
  | report place groups =>
      simp only [queues] at queued
      split at queued
      · rename_i task present
        rw [mem_sent queued]
        exact sender present groups
      · simp at queued
  | provider place =>
      obtain ⟨task, groups, present, _, _, rfl⟩ := Supplied.mem_queues_provider queued
      exact sender present groups
  | _ => simp [queues] at queued

namespace Feed

theorem letters_append (factory : Factory) (feed : Feed) (events more : List HubEvent) :
    feed.letters factory (events ++ more) = feed.letters factory events ++
      (events.foldl (perform factory) feed).letters factory more := by
  induction events generalizing feed with
  | nil => rfl
  | cons event rest ih =>
      rw [List.cons_append, letters, ih, letters, List.append_assoc, List.foldl_cons]

theorem letters_concat (factory : Factory) (events : List HubEvent) (event : HubEvent) :
    new.letters factory (events ++ [event]) =
      new.letters factory events ++ (run factory events).hub.posts event := by
  rw [letters_append, letters, letters, List.append_nil]
  rfl

/-- The letters of a run hold what was queued in it. -/
theorem letters_updates (factory : Factory) (events : List HubEvent) :
    (new.letters factory events).map Letter.update = (run factory events).queued := by
  induction events using List.reverseRecOn with
  | nil => rfl
  | append_singleton events event ih =>
      rw [letters_concat, List.map_append, ih, run_append]
      simp [Hub.posts, perform, Function.comp_def]

/-- Whoever sends groups in a run does so under the origin that it was started with. -/
theorem letters_signed (factory : Factory) (events : List HubEvent) :
    ∀ letter ∈ new.letters factory events, letter.IsSigned (run factory events).hub.origins := by
  induction events using List.reverseRecOn with
  | nil => simp [letters]
  | append_singleton events event ih =>
      intro letter member
      rw [letters_concat, List.mem_append] at member
      rw [run_origins_concat]
      obtain earlier | last := member
      · exact (ih letter earlier).append _
      · exact (Hub.posts_signed last).append _

end Feed

/-- The providers of a job in a generation, with their places. -/
def sendersOf (origins : List Origin) (generation : Nat) (job : String) : List (Origin × Nat) :=
  origins.zipIdx.filter (fun sender => sender.1.generation = generation ∧ sender.1.job = job)

section SendersOf

variable {origins : List Origin} {generation : Nat}

theorem mem_sendersOf_iff {sender : Origin × Nat} :
    sender ∈ sendersOf origins generation job ↔ origins[sender.2]? = some sender.1 ∧
      sender.1.generation = generation ∧ sender.1.job = job := by
  simp [sendersOf, List.mem_filter, List.mem_zipIdx_iff_getElem?]

theorem sendersOf_names_nodup (distinct : origins.Nodup) :
    ((sendersOf origins generation job).map (fun sender => sender.1.provider)).Nodup := by
  have apart : (origins.zipIdx.map Prod.fst).Nodup := by
    rw [List.zipIdx_map_fst]
    exact distinct
  refine List.pairwise_map.mpr (((List.pairwise_map.mp apart).filter _).imp_of_mem ?_)
  rintro ⟨⟨_, _, name⟩, place⟩ ⟨⟨_, _, name'⟩, place'⟩ listed listed' different same
  obtain ⟨_, rfl, rfl⟩ := mem_sendersOf_iff.mp listed
  obtain ⟨_, rfl, rfl⟩ := mem_sendersOf_iff.mp listed'
  exact different (congrArg (Origin.mk _ _) same)

end SendersOf

namespace Merge

/-- What is held under the name of a provider. -/
def report? (merge : Merge) (job provider : String) : Option (List TargetGroup) :=
  (merge.reports.get? job).bind (fun providers => providers.get? provider)

/-- A merge keeps what was taken in of each provider of its generation apart from all others. -/
structure KeepsApart (merge : Merge) (origins : List Origin) (letters : List Letter) : Prop where
  /-- It holds under the name of a provider what this provider sent last. -/
  own : ∀ place origin, origins[place]? = some origin → origin.generation = merge.generation →
    merge.report? origin.job origin.provider = lastFrom letters place
  /-- It holds nothing that is not of one provider. -/
  sole : ∀ job provider groups, merge.report? job provider = some groups →
    ∃! place : Nat, origins[place]? = some (Origin.mk merge.generation job provider)
  /-- So the groups of a job are those of all its providers. -/
  complete : ∀ job groups, merge.sets.get? job = some groups →
    groups.Perm ((sendersOf origins merge.generation job).flatMap
      (fun sender => (lastFrom letters sender.2).getD []))

variable {merge : Merge} {updates : List Update} {origins : List Origin} {letters : List Letter}

/-- Nothing was ever reported for a job that the merge does not know. -/
theorem Reflects.latestReport_of_unknown (reflects : merge.Reflects updates)
    (orderly : Orderly updates) {origin : Origin} (current : origin.generation = merge.generation)
    (unknown : merge.reports.get? origin.job = none) : latestReport updates origin = none := by
  cases latest : latestReport updates origin with
  | none => rfl
  | some groups =>
      obtain ⟨names, opened, listed⟩ := orderly.known (mem_of_latestReport latest)
      obtain ⟨⟨number, jobs⟩, last⟩ := Option.ne_none_iff_exists'.mp (latestOpening_isSome opened)
      obtain rfl := reflects.jobs_unique orderly (current ▸ opened) last
      have known := (reflects.jobs number names last origin.job).mpr listed
      rw [unknown] at known
      cases known

theorem Reflects.report?_eq (reflects : merge.Reflects updates) (orderly : Orderly updates)
    (origin : Origin) (current : origin.generation = merge.generation) :
    merge.report? origin.job origin.provider = latestReport updates origin := by
  rw [report?]
  cases held : merge.reports.get? origin.job with
  | none => exact (reflects.latestReport_of_unknown orderly current held).symm
  | some providers =>
      cases last : latestOpening updates with
      | none =>
          rw [reflects.unopened last] at held
          cases held
      | some opening =>
          obtain ⟨number, jobs⟩ := opening
          have same := reflects.generation number jobs last
          rw [Option.bind_some, reflects.reports number jobs last origin.job providers held,
            ← same, ← current]

section Kept

variable (reflects : merge.Reflects (letters.map Letter.update))
  (orderly : Orderly (letters.map Letter.update))
  (signed : ∀ letter ∈ letters, letter.IsSigned origins)

include reflects orderly signed

theorem Reflects.report?_eq_lastFrom (distinct : origins.Nodup) {place : Nat} {origin : Origin}
    (present : origins[place]? = some origin) (current : origin.generation = merge.generation) :
    merge.report? origin.job origin.provider = lastFrom letters place := by
  rw [reflects.report?_eq orderly origin current, latestReport_eq_lastFrom signed distinct present]

/-- What is held was sent by some provider of the generation. -/
theorem Reflects.exists_sender {provider : String} {groups : List TargetGroup}
    (held : merge.report? job provider = some groups) :
    ∃ place : Nat, origins[place]? = some (Origin.mk merge.generation job provider) := by
  have latest := (reflects.report?_eq orderly ⟨merge.generation, job, provider⟩ rfl).symm.trans held
  obtain ⟨letter, member, same⟩ := List.mem_map.mp (mem_of_latestReport latest)
  have bears := signed letter member
  rw [Letter.IsSigned, same] at bears
  obtain ⟨place, _, found⟩ := bears
  exact ⟨place, found⟩

theorem Reflects.groups_perm (distinct : origins.Nodup) {groups : List TargetGroup}
    (shown : merge.sets.get? job = some groups) :
    groups.Perm ((sendersOf origins merge.generation job).flatMap
      (fun sender => (lastFrom letters sender.2).getD [])) := by
  rw [sets, SortedMap.get?_map, Option.map_eq_some_iff] at shown
  obtain ⟨providers, held, rfl⟩ := shown
  have entry (provider : String) : merge.report? job provider = providers.get? provider := by
    rw [report?, held, Option.bind_some]
  have covered : ∀ name ∈ providers.keys, name ∈
      (sendersOf origins merge.generation job).map (fun sender => sender.1.provider) := by
    intro name member
    obtain ⟨groups, reported⟩ := Option.isSome_iff_exists.mp (SortedMap.mem_keys_iff.mp member)
    obtain ⟨place, found⟩ := reflects.exists_sender orderly signed ((entry name).trans reported)
    exact List.mem_map.mpr ⟨(_, place), mem_sendersOf_iff.mpr ⟨found, rfl, rfl⟩, rfl⟩
  refine (SortedMap.flatten_values_perm (sendersOf_names_nodup distinct) covered).trans ?_
  rw [List.flatMap_map]
  refine .of_eq (List.flatMap_congr fun sender listed => ?_)
  obtain ⟨found, current, rfl⟩ := mem_sendersOf_iff.mp listed
  rw [← entry, reflects.report?_eq_lastFrom orderly signed distinct found current]

theorem Reflects.keepsApart (distinct : origins.Nodup) : merge.KeepsApart origins letters where
  own _ _ present current := reflects.report?_eq_lastFrom orderly signed distinct present current
  sole job provider groups held := by
    obtain ⟨place, found⟩ := reflects.exists_sender orderly signed held
    refine ⟨place, found, fun other found' => ?_⟩
    have inside := (List.getElem?_eq_some_iff.mp found').1
    exact (List.getElem?_inj inside distinct).mp (found'.trans found.symm)
  complete _ _ shown := reflects.groups_perm orderly signed distinct shown

end Kept

end Merge

theorem Feed.run_keepsApart (apart : factory.NamesApart) (events : List HubEvent)
    (once : ∀ event ∈ events, event.NamesJobsOnce) {merge : Merge}
    (active : (run factory events).hub.merging = .active merge) :
    merge.KeepsApart (run factory events).hub.origins
      ((new.letters factory events).take (run factory events).taken) := by
  have sound := run_sound factory events
  have orderly := sound.orderly_consumed
  have reflects := Merge.replay_reflects orderly
  have consumed : (run factory events).consumed =
      ((new.letters factory events).take (run factory events).taken).map Letter.update := by
    rw [List.map_take, letters_updates, Feed.consumed]
  rw [← sound.merged merge active, consumed] at reflects
  rw [consumed] at orderly
  exact reflects.keepsApart orderly
    (fun letter member => letters_signed factory events letter (List.mem_of_mem_take member))
    (run_origins_nodup apart events once)

/-- Whatever the kinds of its providers are, a job that can be built has one provider for its static
targets, if it has any, and one for each that is configured, in order, and their names are pairwise
distinct. So, in every run of a hub, no two providers that are ever started have the same origin,
and as long as merging goes on, the merge holds of each provider of its generation what this
provider sent last of what was taken in. Nothing of it gives way to what another one sends, and it
is all on the board. -/
theorem providers_never_clash (registry : Registry) :
    (∀ job discovery built, registry.build job discovery = .ok built →
      (built.map Prod.fst).Nodup ∧
      (staticName ∈ built.map Prod.fst ↔ discovery.staticTargets ≠ []) ∧
      ∃ configured, List.Forall₂ (registry.Configures job) discovery.providers.zipIdx configured ∧
        built = (if discovery.staticTargets = [] then []
          else [(staticName, .fixed (staticGroups 0 discovery.staticTargets))]) ++ configured) ∧
    ∀ events : List HubEvent, (∀ event ∈ events, event.NamesJobsOnce) →
      let feed := Feed.run registry.build events
      let letters := Feed.new.letters registry.build events
      letters.map Letter.update = feed.queued ∧ feed.hub.origins.Nodup ∧
      ∀ merge, feed.hub.merging = .active merge →
        merge.KeepsApart feed.hub.origins (letters.take feed.taken) ∧
        feed.hub.board.value = merge.sets := by
  have apart : Factory.NamesApart registry.build :=
    fun _ _ _ ok => Registry.build_names_nodup ok
  refine ⟨fun job discovery built ok => ?_, fun events once => ?_⟩
  · obtain ⟨configured, made, split⟩ := Registry.build_eq_ok_iff.mp ok
    rw [buildStatic_eq] at split
    exact ⟨Registry.build_names_nodup ok, Registry.static_mem_names_iff ok, configured, made, split⟩
  · intro feed letters
    have sound : feed.Sound := Feed.run_sound registry.build events
    refine ⟨Feed.letters_updates registry.build events, Feed.run_origins_nodup apart events once,
      fun merge active => ⟨Feed.run_keepsApart apart events once active, ?_⟩⟩
    rw [sound.shown, sound.merged merge active]

/-- Builders for any kind. A provider reports a group that is called after its kind. -/
def Registry.answering : Registry := fun _ =>
  some (fun _ provider => .ok (.fixed [⟨provider.kind, [], .empty⟩]))

/-- A static address, and providers whose kinds look like names. -/
def slashedDiscovery : Config.Discovery :=
  ⟨[⟨["a:1"], .empty⟩], [⟨"static", .empty⟩, ⟨"dns/2", .empty⟩, ⟨"dns", .empty⟩]⟩

/-- The provider of kind `dns` at place 2 is called like the kind of the one before it, and what it
reports is kept apart from what that one does. -/
theorem providers_never_clash_dns :
    let registry := Registry.answering
    let events : List HubEvent := [.enter, .apply [("web", slashedDiscovery)], .provider 2,
      .provider 3, .report 2 [⟨"later", [], .empty⟩], .merge false, .merge false, .merge false,
      .merge false]
    let feed := Feed.run registry.build events
    let taken := (Feed.new.letters registry.build events).take feed.taken
    (∀ event ∈ events, event.NamesJobsOnce) ∧
    (∃ built, registry.build "web" slashedDiscovery = .ok built ∧
      built.map Prod.fst = ["static", "static/0", "dns/2/1", "dns/2"] ∧
      (built.map Prod.fst).Nodup) ∧
    ∃ merge, feed.hub.merging = .active merge ∧ merge.generation = 1 ∧
      feed.hub.origins[3]? = some ⟨1, "web", "dns/2"⟩ ∧
      merge.report? "web" "dns/2" = lastFrom taken 3 ∧
      lastFrom taken 3 = some [⟨"dns", [], .empty⟩] := by
  intro registry events feed taken
  have once : ∀ event ∈ events, event.NamesJobsOnce := by
    simp [events, HubEvent.NamesJobsOnce]
  obtain ⟨merge, active, current⟩ :
      ∃ merge, feed.hub.merging = .active merge ∧ merge.generation = 1 := ⟨_, rfl, rfl⟩
  have started : feed.hub.origins[3]? = some ⟨1, "web", "dns/2"⟩ := by decide +kernel
  obtain ⟨names, runs⟩ := providers_never_clash registry
  obtain ⟨_, _, kept⟩ := runs events once
  refine ⟨once, ⟨_, rfl, by decide +kernel, (names "web" slashedDiscovery _ rfl).1⟩, merge, active,
    current, started, ?_, by decide +kernel⟩
  exact (kept merge active).1.own 3 _ started current.symm

end ScrapeRelay.Discovery
