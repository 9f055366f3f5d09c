import Mathlib.Data.List.Induction
import ScrapeRelay.Discovery.Merge
import ScrapeRelay.Proofs.SortedMap

/-!
# What a merge makes of its updates

A merge holds the latest reports of one generation. They can be read off the list of all
updates that were taken in (`replay_reflects`), provided that each generation is opened
before anything is reported in it (`Orderly`).
-/

namespace ScrapeRelay.Discovery

variable {updates : List Update} {generation : Nat} {jobs : List String} {origin : Origin}
  {groups : List TargetGroup}

namespace Update

def opening? : Update → Option (Nat × List String)
  | .reconfigured generation jobs => some (generation, jobs)
  | .reported _ _ => none

def groupsOf? (origin : Origin) : Update → Option (List TargetGroup)
  | .reported source groups => if source = origin then some groups else none
  | .reconfigured _ _ => none

end Update

/-- The generation that was opened last, with its jobs. -/
def latestOpening (updates : List Update) : Option (Nat × List String) :=
  (updates.filterMap Update.opening?).getLast?

/-- What a provider reported last. -/
def latestReport (updates : List Update) (origin : Origin) : Option (List TargetGroup) :=
  (updates.filterMap (Update.groupsOf? origin)).getLast?

theorem latestOpening_append (earlier later : List Update) :
    latestOpening (earlier ++ later) = (latestOpening later).or (latestOpening earlier) := by
  simp [latestOpening, List.filterMap_append, List.getLast?_append]

theorem latestReport_append (earlier later : List Update) (origin : Origin) :
    latestReport (earlier ++ later) origin =
      (latestReport later origin).or (latestReport earlier origin) := by
  simp [latestReport, List.filterMap_append, List.getLast?_append]

theorem latestOpening_concat (updates : List Update) (update : Update) :
    latestOpening (updates ++ [update]) = update.opening?.or (latestOpening updates) := by
  rw [latestOpening_append]
  cases opened : update.opening? <;> simp [latestOpening, opened]

theorem latestReport_concat (updates : List Update) (update : Update) (origin : Origin) :
    latestReport (updates ++ [update]) origin =
      (update.groupsOf? origin).or (latestReport updates origin) := by
  rw [latestReport_append]
  cases reported : update.groupsOf? origin <;> simp [latestReport, reported]

theorem latestOpening_reported (updates : List Update) (origin : Origin)
    (groups : List TargetGroup) :
    latestOpening (updates ++ [.reported origin groups]) = latestOpening updates := by
  rw [latestOpening_concat, Update.opening?, Option.none_or]

theorem mem_of_latestOpening (latest : latestOpening updates = some (generation, jobs)) :
    .reconfigured generation jobs ∈ updates := by
  obtain ⟨update, member, opened⟩ := List.mem_filterMap.mp (List.mem_of_getLast? latest)
  cases update with
  | reconfigured number names =>
      obtain ⟨rfl, rfl⟩ := Prod.mk.inj (Option.some.inj opened)
      exact member
  | reported source groups => cases opened

theorem latestOpening_isSome (member : .reconfigured generation jobs ∈ updates) :
    latestOpening updates ≠ none := by
  have listed : (generation, jobs) ∈ updates.filterMap Update.opening? :=
    List.mem_filterMap.mpr ⟨_, member, rfl⟩
  intro unopened
  rw [latestOpening, List.getLast?_eq_none_iff] at unopened
  rw [unopened] at listed
  simp at listed

theorem mem_of_latestReport (latest : latestReport updates origin = some groups) :
    .reported origin groups ∈ updates := by
  obtain ⟨update, member, reported⟩ := List.mem_filterMap.mp (List.mem_of_getLast? latest)
  cases update with
  | reconfigured number names => cases reported
  | reported source shown =>
      by_cases same : source = origin
      · subst same
        simp only [Update.groupsOf?, if_true, Option.some.injEq] at reported
        subst reported
        exact member
      · simp [Update.groupsOf?, same] at reported

/-- Generations are opened in ascending order, and a provider reports for a job of its
generation after that was opened. -/
inductive Orderly : List Update → Prop
  | nil : Orderly []
  | reconfigured {updates : List Update} {generation : Nat} {jobs : List String}
      (orderly : Orderly updates)
      (newer : ∀ older names, .reconfigured older names ∈ updates → older < generation) :
      Orderly (updates ++ [.reconfigured generation jobs])
  | reported {updates : List Update} {origin : Origin} {groups : List TargetGroup}
      (orderly : Orderly updates)
      (known : ∃ names, .reconfigured origin.generation names ∈ updates ∧ origin.job ∈ names) :
      Orderly (updates ++ [.reported origin groups])

namespace Orderly

/-- The updates up to any point are in order, too. -/
theorem before {earlier later : List Update} (orderly : Orderly (earlier ++ later)) :
    Orderly earlier := by
  induction later using List.reverseRecOn with
  | nil => simpa using orderly
  | append_singleton later update ih =>
      apply ih
      rw [← List.append_assoc] at orderly
      generalize whole : earlier ++ later ++ [update] = updates at orderly
      cases orderly with
      | nil => simp at whole
      | reconfigured orderly newer => exact (List.append_inj' whole rfl).1 ▸ orderly
      | reported orderly known => exact (List.append_inj' whole rfl).1 ▸ orderly

theorem known (orderly : Orderly updates) (member : .reported origin groups ∈ updates) :
    ∃ names, .reconfigured origin.generation names ∈ updates ∧ origin.job ∈ names := by
  induction orderly with
  | nil => simp at member
  | reconfigured orderly newer ih =>
      obtain ⟨names, opened, listed⟩ := ih (by simpa using member)
      exact ⟨names, List.mem_append_left _ opened, listed⟩
  | @reported updates latest shown orderly known ih =>
      rcases List.mem_append.mp member with earlier | last
      · obtain ⟨names, opened, listed⟩ := ih earlier
        exact ⟨names, List.mem_append_left _ opened, listed⟩
      · obtain ⟨rfl, _⟩ := Update.reported.inj (List.mem_singleton.mp last)
        obtain ⟨names, opened, listed⟩ := known
        exact ⟨names, List.mem_append_left _ opened, listed⟩

/-- A generation is opened once. -/
theorem unique {names : List String} (orderly : Orderly updates)
    (first : .reconfigured generation jobs ∈ updates)
    (second : .reconfigured generation names ∈ updates) : jobs = names := by
  induction orderly with
  | nil => simp at first
  | @reconfigured updates number listed orderly newer ih =>
      simp only [List.mem_append, List.mem_singleton, Update.reconfigured.injEq] at first second
      rcases first with first | ⟨rfl, rfl⟩ <;> rcases second with second | ⟨same, rfl⟩
      · exact ih first second
      · exact absurd (newer generation jobs first) (by omega)
      · exact absurd (newer generation names second) (by omega)
      · rfl
  | reported orderly known ih => exact ih (by simpa using first) (by simpa using second)

/-- Nothing is reported in a generation that is still to be opened. -/
theorem latestReport_of_newer (orderly : Orderly updates)
    (newer : ∀ older names, .reconfigured older names ∈ updates → older < generation)
    (same : origin.generation = generation) : latestReport updates origin = none := by
  cases latest : latestReport updates origin with
  | none => rfl
  | some groups =>
      obtain ⟨names, opened, _⟩ := orderly.known (mem_of_latestReport latest)
      exact absurd (newer origin.generation names opened) (by omega)

end Orderly

namespace Merge

/-- Take an update in, or leave it out if it is of another generation. -/
def take (merge : Merge) (update : Update) : Merge := (merge.accept? update).getD merge

def replay (updates : List Update) : Merge := updates.foldl take .new

theorem replay_concat (updates : List Update) (update : Update) :
    replay (updates ++ [update]) = (replay updates).take update := by
  simp [replay]

/-- The merge holds, for each job of the latest generation, what its providers reported
last. -/
structure Reflects (merge : Merge) (updates : List Update) : Prop where
  unopened : latestOpening updates = none → merge = .new
  generation : ∀ generation jobs, latestOpening updates = some (generation, jobs) →
    merge.generation = generation
  jobs : ∀ generation jobs, latestOpening updates = some (generation, jobs) →
    ∀ job, (merge.reports.get? job).isSome = true ↔ job ∈ jobs
  reports : ∀ generation jobs, latestOpening updates = some (generation, jobs) →
    ∀ job providers, merge.reports.get? job = some providers →
      ∀ provider, providers.get? provider = latestReport updates ⟨generation, job, provider⟩

namespace Reflects

variable {merge : Merge}

theorem reconfigured (orderly : Orderly updates)
    (newer : ∀ older names, .reconfigured older names ∈ updates → older < generation)
    (jobs : List String) :
    (merge.take (.reconfigured generation jobs)).Reflects
      (updates ++ [.reconfigured generation jobs]) := by
  have latest : latestOpening (updates ++ [.reconfigured generation jobs]) =
      some (generation, jobs) := by
    simp [latestOpening_concat, Update.opening?]
  refine ⟨?_, ?_, ?_, ?_⟩
  · intro unopened
    rw [latest] at unopened
    cases unopened
  · intro number names opened
    rw [latest] at opened
    exact (Prod.mk.inj (Option.some.inj opened)).1
  · intro number names opened job
    rw [latest] at opened
    obtain ⟨_, rfl⟩ := Prod.mk.inj (Option.some.inj opened)
    by_cases listed : job ∈ jobs <;>
      simp [take, accept?, SortedMap.get?_ofList_map, listed]
  · intro number names opened job providers held provider
    rw [latest] at opened
    obtain ⟨rfl, _⟩ := Prod.mk.inj (Option.some.inj opened)
    rw [latestReport_concat, orderly.latestReport_of_newer newer rfl]
    simp only [take, accept?, Option.getD_some, SortedMap.get?_ofList_map] at held
    split at held
    · obtain rfl := Option.some.inj held
      rfl
    · cases held

theorem jobs_unique {names : List String} (reflects : merge.Reflects updates)
    (orderly : Orderly updates) (opened : .reconfigured merge.generation names ∈ updates)
    (latest : latestOpening updates = some (generation, jobs)) : names = jobs := by
  rw [reflects.generation generation jobs latest] at opened
  exact orderly.unique opened (mem_of_latestOpening latest)

/-- A report of the latest generation takes the place of the provider's last one. -/
theorem reported (reflects : merge.Reflects updates) (orderly : Orderly updates)
    (known : ∃ names, .reconfigured origin.generation names ∈ updates ∧ origin.job ∈ names)
    (current : origin.generation = merge.generation) (groups : List TargetGroup) :
    (merge.take (.reported origin groups)).Reflects (updates ++ [.reported origin groups]) := by
  have taken : merge.take (.reported origin groups) = { merge with
      reports := merge.reports.update origin.job
        (fun held => (held.getD .empty).insert origin.provider groups) } := by
    simp [take, accept?, current]
  obtain ⟨names, opened, listed⟩ := known
  rw [taken]
  refine ⟨?_, ?_, ?_, ?_⟩ <;> rw [latestOpening_reported]
  · intro unopened
    exact absurd unopened (latestOpening_isSome opened)
  · exact reflects.generation
  · intro generation jobs last job
    by_cases own : job = origin.job
    · subst own
      obtain rfl := reflects.jobs_unique orderly (current ▸ opened) last
      simp [SortedMap.update, listed]
    · simpa [SortedMap.update, SortedMap.get?_insert_of_ne own]
        using reflects.jobs generation jobs last job
  · intro generation jobs last job providers held provider
    have same := reflects.generation generation jobs last
    rw [latestReport_concat]
    by_cases own : job = origin.job
    · subst own
      simp only [SortedMap.update, SortedMap.get?_insert_self, Option.some.injEq] at held
      subst held
      by_cases self : provider = origin.provider
      · subst self
        simp [Update.groupsOf?, ← same, ← current]
      · have apart : origin ≠ ⟨generation, origin.job, provider⟩ := by
          intro equal
          exact self (congrArg Origin.provider equal).symm
        rw [SortedMap.get?_insert_of_ne self, Update.groupsOf?, if_neg apart, Option.none_or]
        obtain rfl := reflects.jobs_unique orderly (current ▸ opened) last
        obtain ⟨earlier, before⟩ := Option.isSome_iff_exists.mp
          ((reflects.jobs generation names last origin.job).mpr listed)
        rw [before, Option.getD_some]
        exact reflects.reports generation names last origin.job earlier before provider
    · have apart : origin ≠ ⟨generation, job, provider⟩ := by
        intro equal
        exact own (congrArg Origin.job equal).symm
      rw [Update.groupsOf?, if_neg apart, Option.none_or]
      simp only [SortedMap.update, SortedMap.get?_insert_of_ne own] at held
      exact reflects.reports generation jobs last job providers held provider

/-- A report of an earlier generation counts for nothing. -/
theorem outdated (reflects : merge.Reflects updates)
    (known : ∃ names, .reconfigured origin.generation names ∈ updates ∧ origin.job ∈ names)
    (other : origin.generation ≠ merge.generation) (groups : List TargetGroup) :
    (merge.take (.reported origin groups)).Reflects (updates ++ [.reported origin groups]) := by
  have taken : merge.take (.reported origin groups) = merge := by
    simp [take, accept?, other]
  obtain ⟨names, opened, _⟩ := known
  rw [taken]
  refine ⟨?_, ?_, ?_, ?_⟩ <;> rw [latestOpening_reported]
  · intro unopened
    exact absurd unopened (latestOpening_isSome opened)
  · exact reflects.generation
  · exact reflects.jobs
  · intro generation jobs last job providers held provider
    have apart : origin ≠ ⟨generation, job, provider⟩ := by
      intro equal
      rw [reflects.generation generation jobs last] at other
      exact other (congrArg Origin.generation equal)
    rw [latestReport_concat, Update.groupsOf?, if_neg apart, Option.none_or]
    exact reflects.reports generation jobs last job providers held provider

end Reflects

theorem replay_reflects (orderly : Orderly updates) : (replay updates).Reflects updates := by
  induction orderly with
  | nil => refine ⟨fun _ => rfl, ?_, ?_, ?_⟩ <;> simp [latestOpening]
  | reconfigured orderly newer ih =>
      rw [replay_concat]
      exact .reconfigured orderly newer _
  | @reported updates origin groups orderly known ih =>
      rw [replay_concat]
      by_cases current : origin.generation = (replay updates).generation
      · exact ih.reported orderly known current groups
      · exact ih.outdated known current groups

end Merge

/-- The target sets of a generation with the given jobs, after some updates. -/
structure ShowsReports (updates : List Update) (generation : Nat) (jobs : List String)
    (sets : TargetSets) : Prop where
  jobs : ∀ job, job ∈ sets.keys ↔ job ∈ jobs
  /-- The groups of a job are what its providers of this generation reported last, in the
  order of their names. -/
  groups : ∀ job shown, sets.get? job = some shown →
    ∃ providers : List String, providers.Pairwise (· < ·) ∧
      (∀ provider, provider ∈ providers ↔
        ∃ groups, .reported ⟨generation, job, provider⟩ groups ∈ updates) ∧
      shown = providers.flatMap (fun provider =>
        (latestReport updates ⟨generation, job, provider⟩).getD [])
  /-- Nothing is shown that was not reported in this generation. -/
  own : ∀ job shown, sets.get? job = some shown → ∀ group ∈ shown,
    ∃ provider groups, .reported ⟨generation, job, provider⟩ groups ∈ updates ∧ group ∈ groups
  /-- What a provider of this generation reported last is shown as it is. -/
  complete : ∀ origin groups, origin.generation = generation →
    latestReport updates origin = some groups →
    ∃ shown, sets.get? origin.job = some shown ∧ groups <:+: shown

theorem latestReport_isSome_iff :
    (latestReport updates origin).isSome = true ↔ ∃ groups, .reported origin groups ∈ updates := by
  constructor
  · intro present
    obtain ⟨groups, latest⟩ := Option.isSome_iff_exists.mp present
    exact ⟨groups, mem_of_latestReport latest⟩
  · rintro ⟨groups, member⟩
    have listed : groups ∈ updates.filterMap (Update.groupsOf? origin) :=
      List.mem_filterMap.mpr ⟨.reported origin groups, member, by simp [Update.groupsOf?]⟩
    rw [latestReport, List.getLast?_isSome]
    exact List.ne_nil_of_mem listed

theorem Merge.Reflects.shows {merge : Merge} (reflects : merge.Reflects updates)
    (orderly : Orderly updates) (latest : latestOpening updates = some (generation, jobs)) :
    ShowsReports updates generation jobs merge.sets := by
  have shown_iff (job : String) (shown : List TargetGroup) :
      merge.sets.get? job = some shown ↔
        ∃ providers, merge.reports.get? job = some providers ∧
          providers.values.flatten = shown := by
    rw [sets, SortedMap.get?_map, Option.map_eq_some_iff]
  have values (job : String) (providers : SortedMap (List TargetGroup))
      (held : merge.reports.get? job = some providers) :
      providers.values.flatten = providers.keys.flatMap (fun provider =>
        (latestReport updates ⟨generation, job, provider⟩).getD []) := by
    rw [providers.values_eq_map_keys [], ← List.flatMap_def]
    simp only [reflects.reports generation jobs latest job providers held]
  have reporters (job : String) (providers : SortedMap (List TargetGroup))
      (held : merge.reports.get? job = some providers) (provider : String) :
      provider ∈ providers.keys ↔
        ∃ groups, .reported ⟨generation, job, provider⟩ groups ∈ updates := by
    rw [SortedMap.mem_keys_iff, reflects.reports generation jobs latest job providers held,
      latestReport_isSome_iff]
  refine ⟨?_, ?_, ?_, ?_⟩
  · intro job
    rw [SortedMap.mem_keys_iff, sets, SortedMap.get?_map, Option.isSome_map]
    exact reflects.jobs generation jobs latest job
  · intro job shown found
    obtain ⟨providers, held, rfl⟩ := (shown_iff job shown).mp found
    exact ⟨providers.keys, providers.keys_ascending, reporters job providers held,
      values job providers held⟩
  · intro job shown found group member
    obtain ⟨providers, held, rfl⟩ := (shown_iff job shown).mp found
    rw [values job providers held] at member
    obtain ⟨provider, _, inside⟩ := List.mem_flatMap.mp member
    cases last : latestReport updates ⟨generation, job, provider⟩ with
    | none => simp [last] at inside
    | some groups =>
        rw [last, Option.getD_some] at inside
        exact ⟨provider, groups, mem_of_latestReport last, inside⟩
  · rintro ⟨number, job, provider⟩ groups rfl last
    obtain ⟨names, opened, listed⟩ := orderly.known (mem_of_latestReport last)
    obtain rfl := orderly.unique opened (mem_of_latestOpening latest)
    obtain ⟨providers, held⟩ := Option.isSome_iff_exists.mp
      ((reflects.jobs _ _ latest job).mpr listed)
    refine ⟨_, (shown_iff job _).mpr ⟨providers, held, rfl⟩, ?_⟩
    have present : groups ∈ providers.values := by
      have found : providers.get? provider = some groups := by
        rw [reflects.reports _ _ latest job providers held, last]
      exact List.mem_map.mpr ⟨(provider, groups), SortedMap.get?_eq_some_iff.mp found, rfl⟩
    exact List.infix_of_mem_flatten present

end ScrapeRelay.Discovery
