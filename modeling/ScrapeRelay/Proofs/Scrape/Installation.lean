import ScrapeRelay.Proofs.Scrape.Alignment

/-!
# Installing job definitions

A configuration is installed as a whole or not at all. If all its jobs are sound and no name repeats
then every job has its definition under its name, and discovery has settings under the same names.
Otherwise the supervisor stays as it is, and the first job that is at fault is named
(`installs_sound_jobs`).
-/

namespace ScrapeRelay.Scrape.Supervisor

variable {π : Type} {supervisor : Supervisor π} {config : Config.Scrape} {failure : Failure}

theorem install_of_valid (valid : config.validate = .ok ()) (supervisor : Supervisor π) :
    supervisor.install config = ({ supervisor with
      edition := supervisor.edition + 1
      installed := definitions (supervisor.edition + 1) config
      hasNewDefinitions := true }, .ok ()) := by
  rw [install, valid]

theorem install_of_invalid (refused : config.validate = .error failure)
    (supervisor : Supervisor π) : supervisor.install config = (supervisor, .error failure) := by
  rw [install, refused]

theorem install_result (supervisor : Supervisor π) (config : Config.Scrape) :
    (supervisor.install config).2 = config.validate := by
  cases checked : config.validate with
  | ok _ => rw [install_of_valid checked]
  | error failure => rw [install_of_invalid checked]

/-- There is one definition for each job. -/
theorem keys_definitions_perm (valid : config.validate = .ok ()) (edition : Nat) :
    (definitions edition config).keys.Perm (config.jobs.map Config.Job.name) := by
  have names : (config.jobs.map (fun job =>
      (job.name, Installed.ofJob edition config.global job))).map Prod.fst =
        config.jobs.map Config.Job.name := by
    simp [List.map_map, Function.comp_def]
  rw [← names]
  exact SortedMap.keys_ofList_perm (names ▸ config.validate_names valid)

/-- Scraping and discovery know the same jobs. -/
theorem keys_definitions (valid : config.validate = .ok ()) (edition : Nat) :
    (definitions edition config).keys = config.discoveries.keys := by
  apply SortedMap.keys_congr
  intro name
  rw [Bool.eq_iff_iff, Option.isSome_iff_exists, Option.isSome_iff_exists]
  simp only [get?_definitions_iff valid, Config.Scrape.get?_discoveries_iff valid]
  grind

/-- A definition that is installed for a job, and the settings that discovery has for it. -/
structure Holds (supervisor : Supervisor π) (config : Config.Scrape) (job : Config.Job) : Prop where
  definition : supervisor.installed.get? job.name =
    some ⟨supervisor.edition, job, job.interval config.global, job.timeout config.global⟩
  positive : 0 < (job.timeout config.global).nanos
  ordered : (job.timeout config.global).nanos ≤ (job.interval config.global).nanos
  discovery : config.discoveries.get? job.name = some job.discovery

theorem install_holds (valid : config.validate = .ok ()) (supervisor : Supervisor π)
    {job : Config.Job} (member : job ∈ config.jobs) :
    (supervisor.install config).1.Holds config job := by
  obtain ⟨_, positive, ordered⟩ := config.validate_timing valid job member
  refine ⟨?_, positive, ordered, ?_⟩
  · rw [install_of_valid valid]
    exact (get?_definitions_iff valid).mpr ⟨job, member, rfl, rfl⟩
  · exact (Config.Scrape.get?_discoveries_iff valid).mpr ⟨job, member, rfl, rfl⟩

/-- Whatever the supervisor is doing, a configuration is accepted exactly if each of its jobs is
sound and no name repeats. Then there is one definition for each job, with its effective interval
and timeout, and discovery has the job's own settings under the same name and no others; the loops
are left for the next reaction, which is asked for. If the configuration is refused then the
supervisor stays as it is, and the failure names the first job that breaks a rule: the first rule
that it breaks on its own, or else the one that names do not repeat. Only a timeout that is set can
be too long. -/
theorem installs_sound_jobs (supervisor : Supervisor π) (config : Config.Scrape) :
    let after := (supervisor.install config).1
    let result := (supervisor.install config).2
    (result = .ok () ↔ (∀ job ∈ config.jobs, job.IsSound config.global) ∧
      (config.jobs.map Config.Job.name).Nodup) ∧
    (result = .ok () → (∀ job ∈ config.jobs, after.Holds config job) ∧
      after.installed.keys.Perm (config.jobs.map Config.Job.name) ∧
      after.installed.keys = config.discoveries.keys ∧ after.hasNewDefinitions = true ∧
      after.slots = supervisor.slots ∧ after.loops = supervisor.loops ∧
      after.managing = supervisor.managing) ∧
    (∀ failure, result = .error failure → after = supervisor ∧
      ∃ before job rest fault, config.jobs = before ++ job :: rest ∧
        failure = .badJob job.name fault ∧
        (∀ earlier ∈ before, earlier.IsSound config.global) ∧
        (before.map Config.Job.name).Nodup ∧
        (job.HasFirst config.global fault ∨ job.IsSound config.global ∧
          job.name ∈ before.map Config.Job.name ∧ fault = .duplicateName) ∧
        ∀ timeout interval, fault = .timeoutExceeds timeout interval →
          job.scrapeTimeout = some timeout) := by
  intro after result
  have checked : result = config.validate := install_result supervisor config
  refine ⟨?_, ?_, ?_⟩
  · rw [checked]
    exact Config.Scrape.validate_eq_ok_iff
  · intro accepted
    have valid : config.validate = .ok () := checked.symm.trans accepted
    have installed : after.installed = definitions (supervisor.edition + 1) config := by
      simp only [after, install_of_valid valid]
    have renewed : after.hasNewDefinitions = true := by
      simp only [after, install_of_valid valid]
    obtain ⟨slots, loops, managing⟩ : after.slots = supervisor.slots ∧
        after.loops = supervisor.loops ∧ after.managing = supervisor.managing := by
      simp only [after, install_of_valid valid, and_self]
    refine ⟨fun job member => install_holds valid supervisor member, ?_, ?_, renewed, slots, loops,
      managing⟩
    · rw [installed]
      exact keys_definitions_perm valid _
    · rw [installed]
      exact keys_definitions valid _
  · intro failure refused
    have invalid : config.validate = .error failure := checked.symm.trans refused
    obtain ⟨before, job, rest, fault, split, named, sound, distinct, fails⟩ :=
      Config.Scrape.validate_error invalid
    refine ⟨?_, before, job, rest, fault, split, named, sound, distinct, fails, ?_⟩
    · simp only [after, install_of_invalid invalid]
    · rintro timeout interval rfl
      obtain own | ⟨_, _, other⟩ := fails
      · exact Config.Job.timeout_set_of_exceeds own.broken
      · cases other

end ScrapeRelay.Scrape.Supervisor
