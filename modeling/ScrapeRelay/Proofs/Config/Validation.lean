import ScrapeRelay.Proofs.Config.Rules
import ScrapeRelay.Proofs.SortedMap

/-!
# Which job definitions are accepted

Definitions are accepted if each of them is sound and no name repeats. Otherwise the first one that
is at fault is reported, with a fault of its own or else because its name was there before.
-/

namespace ScrapeRelay.Config

variable {global : Global} {seen : List String} {jobs : List Job} {scrape : Scrape}
  {failure : Failure}

/-- How a job is at fault behind others with given names. -/
def Job.FailsAfter (global : Global) (names : List String) (job : Job) (fault : JobFault) : Prop :=
  job.HasFirst global fault ∨
    job.IsSound global ∧ job.name ∈ names ∧ fault = .duplicateName

theorem validateJobs_eq_ok_iff :
    validateJobs global seen jobs = .ok () ↔
      (∀ job ∈ jobs, job.IsSound global) ∧ (jobs.map Job.name).Nodup ∧
        ∀ job ∈ jobs, job.name ∉ seen := by
  induction jobs generalizing seen with
  | nil => simp [validateJobs]
  | cons job rest ih =>
      simp only [validateJobs, List.forall_mem_cons, List.map_cons, List.nodup_cons,
        ← Job.fault?_eq_none_iff]
      cases checked : job.fault? global with
      | some fault => simp
      | none =>
          by_cases repeated : job.name ∈ seen
          · simp [repeated]
          · have apart : (∀ other ∈ rest, other.name ∉ job.name :: seen) ↔
                job.name ∉ rest.map Job.name ∧ ∀ other ∈ rest, other.name ∉ seen := by
              simp only [List.mem_cons, not_or, List.mem_map, not_exists, not_and]
              exact forall₂_and
            simp only [List.contains_iff_mem, repeated, if_false, ih, apart,
              Job.fault?_eq_none_iff]
            simp only [true_and, not_false_eq_true, and_assoc, and_left_comm]

/-- The jobs before the one that is reported would have been accepted. -/
theorem validateJobs_error (refused : validateJobs global seen jobs = .error failure) :
    ∃ before job after fault, jobs = before ++ job :: after ∧
      failure = .badJob job.name fault ∧ validateJobs global seen before = .ok () ∧
      job.FailsAfter global (before.map Job.name ++ seen) fault := by
  induction jobs generalizing seen with
  | nil => cases refused
  | cons job rest ih =>
      simp only [validateJobs] at refused
      split at refused
      · rename_i fault found
        obtain rfl := Except.error.inj refused
        exact ⟨[], job, rest, fault, rfl, rfl, rfl, .inl (Job.hasFirst_of_fault? found)⟩
      · rename_i faultless
        split at refused
        · rename_i repeated
          obtain rfl := Except.error.inj refused
          refine ⟨[], job, rest, .duplicateName, rfl, rfl, rfl, .inr ⟨?_, ?_, rfl⟩⟩
          · exact Job.fault?_eq_none_iff.mp faultless
          · simpa using repeated
        · rename_i fresh
          obtain ⟨before, other, after, fault, rfl, named, valid, fails⟩ := ih refused
          refine ⟨job :: before, other, after, fault, rfl, named, ?_, ?_⟩
          · simp only [validateJobs, faultless]
            rw [if_neg fresh, valid]
          · simp only [Job.FailsAfter, List.mem_append, List.mem_cons, List.map_cons] at fails ⊢
            grind

theorem Scrape.validate_eq_ok_iff :
    scrape.validate = .ok () ↔
      (∀ job ∈ scrape.jobs, job.IsSound scrape.global) ∧ (scrape.jobs.map Job.name).Nodup := by
  simp [validate, validateJobs_eq_ok_iff]

theorem Scrape.validate_error (refused : scrape.validate = .error failure) :
    ∃ before job after fault, scrape.jobs = before ++ job :: after ∧
      failure = .badJob job.name fault ∧
      (∀ earlier ∈ before, earlier.IsSound scrape.global) ∧ (before.map Job.name).Nodup ∧
      job.FailsAfter scrape.global (before.map Job.name) fault := by
  obtain ⟨before, job, after, fault, split, named, valid, fails⟩ := validateJobs_error refused
  obtain ⟨sound, distinct, _⟩ := validateJobs_eq_ok_iff.mp valid
  rw [List.append_nil] at fails
  exact ⟨before, job, after, fault, split, named, sound, distinct, fails⟩

theorem Scrape.validate_names (valid : scrape.validate = .ok ()) :
    (scrape.jobs.map Job.name).Nodup :=
  (validate_eq_ok_iff.mp valid).2

/-- A job that is accepted comes around at some time, and waits for an answer no longer than until
then. -/
theorem Scrape.validate_timing (valid : scrape.validate = .ok ()) :
    ∀ job ∈ scrape.jobs, 0 < (job.interval scrape.global).nanos ∧
      0 < (job.timeout scrape.global).nanos ∧
      (job.timeout scrape.global).nanos ≤ (job.interval scrape.global).nanos := by
  intro job member
  have sound := (validate_eq_ok_iff.mp valid).1 job member
  exact ⟨sound.recurs, sound.waits, sound.ordered⟩

/-- A timeout that is not set is never too long. -/
theorem Job.timeout_set_of_exceeds {job : Job} {timeout interval : Duration}
    (broken : job.Breaks global (.timeoutExceeds timeout interval)) :
    job.scrapeTimeout = some timeout := by
  cases broken with
  | timeoutExceeds longer =>
      cases set : job.scrapeTimeout with
      | some timeout => simp [Job.timeout, set]
      | none =>
          simp only [Job.timeout, set, Duration.min] at longer
          split at longer <;> omega

/-- The discovery settings under a name are those of the job with this name. -/
theorem Scrape.get?_discoveries_iff (valid : scrape.validate = .ok ()) {name : String}
    {discovery : Discovery} :
    scrape.discoveries.get? name = some discovery ↔
      ∃ job ∈ scrape.jobs, job.name = name ∧ job.discovery = discovery := by
  have distinct :
      ((scrape.jobs.map (fun job => (job.name, job.discovery))).map Prod.fst).Nodup := by
    simpa [List.map_map, Function.comp_def] using scrape.validate_names valid
  simp [discoveries, SortedMap.get?_ofList_eq_some_iff distinct]

end ScrapeRelay.Config
