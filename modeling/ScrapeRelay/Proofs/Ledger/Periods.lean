import Mathlib.Data.List.Induction
import ScrapeRelay.Proofs.Ledger.Operations

/-!
# Periods of activity

A generation stands for one period in which a job was active. The answers to the marks of a
run tell the periods apart (`generations_identify_periods`): a mark opens a generation exactly
if the job is stale, the generations are numbered as they are opened, and any other mark
answers what the last one of its job did.

A question whether a job is stale changes nothing in a ledger, so it is no event of a run.
-/

namespace ScrapeRelay

/-- What a mark of a job answered. -/
structure Sighting extends Mark where
  job : String

/-- The generation that a job was last seen in. -/
def latestGeneration (job : String) (seen : List Sighting) : Option Nat :=
  ((seen.filter (fun sighting => sighting.job = job)).getLast?).map (fun sighting =>
    sighting.generation)

section latest

variable {job : String} {seen : List Sighting} {sighting : Sighting}

theorem latestGeneration_self (own : sighting.job = job) :
    latestGeneration job (seen ++ [sighting]) = some sighting.generation := by
  simp [latestGeneration, own]

theorem latestGeneration_of_ne (other : sighting.job ≠ job) :
    latestGeneration job (seen ++ [sighting]) = latestGeneration job seen := by
  simp [latestGeneration, other]

theorem mem_of_latestGeneration {generation : Nat}
    (latest : latestGeneration job seen = some generation) :
    ∃ sighting ∈ seen, sighting.job = job ∧ sighting.generation = generation := by
  obtain ⟨sighting, last, same⟩ := Option.map_eq_some_iff.mp latest
  obtain ⟨member, own⟩ := List.mem_filter.mp (List.mem_of_getLast? last)
  exact ⟨sighting, member, by simpa using own, same⟩

end latest

namespace Ledger

variable {ledger after : Ledger} {job : String} {now : Nat} {seen : List Sighting}

def sighting? (ledger : Ledger) : LedgerEvent → Option Sighting
  | .mark job now => some ⟨(ledger.mark job now).2, job⟩
  | _ => none

/-- The answers to the marks of a run, oldest first. -/
def sightings : Ledger → List LedgerEvent → List Sighting
  | _, [] => []
  | ledger, event :: rest =>
      (ledger.sighting? event).toList ++ sightings (ledger.perform event) rest

theorem sightings_concat (ledger : Ledger) (events : List LedgerEvent) (event : LedgerEvent) :
    ledger.sightings (events ++ [event]) =
      ledger.sightings events ++ ((ledger.run events).sighting? event).toList := by
  induction events generalizing ledger with
  | nil => simp [sightings, run]
  | cons first rest ih =>
      simp only [List.cons_append, sightings, ih, List.append_assoc]
      rfl

/-- A mark opens a generation exactly if its job is stale. -/
theorem mark_opened (ledger : Ledger) (job : String) (now : Nat) :
    (ledger.mark job now).2.opened = ledger.isStale job now ledger.window := by
  obtain ⟨stale, marked⟩ | ⟨record, active, _, marked⟩ := ledger.mark_cases job now
  · rw [marked, stale]
  · rw [marked, active]

theorem perform_window (ledger : Ledger) (event : LedgerEvent) :
    (ledger.perform event).window = ledger.window := by
  cases event with
  | mark job now => exact (ledger.mark_frame job now).1
  | observe job key value time => exact (ledger.observe_frame job key value time).1
  | sweep now window => rfl
  | sweepIfDue now =>
      obtain swept | same := ledger.sweepIfDue_cases now
      · rw [perform, swept]
        rfl
      · rw [perform, same]

theorem run_window (ledger : Ledger) (events : List LedgerEvent) :
    (ledger.run events).window = ledger.window := by
  induction events using List.reverseRecOn with
  | nil => rfl
  | append_singleton events event ih => rw [run_concat, perform_window, ih]

/-- The generations that were answered are numbered up to the next one. A record has the one in
which its job was last seen, which is its highest, and in which no other job was seen. -/
structure Numbers (seen : List Sighting) (ledger : Ledger) : Prop where
  next : ledger.nextGeneration = seen.countP (fun sighting => sighting.opened) + 1
  issued : ∀ sighting ∈ seen, sighting.generation < ledger.nextGeneration
  latest : ∀ {job record}, ledger.records.get? job = some record →
    latestGeneration job seen = some record.generation
  highest : ∀ {job record}, ledger.records.get? job = some record →
    ∀ sighting ∈ seen, sighting.job = job → sighting.generation ≤ record.generation
  alone : ∀ {job record}, ledger.records.get? job = some record →
    ∀ sighting ∈ seen, sighting.generation = record.generation → sighting.job = job

namespace Numbers

theorem new (window : Duration) : (Ledger.new window).Numbers [] :=
  ⟨rfl, nofun, nofun, nofun, nofun⟩

/-- Every record that is still there has the generation it had. -/
theorem frame (numbers : ledger.Numbers seen)
    (next : after.nextGeneration = ledger.nextGeneration)
    (kept : ∀ {job record}, after.records.get? job = some record →
      ∃ before, ledger.records.get? job = some before ∧
        before.generation = record.generation) : after.Numbers seen := by
  refine ⟨next.trans numbers.next, ?_, ?_, ?_, ?_⟩
  · rw [next]
    exact numbers.issued
  · intro job record known
    obtain ⟨before, knownBefore, same⟩ := kept known
    rw [← same]
    exact numbers.latest knownBefore
  · intro job record known
    obtain ⟨before, knownBefore, same⟩ := kept known
    rw [← same]
    exact numbers.highest knownBefore
  · intro job record known
    obtain ⟨before, knownBefore, same⟩ := kept known
    rw [← same]
    exact numbers.alone knownBefore

/-- A job gets another record of the same generation. -/
theorem keeping {record entry : LedgerRecord} (numbers : ledger.Numbers seen)
    (known : ledger.records.get? job = some record)
    (same : record.generation = entry.generation) : (ledger.keeping job entry).Numbers seen := by
  refine numbers.frame rfl fun {name held} found => ?_
  by_cases own : name = job
  · subst own
    obtain rfl := Option.some.inj (SortedMap.get?_insert_self.symm.trans found)
    exact ⟨record, known, same⟩
  · exact ⟨held, (SortedMap.get?_insert_of_ne own).symm.trans found, rfl⟩

/-- A job is seen in the generation of its record. -/
theorem seenAgain {record : LedgerRecord} (numbers : ledger.Numbers seen)
    (known : ledger.records.get? job = some record) :
    ledger.Numbers (seen ++ [⟨⟨record.generation, false⟩, job⟩]) := by
  obtain ⟨last, lastSeen, own, same⟩ := mem_of_latestGeneration (numbers.latest known)
  refine ⟨?_, ?_, ?_, ?_, ?_⟩
  · simpa using numbers.next
  · intro sighting member
    obtain old | new := List.mem_append.mp member
    · exact numbers.issued sighting old
    · obtain rfl := List.mem_singleton.mp new
      exact Nat.lt_of_le_of_lt (Nat.le_of_eq same.symm) (numbers.issued last lastSeen)
  · intro name held found
    by_cases named : job = name
    · subst named
      obtain rfl := Option.some.inj (known.symm.trans found)
      exact latestGeneration_self rfl
    · rw [latestGeneration_of_ne named]
      exact numbers.latest found
  · intro name held found sighting member owned
    obtain old | new := List.mem_append.mp member
    · exact numbers.highest found sighting old owned
    · obtain rfl := List.mem_singleton.mp new
      obtain rfl : job = name := owned
      obtain rfl := Option.some.inj (known.symm.trans found)
      exact Nat.le_refl _
  · intro name held found sighting member equal
    obtain old | new := List.mem_append.mp member
    · exact numbers.alone found sighting old equal
    · obtain rfl := List.mem_singleton.mp new
      exact own.symm.trans (numbers.alone found last lastSeen (same.trans equal))

theorem renewed (numbers : ledger.Numbers seen) (job : String) (now : Nat) :
    (ledger.renewed job now).Numbers
      (seen ++ [⟨⟨ledger.nextGeneration, true⟩, job⟩]) := by
  have renewal {record : LedgerRecord}
      (found : (ledger.renewed job now).records.get? job = some record) :
      record.generation = ledger.nextGeneration := by
    obtain rfl := Option.some.inj (SortedMap.get?_insert_self.symm.trans found)
    rfl
  have before {name : String} {record : LedgerRecord} (other : job ≠ name)
      (found : (ledger.renewed job now).records.get? name = some record) :
      ledger.records.get? name = some record :=
    (SortedMap.get?_insert_of_ne other.symm).symm.trans found
  refine ⟨?_, ?_, ?_, ?_, ?_⟩
  · simp [Ledger.renewed, numbers.next]
  · intro sighting member
    obtain old | new := List.mem_append.mp member
    · exact Nat.lt_succ_of_lt (numbers.issued sighting old)
    · obtain rfl := List.mem_singleton.mp new
      exact Nat.lt_succ_self _
  · intro name record found
    by_cases named : job = name
    · subst named
      rw [renewal found]
      exact latestGeneration_self rfl
    · rw [latestGeneration_of_ne named]
      exact numbers.latest (before named found)
  · intro name record found sighting member owned
    obtain old | new := List.mem_append.mp member
    · by_cases named : job = name
      · subst named
        rw [renewal found]
        exact Nat.le_of_lt (numbers.issued sighting old)
      · exact numbers.highest (before named found) sighting old owned
    · obtain rfl := List.mem_singleton.mp new
      obtain rfl : job = name := owned
      exact Nat.le_of_eq (renewal found).symm
  · intro name record found sighting member equal
    by_cases named : job = name
    · subst named
      rw [renewal found] at equal
      obtain old | new := List.mem_append.mp member
      · exact absurd equal (Nat.ne_of_lt (numbers.issued sighting old))
      · obtain rfl := List.mem_singleton.mp new
        rfl
    · obtain old | new := List.mem_append.mp member
      · exact numbers.alone (before named found) sighting old equal
      · -- A generation that was opened just now is not in another record.
        obtain rfl := List.mem_singleton.mp new
        obtain ⟨last, lastSeen, _, same⟩ :=
          mem_of_latestGeneration (numbers.latest (before named found))
        exact absurd (same.trans equal.symm) (Nat.ne_of_lt (numbers.issued last lastSeen))

theorem observe (numbers : ledger.Numbers seen) (job key : String) (value : Binary64)
    (time : Int64) : (ledger.observe job key value time).1.Numbers seen := by
  obtain same | ⟨record, known, observed⟩ := ledger.observe_cases job key value time
  · rw [same]
    exact numbers
  · rw [observed]
    exact numbers.keeping known rfl

theorem sweep (numbers : ledger.Numbers seen) (now : Nat) (window : Duration) :
    (ledger.sweep now window).1.Numbers seen := by
  refine numbers.frame rfl fun {job record} found => ?_
  rw [sweep_get?] at found
  exact ⟨record, Option.eq_some_of_filter_eq_some found, rfl⟩

theorem perform (numbers : ledger.Numbers seen) (event : LedgerEvent) :
    (ledger.perform event).Numbers (seen ++ (ledger.sighting? event).toList) := by
  cases event with
  | mark job now =>
      rw [Ledger.perform, Ledger.sighting?]
      obtain ⟨_, marked⟩ | ⟨record, _, known, marked⟩ := ledger.mark_cases job now
      · rw [marked]
        exact numbers.renewed job now
      · rw [marked]
        exact (numbers.seenAgain known).keeping known rfl
  | observe job key value time =>
      change (ledger.observe job key value time).1.Numbers (seen ++ [])
      rw [List.append_nil]
      exact numbers.observe job key value time
  | sweep now window =>
      change (ledger.sweep now window).1.Numbers (seen ++ [])
      rw [List.append_nil]
      exact numbers.sweep now window
  | sweepIfDue now =>
      change (ledger.sweepIfDue now).1.Numbers (seen ++ [])
      rw [List.append_nil]
      obtain swept | same := ledger.sweepIfDue_cases now
      · rw [swept]
        exact numbers.sweep now ledger.window
      · rw [same]
        exact numbers

end Numbers

theorem run_numbers (window : Duration) (events : List LedgerEvent) :
    ((new window).run events).Numbers ((new window).sightings events) := by
  induction events using List.reverseRecOn with
  | nil => exact .new window
  | append_singleton events event ih =>
      rw [run_concat, sightings_concat]
      exact ih.perform event

namespace Numbers

theorem answer_opened (numbers : ledger.Numbers seen) {job : String} {now : Nat}
    (opened : (ledger.mark job now).2.opened = true) :
    (ledger.mark job now).2.generation = seen.countP (fun sighting => sighting.opened) + 1 ∧
      ∀ earlier ∈ seen, earlier.generation < (ledger.mark job now).2.generation := by
  rw [mark_opened] at opened
  rw [mark_of_stale opened]
  exact ⟨numbers.next, numbers.issued⟩

theorem answer_kept (numbers : ledger.Numbers seen) {job : String} {now : Nat}
    (kept : (ledger.mark job now).2.opened = false) :
    latestGeneration job seen = some (ledger.mark job now).2.generation ∧
      ∀ earlier ∈ seen,
        (earlier.job = job → earlier.generation ≤ (ledger.mark job now).2.generation) ∧
        (earlier.generation = (ledger.mark job now).2.generation → earlier.job = job) := by
  rw [mark_opened] at kept
  obtain ⟨stale, _⟩ | ⟨record, _, known, marked⟩ := ledger.mark_cases job now
  · simp [kept] at stale
  · rw [marked]
    exact ⟨numbers.latest known, fun earlier member =>
      ⟨numbers.highest known earlier member, numbers.alone known earlier member⟩⟩

end Numbers

/-- What holds between a new sighting and all earlier ones holds along a run. -/
theorem pairwise_sightings {holds : Sighting → Sighting → Prop} {window : Duration}
    (made : ∀ events job now, ∀ earlier ∈ (new window).sightings events,
      holds earlier ⟨(((new window).run events).mark job now).2, job⟩)
    (events : List LedgerEvent) : ((new window).sightings events).Pairwise holds := by
  induction events using List.reverseRecOn with
  | nil => exact .nil
  | append_singleton events event ih =>
      rw [sightings_concat]
      refine List.pairwise_append.mpr ⟨ih, ?_, ?_⟩
      · cases event <;> simp [sighting?]
      · intro earlier member later new
        cases event with
        | mark job now =>
            obtain rfl := List.mem_singleton.mp new
            exact made events job now earlier member
        | _ => exact absurd new List.not_mem_nil

/-- Generations stand for periods of activity. Whatever was marked, observed and swept before, a
mark opens a generation exactly if its job is stale then, as a job without a record always is.
The generations that are opened are numbered in their order, so each is higher than all that
were answered before, for any job. A mark that opens none answers with the generation of the
last mark of its job. So no generation is that of two jobs, none is opened a second time, and
those of a job never fall. -/
theorem generations_identify_periods (window : Duration) (events : List LedgerEvent) :
    let ledger := (new window).run events
    let seen := (new window).sightings events
    (∀ job now,
      let answer := (ledger.mark job now).2
      (answer.opened = true ↔ ledger.isStale job now window = true) ∧
      (ledger.records.get? job = none → answer.opened = true) ∧
      (answer.opened = true →
        answer.generation = seen.countP (fun sighting => sighting.opened) + 1 ∧
          ∀ earlier ∈ seen, earlier.generation < answer.generation) ∧
      (answer.opened = false → latestGeneration job seen = some answer.generation)) ∧
    seen.Pairwise (fun earlier later =>
      earlier.generation = later.generation → earlier.job = later.job) ∧
    seen.Pairwise (fun earlier later =>
      later.opened = true → earlier.generation < later.generation) ∧
    seen.Pairwise (fun earlier later =>
      earlier.job = later.job → earlier.generation ≤ later.generation) := by
  intro ledger seen
  have same : ledger.window = window := run_window (new window) events
  refine ⟨fun job now => ?_, ?_, ?_, ?_⟩
  · intro answer
    have opened : answer.opened = ledger.isStale job now window := by
      rw [← same]
      exact ledger.mark_opened job now
    refine ⟨by rw [opened], ?_, ?_, ?_⟩
    · intro unknown
      rw [opened]
      exact isStale_of_unknown unknown
    · exact (run_numbers window events).answer_opened
    · exact fun kept => ((run_numbers window events).answer_kept kept).1
  · refine pairwise_sightings (fun before job now earlier member equal => ?_) events
    have numbers := run_numbers window before
    cases opened : (((new window).run before).mark job now).2.opened with
    | true => exact absurd equal (Nat.ne_of_lt ((numbers.answer_opened opened).2 earlier member))
    | false => exact ((numbers.answer_kept opened).2 earlier member).2 equal
  · refine pairwise_sightings (fun before job now earlier member opened => ?_) events
    exact ((run_numbers window before).answer_opened opened).2 earlier member
  · refine pairwise_sightings (fun before job now earlier member own => ?_) events
    have numbers := run_numbers window before
    cases opened : (((new window).run before).mark job now).2.opened with
    | true => exact Nat.le_of_lt ((numbers.answer_opened opened).2 earlier member)
    | false => exact ((numbers.answer_kept opened).2 earlier member).1 own

end Ledger

end ScrapeRelay
